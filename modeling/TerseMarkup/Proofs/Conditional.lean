import TerseMarkup.Proofs.Chain
import TerseMarkup.Proofs.Offside

/-!
# Chains of conditions

A conditional with further conditions and an alternative is a chain: all of its lines have the same
indentation, and it has one end. `ConditionLine` says which lines are its parts, and `ChainLines`
that all lines of a template are blank, hold other lines, or are parts of chains.

If every further condition and every alternative stands in its place (`Link.WellPlaced`), then the
template compiles to the forest of its lines, chain by chain (`Profile.compile_chains`): the blocks
that are open inside a chain hand its clauses on, because they are deeper, and the clause goes on
the conditional at its own indentation.
-/

namespace TerseMarkup

/-! ## The lines of a chain -/

/-- The line `line`, with `cur` the cursor behind it, is a part of a chain of conditions without
content of its own; `opened` is what it writes. Nothing is pulled for the line itself. -/
inductive ConditionLine (p : Profile) (s : Setting) (line : Line) (cur : Cursor) :
    Text → Part → Prop
  /-- A conditional. -/
  | first {found : Recognition} {expr condition : Text}
      (hfound : p.recognise line.body = some found)
      (hheadline : found.headline = .statement "if".toList expr) (hexpr : expr.trim ≠ [])
      (hread : splitStatement s.delimiters expr cur = (.ok (condition, []), cur)) :
      ConditionLine p s line cur
        (statementLine s.delimiters ("if".toList ++ [' '] ++ condition)) .first
  /-- A further condition. -/
  | further {lead word rest condition : Text}
      (hword : Rule.dashWord? ["elif"] line.body = some (lead, word, rest))
      (hexpr : rest.firstLine.trim ≠ [])
      (hread : splitStatement s.delimiters rest.firstLine cur = (.ok (condition, []), cur)) :
      ConditionLine p s line cur
        (statementLine s.delimiters
          (if condition.isEmpty then "elif".toList else "elif".toList ++ [' '] ++ condition))
        .middle
  /-- An alternative. -/
  | otherwise {lead word rest : Text}
      (hword : Rule.dashWord? ["else"] line.body = some (lead, word, rest))
      (hread : restAfterColon s.delimiters rest.firstLine cur = (.ok [], cur)) :
      ConditionLine p s line cur (statementLine s.delimiters "else".toList) .last

/-- All lines to come are blank, hold other lines, or are parts of chains of conditions; `links` are
those that are not blank, as parts of a forest. -/
inductive ChainLines (p : Profile) (s : Setting) : Cursor → List Link → Prop
  | done {n : Nat} : ChainLines p s ⟨[], n⟩ []
  | blank {raw : Text} {rest : List Text} {n : Nat} {links : List Link}
      (hblank : (Line.ofRaw raw).body = []) (hrest : ChainLines p s ⟨rest, n + 1⟩ links) :
      ChainLines p s ⟨raw :: rest, n⟩ links
  | container {raw : Text} {rest : List Text} {n : Nat} {opened closed : Text} {links : List Link}
      (hline : Container p s (.ofRaw raw) ⟨rest, n + 1⟩ opened closed)
      (hrest : ChainLines p s ⟨rest, n + 1⟩ links) :
      ChainLines p s ⟨raw :: rest, n⟩
        (⟨⟨(Line.ofRaw raw).indent, opened, closed⟩, .whole⟩ :: links)
  | condition {raw : Text} {rest : List Text} {n : Nat} {opened : Text} {part : Part}
      {links : List Link} (hline : ConditionLine p s (.ofRaw raw) ⟨rest, n + 1⟩ opened part)
      (hrest : ChainLines p s ⟨rest, n + 1⟩ links) :
      ChainLines p s ⟨raw :: rest, n⟩
        (⟨⟨(Line.ofRaw raw).indent, opened, statementEndLine s.delimiters "if".toList⟩, part⟩ ::
          links)

/-- All chains end in the same way. -/
theorem ChainLines.uniform {p : Profile} {s : Setting} {cur : Cursor} {links : List Link}
    (h : ChainLines p s cur links) :
    Link.Uniform links (statementEndLine s.delimiters "if".toList) := by
  induction h with
  | done =>
    intro link hlink
    cases hlink
  | blank _ _ ih => exact ih
  | container _ _ ih =>
    intro link hlink hpart
    rcases List.mem_cons.1 hlink with rfl | hlink
    · exact absurd rfl hpart
    · exact ih link hlink hpart
  | condition _ _ ih =>
    intro link hlink hpart
    rcases List.mem_cons.1 hlink with rfl | hlink
    · rfl
    · exact ih link hlink hpart

/-! ## Blocks that hold chains -/

namespace Frame

/-- The block was opened by a line that holds other lines. -/
def Nests : Frame → Prop
  | block _ _ | statement _ _ _ => True
  | document | inline _ _ => False

/-- Whether a further condition or an alternative may go on with the block. -/
def goesOn : Frame → Bool
  | statement _ keyword taken => keyword == "if".toList && !Clause.ended keyword taken
  | _ => false

/-- The block as an open line of a forest. -/
def pending (d : Delimiters) (frame : Frame) : Link.Pending :=
  ⟨frame.level, frame.closing d, frame.goesOn⟩

variable {frame : Frame} {line : Line}

/-- A block that only holds other lines was opened by a line that holds other lines. -/
theorem Holds.nests (h : frame.Holds) : frame.Nests := by
  cases frame with
  | document | inline => exact h.elim
  | block | statement => trivial

/-- No clause goes on with a block that only indentation closes. -/
theorem Holds.goesOn_eq_false (h : frame.Holds) : frame.goesOn = false := by
  cases frame with
  | document | inline | block => rfl
  | statement level keyword taken =>
    obtain ⟨hloop, rfl⟩ := h
    simp only [loopWords, List.mem_cons, List.not_mem_nil, or_false] at hloop
    rcases hloop with rfl | rfl | rfl <;> rfl

/-- Such a block goes on with the next line. -/
theorem Nests.pulls (h : frame.Nests) : frame.Pulls := by
  cases frame with
  | document | inline => exact h.elim
  | block | statement => trivial

/-- Such a block takes deeper lines as its content. -/
theorem Nests.announces (h : frame.Nests) (hbody : line.body ≠ [])
    (hdeep : frame.level < line.indent) : frame.Announces line line.indent := by
  cases frame with
  | document | inline => exact h.elim
  | block level close => exact .block hbody hdeep
  | statement level keyword taken => exact .statement hbody hdeep

/-- A line that is less indented is handed on. -/
theorem Nests.handsOn_of_lt (h : frame.Nests) (hbody : line.body ≠ [])
    (hlt : line.indent < frame.level) : frame.HandsOn line := by
  cases frame with
  | document | inline => exact h.elim
  | block level close => exact .block hbody (Nat.le_of_lt hlt)
  | statement level keyword taken => exact .dedent hbody hlt

/-- So is a line that is not deeper, if it is a headline. -/
theorem Nests.handsOn_of_le {p : Profile} (hp : p.IsStandard) {found : Recognition}
    (h : frame.Nests) (hbody : line.body ≠ []) (hfound : p.recognise line.body = some found)
    (hle : line.indent ≤ frame.level) : frame.HandsOn line := by
  rcases Nat.lt_or_eq_of_le hle with hlt | heq
  · exact h.handsOn_of_lt hbody hlt
  · cases frame with
    | document | inline => exact h.elim
    | block level close => exact .block hbody hle
    | statement level keyword taken =>
      obtain rfl : line.indent = level := heq
      exact .noClause hbody (Profile.next?_eq_none_of_recognise hp hfound keyword taken)

/-- A block that a clause may go on with is that of a conditional. -/
theorem exists_of_goesOn (h : frame.goesOn = true) :
    ∃ taken, frame = .statement frame.level "if".toList taken ∧
      Clause.ended "if".toList taken = false := by
  cases frame with
  | document | inline | block => cases h
  | statement level keyword taken =>
    obtain ⟨rfl, hended⟩ : keyword = "if".toList ∧ Clause.ended keyword taken = false := by
      simpa [goesOn] using h
    exact ⟨taken, rfl, hended⟩

end Frame

/-! ## Headlines that open a block -/

/-- The line is a headline that opens one block, as `link` says; nothing is pulled for it, and
nothing of it is left. No clause has gone on with the block yet. -/
structure OpensBlock (p : Profile) (s : Setting) (line : Line) (cur : Cursor) (link : Link)
    (found : Recognition) (opening : Opening) (frame : Frame) : Prop where
  recognised : p.recognise line.body = some found
  opens : found.headline.opening s line.indent line.body cur = (.ok opening, cur)
  frames : opening.frames line.indent = [frame]
  rest : opening.line line.indent = ⟨line.indent, []⟩
  quiet : opening.announces = false
  indent : link.indent = line.indent
  written : opening.written = link.opened
  nests : frame.Nests
  pending : frame.pending s.delimiters = link.pending
  noClause : link.isClause = false

section

variable {p : Profile} {s : Setting} {line : Line} {cur : Cursor} {opened closed : Text}

/-- A line that only holds other lines opens one block, with its own end. -/
theorem Container.opensBlock (h : Container p s line cur opened closed) :
    ∃ found opening frame,
      OpensBlock p s line cur ⟨⟨line.indent, opened, closed⟩, .whole⟩ found opening frame := by
  obtain ⟨found, opening, frame, hfound, hopen, hwritten, hframes, hrest, hquiet, hholds, hlevel,
    hclosed⟩ := h.opens
  refine ⟨found, opening, frame, hfound, hopen, hframes, hrest, hquiet, rfl, hwritten, hholds.nests,
    ?_, rfl⟩
  rw [Frame.pending, hlevel, hclosed, hholds.goesOn_eq_false]
  rfl

/-- The first line of a chain of conditions opens one block, with the end of the chain. -/
theorem ConditionLine.opensBlock (h : ConditionLine p s line cur opened .first) :
    ∃ found opening frame,
      OpensBlock p s line cur
        ⟨⟨line.indent, opened, statementEndLine s.delimiters "if".toList⟩, .first⟩ found opening
        frame := by
  cases h with
  | @first found expr condition hfound hheadline hexpr hread =>
    refine ⟨found, .statement (statementLine s.delimiters ("if".toList ++ [' '] ++ condition))
      "if".toList [], .statement line.indent "if".toList [], hfound, ?_, rfl, rfl, rfl, rfl, rfl,
      trivial, rfl, rfl⟩
    rw [hheadline]
    have hne : expr.trim.isEmpty = false := by simpa using hexpr
    simp only [Headline.opening, openStatement, hne]
    exact Scan.bind_eq_ok_iff.2 ⟨_, cur, hread, rfl⟩

end

/-! ## Clauses of a conditional -/

/-- A further condition may follow as long as the chain has not ended. -/
theorem Clause.next?_further {body lead word rest : Text} {taken : List Clause}
    (h : Rule.dashWord? ["elif"] body = some (lead, word, rest))
    (hended : ended "if".toList taken = false) :
    next? "if".toList taken body = some (.elif, rest.firstLine) := by
  have hadmitted : admitted "if".toList = [.elif, .otherwise] := rfl
  have helif : Rule.dashWord? [Clause.elif.word] body = some (lead, word, rest) := h
  rw [next?, hended, if_neg Bool.false_ne_true, hadmitted, List.findSome?_cons, helif]
  rfl

/-- An alternative may follow as long as the chain has not ended. -/
theorem Clause.next?_otherwise {body lead word rest : Text} {taken : List Clause}
    (h : Rule.dashWord? ["else"] body = some (lead, word, rest))
    (hended : ended "if".toList taken = false) :
    next? "if".toList taken body = some (.otherwise, rest.firstLine) := by
  have hadmitted : admitted "if".toList = [.elif, .otherwise] := rfl
  have helif : Rule.dashWord? [Clause.elif.word] body = none :=
    Rule.dashWord?_eq_none h (by decide)
  have helse : Rule.dashWord? [Clause.otherwise.word] body = some (lead, word, rest) := h
  rw [next?, hended, if_neg Bool.false_ne_true, hadmitted, List.findSome?_cons, helif,
    Option.map_none, List.findSome?_cons, helse]
  rfl

/-- A further condition or an alternative goes on any conditional that has not had its last
clause. -/
theorem ConditionLine.exists_clause {p : Profile} {s : Setting} {line : Line} {cur : Cursor}
    {opened : Text} {part : Part} (h : ConditionLine p s line cur opened part)
    (hpart : part ≠ .first) :
    (∀ node : Node, Link.isClause ⟨node, part⟩ = true) ∧ line.body ≠ [] ∧
      ∃ clause t, clause.read s.delimiters t cur = (.ok (opened, []), cur) ∧
        (∀ taken, Clause.ended "if".toList taken = false →
          Clause.next? "if".toList taken line.body = some (clause, t)) ∧
        ∀ (taken : List Clause) (node : Node),
          Frame.goesOn (.statement line.indent "if".toList (clause :: taken)) =
            Link.isOpen ⟨node, part⟩ := by
  cases h with
  | first => exact absurd rfl hpart
  | further hword hexpr hread =>
    refine ⟨fun node => rfl, Rule.ne_nil_of_dashWord? hword, .elif, _, ?_,
      fun taken => Clause.next?_further hword, fun taken node => rfl⟩
    exact Scan.bind_eq_ok_iff.2 ⟨_, cur, hread, rfl⟩
  | otherwise hword hread =>
    refine ⟨fun node => rfl, Rule.ne_nil_of_dashWord? hword, .otherwise, _, ?_,
      fun taken => Clause.next?_otherwise hword, fun taken node => rfl⟩
    exact Scan.bind_eq_ok_iff.2 ⟨_, cur, hread, rfl⟩

/-! ## The walk through the lines -/

namespace Outline

variable {p : Profile} {s : Setting} {stack outer : List Frame} {line : Line} {cur : Cursor}
  {frame : Frame}

/-- A headline closes the blocks that it is not deeper than, and opens one of its own. -/
theorem moves_opensBlock (hp : p.IsStandard) (hstack : ∀ frame ∈ stack, frame.Nests) {link : Link}
    {found : Recognition} {opening : Opening}
    (h : OpensBlock p s line cur link found opening frame) :
    Moves p.recognise s ⟨stack ++ [.document], line, false, cur⟩
      (((stack.takeWhile (link.indent ≤ ·.level)).map (Frame.closing s.delimiters)).flatten ++
        link.opened)
      ⟨frame :: stack.dropWhile (link.indent ≤ ·.level) ++ [.document], ⟨link.indent, []⟩, false,
        cur⟩ := by
  have hbody := (Profile.headline_seen hp h.recognised).1
  rw [h.indent, ← h.written]
  refine (moves_closeWhile _ (fun frame hf hle => ?_) cur).trans
    (moves_openBlock hbody (fun frame hf => ?_) h.recognised h.opens h.frames h.rest h.quiet)
  · exact (hstack frame hf).handsOn_of_le hp hbody h.recognised (by simpa using hle)
  · have hnests := hstack frame ((List.dropWhile_sublist _).subset (List.mem_of_mem_head? hf))
    have hhead := List.head?_dropWhile_not (fun frame : Frame =>
      decide (line.indent ≤ frame.level)) stack
    rw [Option.mem_def.1 hf] at hhead
    exact hnests.announces hbody (by simpa using hhead)

/-- A clause closes the blocks that are deeper than it, and goes on the conditional that is left. -/
theorem moves_clause (hstack : ∀ frame ∈ stack, frame.Nests) (hbody : line.body ≠ [])
    {clause : Clause} {taken : List Clause} {t opened : Text}
    (hdrop : stack.dropWhile (line.indent < ·.level) =
      .statement line.indent "if".toList taken :: outer)
    (hnext : Clause.next? "if".toList taken line.body = some (clause, t))
    (hread : clause.read s.delimiters t cur = (.ok (opened, []), cur)) :
    Moves p.recognise s ⟨stack ++ [.document], line, false, cur⟩
      (((stack.takeWhile (line.indent < ·.level)).map (Frame.closing s.delimiters)).flatten ++
        opened)
      ⟨.statement line.indent "if".toList (clause :: taken) :: outer ++ [.document],
        ⟨line.indent, []⟩, false, cur⟩ := by
  have hclose : Moves p.recognise s ⟨stack ++ [.document], line, false, cur⟩ _ _ :=
    moves_closeWhile (line.indent < ·.level)
      (fun frame hf hlt => (hstack frame hf).handsOn_of_lt hbody (by simpa using hlt)) cur
  rw [hdrop] at hclose
  exact hclose.trans (.single (.clause hbody hnext hread))

/-- A block on top of some of the open blocks leaves a stack of such blocks. -/
theorem nests_cons (hframe : frame.Nests) (hsubset : outer ⊆ stack)
    (hstack : ∀ frame ∈ stack, frame.Nests) : ∀ f ∈ frame :: outer, f.Nests := by
  intro f hf
  rcases List.mem_cons.1 hf with rfl | hf
  · exact hframe
  · exact hstack f (hsubset hf)

/-- The blocks that close write what the open lines of the forest write at their ends. -/
theorem closings_pending (d : Delimiters) (stack : List Frame) (closes : Nat → Bool) :
    ((stack.map (Frame.pending d)).takeWhile fun o => closes o.indent).map Link.Pending.closed =
      (stack.takeWhile fun frame => closes frame.level).map (Frame.closing d) := by
  rw [List.takeWhile_map, List.map_map]
  rfl

/-- The blocks that stay open are the open lines that do. -/
theorem dropWhile_pending (d : Delimiters) (stack : List Frame) (closes : Nat → Bool) :
    (stack.map (Frame.pending d)).dropWhile (fun o => closes o.indent) =
      (stack.dropWhile fun frame => closes frame.level).map (Frame.pending d) := by
  rw [List.dropWhile_map]
  rfl

/-- The walk over a headline that opens a block. -/
theorem resume_opensBlock (stack : List Frame) {link : Link} {found : Recognition}
    {opening : Opening} (h : OpensBlock p s line cur link found opening frame)
    (links : List Link) :
    Link.resume (stack.map (Frame.pending s.delimiters)) (link :: links) =
        ((stack.takeWhile (link.indent ≤ ·.level)).map (Frame.closing s.delimiters)).flatten ++
          link.opened ++ Link.resume ((frame :: stack.dropWhile (link.indent ≤ ·.level)).map
            (Frame.pending s.delimiters)) links ∧
      (Link.Placed (stack.map (Frame.pending s.delimiters)) (link :: links) →
        Link.Placed ((frame :: stack.dropWhile (link.indent ≤ ·.level)).map
          (Frame.pending s.delimiters)) links) := by
  have hclosings := closings_pending s.delimiters stack (decide <| link.indent ≤ ·)
  have hkept := dropWhile_pending s.delimiters stack (decide <| link.indent ≤ ·)
  rw [Link.resume, Link.Placed, h.noClause, if_neg Bool.false_ne_true, if_neg Bool.false_ne_true,
    hclosings, hkept, List.map_cons, h.pending]
  exact ⟨rfl, id⟩

/-- The walk over a clause. -/
theorem resume_clause (d : Delimiters) (stack : List Frame) {link : Link}
    (hclause : link.isClause = true) {links : List Link}
    (hplaced : Link.Placed (stack.map (Frame.pending d)) (link :: links)) :
    ∃ taken outer, stack.dropWhile (link.indent < ·.level) =
        .statement link.indent "if".toList taken :: outer ∧
      Clause.ended "if".toList taken = false ∧
      ∀ frame : Frame, frame.pending d = link.pending →
        Link.resume (stack.map (Frame.pending d)) (link :: links) =
            ((stack.takeWhile (link.indent < ·.level)).map (Frame.closing d)).flatten ++
              link.opened ++ Link.resume ((frame :: outer).map (Frame.pending d)) links ∧
          Link.Placed ((frame :: outer).map (Frame.pending d)) links := by
  have hclosings := closings_pending d stack (decide <| link.indent < ·)
  have hkept := dropWhile_pending d stack (decide <| link.indent < ·)
  rw [Link.Placed, hclause, if_pos rfl, hkept] at hplaced
  obtain ⟨after, hdrop, hplaced⟩ := hplaced
  obtain ⟨top, outer, hstack, htop, rfl⟩ := List.map_eq_cons_iff.1 hdrop
  have hlevel : top.level = link.indent := congrArg Link.Pending.indent htop
  obtain ⟨taken, hframe, hended⟩ := Frame.exists_of_goesOn (congrArg Link.Pending.goesOn htop)
  rw [hlevel] at hframe
  refine ⟨taken, outer, by rw [hstack, hframe], hended, ?_⟩
  intro frame hpending
  rw [List.map_cons, hpending, Link.resume, hclause, if_pos rfl, hclosings, hkept, hdrop,
    List.tail_cons]
  exact ⟨rfl, hplaced⟩

/-- With any stack of open blocks in which its clauses find their places, the compiler goes through
the lines to come as `Link.resume` does. -/
def Follows (p : Profile) (s : Setting) (cur : Cursor) (links : List Link) : Prop :=
  ∀ stack : List Frame, (∀ frame ∈ stack, frame.Nests) →
    Link.Placed (stack.map (Frame.pending s.delimiters)) links → ∀ indent,
      ∃ n, Moves p.recognise s ⟨stack ++ [.document], ⟨indent, []⟩, false, cur⟩
        (Link.resume (stack.map (Frame.pending s.delimiters)) links)
        ⟨[], .none, false, ⟨[], n⟩⟩

variable {raw : Text} {rest : List Text} {n : Nat} {link : Link} {links : List Link}

/-- A stack of such blocks pulls the next line. -/
theorem steps_pull_nests (hstack : ∀ frame ∈ stack, frame.Nests) (indent : Nat) :
    Steps p.recognise s ⟨stack ++ [.document], ⟨indent, []⟩, false, ⟨raw :: rest, n⟩⟩ []
      ⟨stack ++ [.document], .ofRaw raw, false, ⟨rest, n + 1⟩⟩ :=
  steps_pull (fun frame hf => (hstack frame hf).pulls) rfl raw rest n

/-- Where no line is left, the open blocks are closed. -/
theorem follows_nil : Follows p s ⟨[], n⟩ [] := by
  intro stack hstack _ indent
  refine ⟨n, ?_⟩
  rw [Link.resume, List.map_map]
  exact moves_finish (fun frame hf => (hstack frame hf).pulls) _ rfl n

/-- Blank lines are passed over. -/
theorem Follows.blank (h : Follows p s ⟨rest, n + 1⟩ links) (hblank : (Line.ofRaw raw).body = []) :
    Follows p s ⟨raw :: rest, n⟩ links := by
  intro stack hstack hplaced indent
  obtain ⟨m, hm⟩ := h stack hstack hplaced (Line.ofRaw raw).indent
  have hraw : (⟨(Line.ofRaw raw).indent, []⟩ : Line) = .ofRaw raw := by rw [← hblank]
  rw [hraw] at hm
  exact ⟨m, .step (steps_pull_nests hstack indent) hm⟩

/-- A line that opens a block goes through the lines as a line of the forest that is no clause. -/
theorem Follows.opensBlock (hp : p.IsStandard) (h : Follows p s ⟨rest, n + 1⟩ links)
    {found : Recognition} {opening : Opening}
    (hopens : OpensBlock p s (.ofRaw raw) ⟨rest, n + 1⟩ link found opening frame) :
    Follows p s ⟨raw :: rest, n⟩ (link :: links) := by
  intro stack hstack hplaced indent
  obtain ⟨hresume, hkept⟩ := resume_opensBlock stack hopens links
  obtain ⟨m, hm⟩ := h _ (nests_cons hopens.nests (List.dropWhile_sublist _).subset hstack)
    (hkept hplaced) link.indent
  have hmoves := Moves.step (steps_pull_nests hstack indent)
    ((moves_opensBlock hp hstack hopens).trans hm)
  rw [hresume]
  exact ⟨m, hmoves⟩

/-- A clause goes through the lines as a clause of the forest: it closes what is deeper, and takes
the place of the line that it goes on with. -/
theorem Follows.clause (h : Follows p s ⟨rest, n + 1⟩ links) {opened : Text} {part : Part}
    (hline : ConditionLine p s (.ofRaw raw) ⟨rest, n + 1⟩ opened part) (hpart : part ≠ .first) :
    Follows p s ⟨raw :: rest, n⟩
      (⟨⟨(Line.ofRaw raw).indent, opened, statementEndLine s.delimiters "if".toList⟩, part⟩ ::
        links) := by
  intro stack hstack hplaced indent
  obtain ⟨hclause, hbody, clause, t, hread, hnext, hopen⟩ := hline.exists_clause hpart
  obtain ⟨taken, outer, hdrop, hended, hresume⟩ :=
    resume_clause s.delimiters stack (hclause _) hplaced
  have hpending : (Frame.statement (Line.ofRaw raw).indent "if".toList (clause :: taken)).pending
      s.delimiters = Link.pending ⟨⟨(Line.ofRaw raw).indent, opened,
        statementEndLine s.delimiters "if".toList⟩, part⟩ := by
    rw [Frame.pending, hopen taken ⟨(Line.ofRaw raw).indent, opened,
      statementEndLine s.delimiters "if".toList⟩]
    rfl
  have houter : outer ⊆ stack := by
    intro f hf
    have hsublist := List.dropWhile_sublist (l := stack)
      fun frame => decide ((Line.ofRaw raw).indent < frame.level)
    apply hsublist.subset
    rw [hdrop]
    exact List.mem_cons_of_mem _ hf
  obtain ⟨hwritten, hkept⟩ := hresume _ hpending
  obtain ⟨m, hm⟩ := h (.statement (Line.ofRaw raw).indent "if".toList (clause :: taken) :: outer)
    (nests_cons (by trivial) houter hstack) hkept (Line.ofRaw raw).indent
  have hmoves := Moves.step (steps_pull_nests hstack indent)
    ((moves_clause hstack hbody hdrop (hnext taken hended) hread).trans hm)
  rw [hwritten]
  exact ⟨m, hmoves⟩

/-- The compiler goes through all the lines. -/
theorem follows_of_chainLines (hp : p.IsStandard) (h : ChainLines p s cur links) :
    Follows p s cur links := by
  induction h with
  | done => exact follows_nil
  | blank hblank _ ih => exact ih.blank hblank
  | container hline _ ih =>
    obtain ⟨found, opening, frame, hopens⟩ := hline.opensBlock
    exact ih.opensBlock hp hopens
  | @condition raw rest n opened part links hline _ ih =>
    by_cases hpart : part = .first
    · subst hpart
      obtain ⟨found, opening, frame, hopens⟩ := hline.opensBlock
      exact ih.opensBlock hp hopens
    · exact ih.clause hline hpart

end Outline

/-! ## Chains -/

/-- A template of blank lines, lines that hold other lines and chains of conditions in which each
clause stands in its place compiles to the forest of its lines, chain by chain. -/
theorem Profile.compile_chains (p : Profile) (hp : p.rules.Sublist Rule.standard) (depth : Nat)
    (source : Text) (links : List Link)
    (h : ChainLines p (p.setting (p.compileEmbedded depth depth)) (.ofText source) links)
    (hplaced : Link.WellPlaced links) :
    p.compile ⟨false, depth⟩ source = .ok (Link.render links) := by
  have hnone : ∀ frame ∈ ([] : List Frame), frame.Nests := fun frame hf => absurd hf (by simp)
  obtain ⟨n, hmoves⟩ := Outline.follows_of_chainLines hp h [] hnone (hplaced.placed h.uniform) 0
  rw [← Link.resume_eq_render hplaced h.uniform]
  exact (Profile.compile_eq_ok_iff hp).2 ⟨.none, ⟨[], n⟩, hmoves⟩

/-- A conditional with a loop in it, and in that another conditional, each with its own alternative;
behind the chain a line that is less indented than it and still below the element, and then another
chain. -/
theorem Profile.compile_nested_chains :
    (mako id).rules.Sublist Rule.standard ∧
    ∃ links, ChainLines (mako id) ((mako id).setting ((mako id).compileEmbedded 3 3))
        (.ofText ("div\n    -if a\n      -for x in y\n          -if b\n            i\n".toList ++
          "          -else\n\n    -elif c\n     b\n    -else\n  p\n-if d".toList)) links ∧
      links.map (fun link => link.indent) = [0, 4, 6, 10, 12, 10, 4, 5, 4, 2, 0] ∧
      links.map Link.part = [.whole, .first, .whole, .first, .whole, .last, .middle, .whole, .last,
        .whole, .first] ∧
      Link.WellPlaced links ∧
      (mako id).compile ⟨false, 3⟩
          ("div\n    -if a\n      -for x in y\n          -if b\n            i\n".toList ++
            "          -else\n\n    -elif c\n     b\n    -else\n  p\n-if d".toList) =
        .ok (Link.render links) ∧
      Link.render links = ("<div>\n%if a:\n\n%for x in y:\n\n%if b:\n<i></i>\n%else:\n".toList ++
        "\n%endif\n\n%endfor\n\n%elif c:\n<b></b>\n%else:\n\n%endif\n<p></p></div>".toList ++
        "\n%if d:\n\n%endif\n".toList) := by
  have h : ChainLines (mako id) ((mako id).setting ((mako id).compileEmbedded 3 3))
      (.ofText ("div\n    -if a\n      -for x in y\n          -if b\n            i\n".toList ++
        "          -else\n\n    -elif c\n     b\n    -else\n  p\n-if d".toList))
      [⟨⟨0, "<div>".toList, "</div>".toList⟩, .whole⟩,
        ⟨⟨4, statementLine .mako ("if".toList ++ [' '] ++ ['a']), "\n%endif\n".toList⟩, .first⟩,
        ⟨⟨6, statementLine .mako ("for".toList ++ [' '] ++ "x in y".toList),
          "\n%endfor\n".toList⟩, .whole⟩,
        ⟨⟨10, statementLine .mako ("if".toList ++ [' '] ++ ['b']), "\n%endif\n".toList⟩, .first⟩,
        ⟨⟨12, "<i>".toList, "</i>".toList⟩, .whole⟩,
        ⟨⟨10, "\n%else:\n".toList, "\n%endif\n".toList⟩, .last⟩,
        ⟨⟨4, statementLine .mako (if List.isEmpty ['c'] then "elif".toList
          else "elif".toList ++ [' '] ++ ['c']), "\n%endif\n".toList⟩, .middle⟩,
        ⟨⟨5, "<b>".toList, "</b>".toList⟩, .whole⟩,
        ⟨⟨4, "\n%else:\n".toList, "\n%endif\n".toList⟩, .last⟩,
        ⟨⟨2, "<p>".toList, "</p>".toList⟩, .whole⟩,
        ⟨⟨0, statementLine .mako ("if".toList ++ [' '] ++ ['d']), "\n%endif\n".toList⟩,
          .first⟩] := by
    refine .container
      (.element (e := ⟨_, _, "div".toList, [], [], []⟩) rfl rfl (by decide +kernel) rfl) ?_
    refine .condition (.first rfl rfl (by decide) (by decide +kernel)) ?_
    refine .container (.statement rfl rfl (by decide) (by decide) (by decide +kernel)) ?_
    refine .condition (.first rfl rfl (by decide) (by decide +kernel)) ?_
    refine .container
      (.element (e := ⟨_, _, "i".toList, [], [], []⟩) rfl rfl (by decide +kernel) rfl) ?_
    refine .condition (.otherwise rfl rfl) (.blank rfl ?_)
    refine .condition (.further rfl (by decide) (by decide +kernel)) ?_
    refine .container
      (.element (e := ⟨_, _, "b".toList, [], [], []⟩) rfl rfl (by decide +kernel) rfl) ?_
    refine .condition (.otherwise rfl rfl) ?_
    refine .container
      (.element (e := ⟨_, _, "p".toList, [], [], []⟩) rfl rfl (by decide +kernel) rfl) ?_
    exact .condition (.first rfl rfl (by decide) (by decide +kernel)) .done
  exact ⟨mako_isStandard, _, h, rfl, rfl, by decide,
    compile_chains _ mako_isStandard 3 _ _ h (by decide), by decide +kernel⟩

end TerseMarkup
