import TerseMarkup.Compile
import TerseMarkup.Proofs.Forest
import TerseMarkup.Proofs.Moves

/-!
# The offside rule

A template of lines that only hold other lines is compiled into the forest that its indentation
makes of it: the parent of a line is the nearest line before it that is less indented. Blank lines
do not count, and indentations need not match up: lines at 0, 4, 2 and 3 are a root with two
children, the second of which has a child.

`Container` says which lines only hold other lines: elements without a headline of their own behind
a colon, lines of HTML, and loops and guarded blocks without content on their line. `Containers`
says it of all lines of a template. The main statement is `Profile.compile_containers`.

The compiler never builds the forest. `Outline.moves_containers` is its walk through the lines with
a stack of open blocks, and `Node.resume_eq_render` says that such a walk writes the forest.
-/

namespace TerseMarkup

/-! ## Lines that hold other lines -/

/-- The words of the statements that no clause can go on. -/
def loopWords : List Text :=
  ["for".toList, "while".toList, "with".toList]

/-- The line `line`, with `cur` the cursor behind it, only holds other lines; `opened` and `closed`
are what it writes in front of them and behind them. Nothing is pulled for the line itself. -/
inductive Container (p : Profile) (s : Setting) (line : Line) (cur : Cursor) : Text → Text → Prop
  /-- An element that leaves nothing behind a colon. -/
  | element {found : Recognition} {e : Element} (hfound : p.recognise line.body = some found)
      (hheadline : found.headline = .element)
      (hread : Element.read s none line.body.trim cur = (.ok e, cur)) (hrest : e.rest = []) :
      Container p s line cur e.opened e.closed
  /-- A line of HTML. -/
  | html {found : Recognition} (hfound : p.recognise line.body = some found)
      (hheadline : found.headline = .html) : Container p s line cur (line.body.trim ++ ['\n']) []
  /-- A statement without an expression. -/
  | bare {found : Recognition} {keyword expr : Text} (hfound : p.recognise line.body = some found)
      (hheadline : found.headline = .statement keyword expr) (hloop : keyword ∈ loopWords)
      (hexpr : expr.trim = []) :
      Container p s line cur (statementLine s.delimiters keyword)
        (statementEndLine s.delimiters keyword)
  /-- A statement with an expression that leaves nothing behind a colon. -/
  | statement {found : Recognition} {keyword expr condition : Text}
      (hfound : p.recognise line.body = some found)
      (hheadline : found.headline = .statement keyword expr) (hloop : keyword ∈ loopWords)
      (hexpr : expr.trim ≠ [])
      (hread : splitStatement s.delimiters expr cur = (.ok (condition, []), cur)) :
      Container p s line cur (statementLine s.delimiters (keyword ++ [' '] ++ condition))
        (statementEndLine s.delimiters keyword)

/-- All lines to come are blank or hold other lines; `nodes` are the latter, as part of a forest. -/
inductive Containers (p : Profile) (s : Setting) : Cursor → List Node → Prop
  | done {n : Nat} : Containers p s ⟨[], n⟩ []
  | blank {raw : Text} {rest : List Text} {n : Nat} {nodes : List Node}
      (hblank : (Line.ofRaw raw).body = []) (hrest : Containers p s ⟨rest, n + 1⟩ nodes) :
      Containers p s ⟨raw :: rest, n⟩ nodes
  | line {raw : Text} {rest : List Text} {n : Nat} {opened closed : Text} {nodes : List Node}
      (hline : Container p s (.ofRaw raw) ⟨rest, n + 1⟩ opened closed)
      (hrest : Containers p s ⟨rest, n + 1⟩ nodes) :
      Containers p s ⟨raw :: rest, n⟩ (⟨(Line.ofRaw raw).indent, opened, closed⟩ :: nodes)

/-! ## Blocks that only indentation closes -/

namespace Frame

/-- The indentation of the headline that opened the block. -/
def level : Frame → Nat
  | document => 0
  | block level _ | inline level _ | statement level _ _ => level

/-- The block was opened by a line that only holds other lines. -/
def Holds : Frame → Prop
  | block _ _ => True
  | statement _ keyword taken => keyword ∈ loopWords ∧ taken = []
  | document | inline _ _ => False

/-- A block that only holds lines goes on with the next one. -/
theorem Holds.pulls {frame : Frame} (h : frame.Holds) : frame.Pulls := by
  cases frame with
  | inline => exact h.elim
  | document | block | statement => trivial

/-- No clause goes on a loop. -/
theorem next?_of_mem_loopWords {keyword : Text} (h : keyword ∈ loopWords) (line : Text) :
    Clause.next? keyword [] line = none := by
  simp only [loopWords, List.mem_cons, List.not_mem_nil, or_false] at h
  rcases h with rfl | rfl | rfl <;> rfl

/-- Such a block closes at a line that is not deeper. -/
theorem Holds.handsOn {frame : Frame} {line : Line} (h : frame.Holds) (hbody : line.body ≠ [])
    (hle : line.indent ≤ frame.level) : frame.HandsOn line := by
  cases frame with
  | document => exact h.elim
  | inline => exact h.elim
  | block level close => exact .block hbody hle
  | statement level keyword taken =>
    obtain ⟨hloop, rfl⟩ := h
    rcases Nat.lt_or_eq_of_le hle with hlt | heq
    · exact .dedent hbody hlt
    · simp only [Frame.level] at heq
      subst heq
      exact .noClause hbody (next?_of_mem_loopWords hloop line.body)

/-- Such a block takes deeper lines as its content. -/
theorem Holds.announces {frame : Frame} {line : Line} (h : frame.Holds) (hbody : line.body ≠ [])
    (hlt : frame.level < line.indent) : frame.Announces line line.indent := by
  cases frame with
  | document => exact h.elim
  | inline => exact h.elim
  | block level close => exact .block hbody hlt
  | statement level keyword taken => exact .statement hbody hlt

end Frame

/-- A line that only holds other lines opens one block, which only indentation closes. -/
theorem Container.opens {p : Profile} {s : Setting} {line : Line} {cur : Cursor}
    {opened closed : Text} (h : Container p s line cur opened closed) :
    ∃ found opening frame, p.recognise line.body = some found ∧
      found.headline.opening s line.indent line.body cur = (.ok opening, cur) ∧
      opening.written = opened ∧ opening.frames line.indent = [frame] ∧
      opening.line line.indent = ⟨line.indent, []⟩ ∧ opening.announces = false ∧
      frame.Holds ∧ frame.level = line.indent ∧ frame.closing s.delimiters = closed := by
  cases h with
  | element hfound hheadline hread hrest =>
    rename_i found e
    refine ⟨found, .block e.opened e.closed, .block line.indent e.closed, hfound, ?_, rfl, rfl, rfl,
      rfl, trivial, rfl, rfl⟩
    rw [hheadline]
    refine Scan.bind_eq_ok_iff.2 ⟨e, cur, hread, ?_⟩
    simp [hrest, Scan.pure_apply]
  | html hfound hheadline =>
    rename_i found
    refine ⟨found, .block (line.body.trim ++ ['\n']) [], .block line.indent [], hfound, ?_, rfl,
      rfl, rfl, rfl, trivial, rfl, rfl⟩
    rw [hheadline]
    rfl
  | bare hfound hheadline hloop hexpr =>
    rename_i found keyword expr
    refine ⟨found, .statement (statementLine s.delimiters keyword) keyword [],
      .statement line.indent keyword [], hfound, ?_, rfl, rfl, rfl, rfl, ⟨hloop, rfl⟩, rfl, rfl⟩
    rw [hheadline]
    simp only [Headline.opening, openStatement, hexpr, List.isEmpty_nil, if_true]
    rfl
  | statement hfound hheadline hloop hexpr hread =>
    rename_i found keyword expr condition
    refine ⟨found,
      .statement (statementLine s.delimiters (keyword ++ [' '] ++ condition)) keyword [],
      .statement line.indent keyword [], hfound, ?_, rfl, rfl, rfl, rfl, ⟨hloop, rfl⟩, rfl, rfl⟩
    rw [hheadline]
    have hne : expr.trim.isEmpty = false := by simpa using hexpr
    simp only [Headline.opening, openStatement, hne]
    exact Scan.bind_eq_ok_iff.2 ⟨_, cur, hread, rfl⟩

namespace Outline

variable {p : Profile} {s : Setting}

/-! ## The walk through the lines -/

/-- The open lines of a stack of blocks. -/
def openLines (d : Delimiters) (stack : List Frame) : List (Nat × Text) :=
  stack.map fun frame => (frame.level, frame.closing d)

/-- Without a line at hand the next one is pulled. -/
theorem steps_pull {stack : List Frame} (hstack : ∀ frame ∈ stack, frame.Pulls) {line : Line}
    (hbody : line.body = []) (raw : Text) (rest : List Text) (n : Nat) :
    Steps p.recognise s ⟨stack ++ [.document], line, false, ⟨raw :: rest, n⟩⟩ []
      ⟨stack ++ [.document], .ofRaw raw, false, ⟨rest, n + 1⟩⟩ := by
  cases stack with
  | nil => exact .pull trivial hbody rfl
  | cons frame stack => exact .pull (hstack frame List.mem_cons_self) hbody rfl

/-- At the end of the template all blocks are closed. -/
theorem moves_finish {stack : List Frame} (hstack : ∀ frame ∈ stack, frame.Pulls) (line : Line)
    (hbody : line.body = []) (n : Nat) :
    Moves p.recognise s ⟨stack ++ [.document], line, false, ⟨[], n⟩⟩
      ((stack.map (Frame.closing s.delimiters)).flatten) ⟨[], .none, false, ⟨[], n⟩⟩ := by
  induction stack generalizing line with
  | nil => exact .single (.finish trivial hbody rfl)
  | cons frame stack ih =>
    refine .step (.finish (hstack frame List.mem_cons_self) hbody rfl) (ih ?_ _ rfl)
    exact fun f hf => hstack f (List.mem_cons_of_mem frame hf)

/-- A line closes the innermost blocks as long as they hand it on. -/
theorem moves_closeWhile {stack : List Frame} {line : Line} (closes : Frame → Bool)
    (h : ∀ frame ∈ stack, closes frame = true → frame.HandsOn line) (cur : Cursor) :
    Moves p.recognise s ⟨stack ++ [.document], line, false, cur⟩
      (((stack.takeWhile closes).map (Frame.closing s.delimiters)).flatten)
      ⟨stack.dropWhile closes ++ [.document], line, false, cur⟩ := by
  induction stack with
  | nil => exact .refl _
  | cons frame stack ih =>
    by_cases hcloses : closes frame = true
    · rw [List.takeWhile_cons_of_pos hcloses, List.dropWhile_cons_of_pos hcloses]
      refine .step (.handOn (h frame List.mem_cons_self hcloses)) (ih ?_)
      exact fun f hf => h f (List.mem_cons_of_mem frame hf)
    · rw [List.takeWhile_cons_of_neg hcloses, List.dropWhile_cons_of_neg hcloses]
      exact .refl _

/-- A line closes the blocks that it is not deeper than. -/
theorem moves_close {stack : List Frame} (hstack : ∀ frame ∈ stack, frame.Holds) {line : Line}
    (hbody : line.body ≠ []) (cur : Cursor) :
    Moves p.recognise s ⟨stack ++ [.document], line, false, cur⟩
      (((stack.takeWhile (line.indent ≤ ·.level)).map (Frame.closing s.delimiters)).flatten)
      ⟨stack.dropWhile (line.indent ≤ ·.level) ++ [.document], line, false, cur⟩ :=
  moves_closeWhile _ (fun frame hf hle => (hstack frame hf).handsOn hbody (by simpa using hle)) cur

/-- A line that is announced to the innermost block opens one of its own. -/
theorem moves_openBlock {stack : List Frame} {line : Line} (hbody : line.body ≠ [])
    (hhead : ∀ frame ∈ stack.head?, frame.Announces line line.indent) {cur : Cursor}
    {found : Recognition} {opening : Opening} {frame : Frame}
    (hfound : p.recognise line.body = some found)
    (hopen : found.headline.opening s line.indent line.body cur = (.ok opening, cur))
    (hframes : opening.frames line.indent = [frame])
    (hline : opening.line line.indent = ⟨line.indent, []⟩) (hquiet : opening.announces = false) :
    Moves p.recognise s ⟨stack ++ [.document], line, false, cur⟩ opening.written
      ⟨frame :: stack ++ [.document], ⟨line.indent, []⟩, false, cur⟩ := by
  have hlook : Steps p.recognise s ⟨stack ++ [.document], line, true, cur⟩ _ _ := .look hfound hopen
  rw [hframes, hline, hquiet] at hlook
  have hannounce : Steps p.recognise s ⟨stack ++ [.document], line, false, cur⟩ []
      ⟨stack ++ [.document], line, true, cur⟩ := by
    cases stack with
    | nil => exact .announce (.document hbody)
    | cons top stack => exact .announce (hhead top rfl)
  exact .step hannounce (.single hlook)

/-- A line that only holds other lines is announced to the block that it is deeper than, and opens a
block of its own. -/
theorem moves_open {stack : List Frame} (hstack : ∀ frame ∈ stack, frame.Holds) {line : Line}
    (hbody : line.body ≠ []) (hdeep : ∀ frame ∈ stack.head?, frame.level < line.indent)
    {cur : Cursor} {opened closed : Text} (h : Container p s line cur opened closed) :
    ∃ frame : Frame, frame.Holds ∧ frame.level = line.indent ∧
      frame.closing s.delimiters = closed ∧
      Moves p.recognise s ⟨stack ++ [.document], line, false, cur⟩ opened
        ⟨frame :: stack ++ [.document], ⟨line.indent, []⟩, false, cur⟩ := by
  obtain ⟨found, opening, frame, hfound, hopen, hwritten, hframes, hline, hquiet, hholds, hlevel,
    hclosed⟩ := h.opens
  refine ⟨frame, hholds, hlevel, hclosed, ?_⟩
  rw [← hwritten]
  refine moves_openBlock hbody (fun top htop => ?_) hfound hopen hframes hline hquiet
  exact (hstack top (List.mem_of_mem_head? htop)).announces hbody (hdeep top htop)

/-- The open lines that a line closes are those of the blocks that it closes. -/
theorem openLines_takeWhile (d : Delimiters) (stack : List Frame) (indent : Nat) :
    ((openLines d stack).takeWhile fun (level, _) => indent ≤ level) =
      openLines d (stack.takeWhile (indent ≤ ·.level)) := by
  unfold openLines
  rw [List.takeWhile_map]
  rfl

/-- The open lines that stay are those of the blocks that stay open. -/
theorem openLines_dropWhile (d : Delimiters) (stack : List Frame) (indent : Nat) :
    ((openLines d stack).dropWhile fun (level, _) => indent ≤ level) =
      openLines d (stack.dropWhile (indent ≤ ·.level)) := by
  unfold openLines
  rw [List.dropWhile_map]
  rfl

/-- The open lines end as their blocks do. -/
theorem closings_openLines (d : Delimiters) (stack : List Frame) :
    (openLines d stack).map Prod.snd = stack.map (Frame.closing d) := by
  unfold openLines
  rw [List.map_map]
  rfl

/-- With a stack of open lines, the compiler goes through the lines to come as `Node.resume` does.
-/
theorem moves_containers (hp : p.IsStandard) {cur : Cursor} {nodes : List Node}
    (h : Containers p s cur nodes) {stack : List Frame} (hstack : ∀ frame ∈ stack, frame.Holds)
    (indent : Nat) :
    ∃ n, Moves p.recognise s ⟨stack ++ [.document], ⟨indent, []⟩, false, cur⟩
      (Node.resume (openLines s.delimiters stack) nodes) ⟨[], .none, false, ⟨[], n⟩⟩ := by
  induction h generalizing stack indent with
  | done =>
    rename_i n
    refine ⟨n, ?_⟩
    rw [Node.resume, closings_openLines]
    exact moves_finish (fun frame hf => (hstack frame hf).pulls) _ rfl n
  | blank hblank hrest ih =>
    rename_i raw rest n nodes
    obtain ⟨m, hm⟩ := ih hstack (Line.ofRaw raw).indent
    have hraw : (⟨(Line.ofRaw raw).indent, []⟩ : Line) = .ofRaw raw := by rw [← hblank]
    rw [hraw] at hm
    exact ⟨m, .step (steps_pull (fun frame hf => (hstack frame hf).pulls) rfl raw rest n) hm⟩
  | line hline hrest ih =>
    rename_i raw rest n opened closed nodes
    have hbody : (Line.ofRaw raw).body ≠ [] := by
      obtain ⟨found, -, -, hfound, -⟩ := hline.opens
      exact (Profile.headline_seen hp hfound).1
    -- The line is pulled, closes blocks, opens its own, and the walk goes on below that.
    let kept := stack.dropWhile ((Line.ofRaw raw).indent ≤ ·.level)
    have hkept : ∀ frame ∈ kept, frame.Holds :=
      fun frame hf => hstack frame ((List.dropWhile_sublist _).subset hf)
    have hdeep : ∀ frame ∈ kept.head?, frame.level < (Line.ofRaw raw).indent := by
      intro frame hf
      have hhead := List.head?_dropWhile_not (fun frame : Frame =>
        decide ((Line.ofRaw raw).indent ≤ frame.level)) stack
      rw [Option.mem_def.1 hf] at hhead
      simpa using hhead
    obtain ⟨frame, hholds, hlevel, hclosed, hopen⟩ := moves_open hkept hbody hdeep hline
    have hopened : ∀ f ∈ frame :: kept, f.Holds := by
      intro f hf
      rcases List.mem_cons.1 hf with rfl | hf
      · exact hholds
      · exact hkept f hf
    obtain ⟨m, hm⟩ := ih hopened (Line.ofRaw raw).indent
    refine ⟨m, ?_⟩
    have hpull : Steps p.recognise s
        ⟨stack ++ [.document], ⟨indent, []⟩, false, ⟨raw :: rest, n⟩⟩ []
        ⟨stack ++ [.document], .ofRaw raw, false, ⟨rest, n + 1⟩⟩ :=
      steps_pull (fun frame hf => (hstack frame hf).pulls) rfl raw rest n
    have hmoves := Moves.step hpull ((moves_close hstack hbody _).trans (hopen.trans hm))
    rw [Node.resume, openLines_takeWhile, openLines_dropWhile, closings_openLines]
    rwa [openLines, List.map_cons, hlevel, hclosed, List.nil_append, ← List.append_assoc] at hmoves

end Outline

/-! ## The offside rule -/

/-- A template all of whose lines are blank or only hold other lines compiles to the forest in which
the parent of a line is the nearest line before it that is less indented. -/
theorem Profile.compile_containers (p : Profile) (hp : p.rules.Sublist Rule.standard) (depth : Nat)
    (source : Text) (nodes : List Node)
    (h : Containers p (p.setting (p.compileEmbedded depth depth)) (.ofText source) nodes) :
    p.compile ⟨false, depth⟩ source = .ok (Node.render nodes) := by
  have hnone : ∀ frame ∈ ([] : List Frame), frame.Holds := fun frame hf => absurd hf (by simp)
  obtain ⟨n, hmoves⟩ := Outline.moves_containers hp h hnone 0
  rw [← Node.resume_eq_render]
  exact (Profile.compile_eq_ok_iff hp).2 ⟨.none, ⟨[], n⟩, hmoves⟩

/-- Lines at 0, 4, 2, 3 and 0, with a blank line between them: the second and the third are children
of the first, and the fourth is a child of the third. -/
theorem Profile.compile_irregular_dedents :
    (django id).rules.Sublist Rule.standard ∧
    ∃ nodes, Containers (django id) ((django id).setting ((django id).compileEmbedded 3 3))
        (.ofText "ul.a\n    <hr>\n\n  -for x in y\n   li t\nb".toList) nodes ∧
      nodes.map Node.indent = [0, 4, 2, 3, 0] ∧
      (List.range 5).map (Node.parent? nodes) = [none, some 0, some 0, some 2, none] ∧
      (django id).compile ⟨false, 3⟩ "ul.a\n    <hr>\n\n  -for x in y\n   li t\nb".toList =
        .ok (Node.render nodes) ∧
      Node.render nodes = ("<ul class=\"a\"><hr>\n\n\x7b% for x in y %\x7d\n<li>t</li>".toList ++
        "\n\x7b% endfor %\x7d\n</ul><b></b>".toList) := by
  have h : Containers (django id) ((django id).setting ((django id).compileEmbedded 3 3))
      (.ofText "ul.a\n    <hr>\n\n  -for x in y\n   li t\nb".toList)
      [⟨0, "<ul class=\"a\">".toList, "</ul>".toList⟩, ⟨4, "<hr>\n".toList, []⟩,
        ⟨2, statementLine .django ("for".toList ++ [' '] ++ "x in y".toList),
          statementEndLine .django "for".toList⟩,
        ⟨3, "<li>t".toList, "</li>".toList⟩, ⟨0, "<b>".toList, "</b>".toList⟩] := by
    refine .line
      (.element (e := ⟨_, _, "ul".toList, "class=\"a\"".toList, [], []⟩) rfl rfl ?_ rfl) ?_
    · decide +kernel
    refine .line (.html rfl rfl) (.blank rfl (.line (.statement rfl rfl ?_ ?_ ?_) ?_))
    · decide
    · decide
    · decide +kernel
    refine .line (.element (e := ⟨_, _, "li".toList, [], "t".toList, []⟩) rfl rfl ?_ rfl) ?_
    · decide +kernel
    refine .line (.element (e := ⟨_, _, "b".toList, [], [], []⟩) rfl rfl ?_ rfl) .done
    decide +kernel
  exact ⟨django_isStandard, _, h, rfl, by decide, compile_containers _ django_isStandard 3 _ _ h,
    by decide +kernel⟩

end TerseMarkup
