import TerseMarkup.Proofs.Moves
import TerseMarkup.Proofs.Settling

/-!
# Templates in pieces

Two templates can be compiled one by one, and the results put together, if the first ends with a
line feed and none of its lines with a backslash, and the second starts at the margin.

The argument runs the compiler on both pieces at once, beside a run on the first alone.

* As long as the first piece lasts, the two runs make the same moves (`Outline.Steps.extends`).
* Where it ends, the short run closes all open blocks (`Outline.Moves.eq_closings`). The long run
  comes to the first line of the second piece, and this line closes the same blocks
  (`Outline.moves_settled`): it stands at the margin, and it is no clause, since it is recognised
  where the second piece is compiled alone.
* From there on the long run makes the moves of a run on the second piece, at other line numbers.
-/

namespace TerseMarkup

/-! ## The lines of two pieces -/

/-- A text that ends with a line feed shares no line with what follows it. -/
theorem Text.lines_append {t : Text} (ht : t = [] ∨ t.getLast? = some '\n') (u : Text) :
    Text.lines (t ++ u) = t.lines ++ u.lines := by
  induction t with
  | nil => rfl
  | cons c t ih =>
    have hlast : (c :: t).getLast? = some '\n' := ht.resolve_left (List.cons_ne_nil c t)
    have hrest : t = [] ∨ t.getLast? = some '\n' := by
      cases t with
      | nil => exact .inl rfl
      | cons b t => exact .inr hlast
    rw [List.cons_append]
    by_cases hc : c = '\n'
    · simp only [Text.lines, if_pos hc, ih hrest, List.cons_append]
    · simp only [Text.lines, if_neg hc, ih hrest]
      cases hl : Text.lines t with
      | nil =>
        have hnil : t = [] := by
          rw [← Text.flatten_lines t, hl]
          rfl
        subst hnil
        cases hlast
        exact absurd rfl hc
      | cons line rest => rfl

/-- The first line of a text ends with the first line feed. -/
theorem Text.lines_append_feed {x : Text} (hx : '\n' ∉ x) (u : Text) :
    Text.lines (x ++ ['\n'] ++ u) = (x ++ ['\n']) :: u.lines := by
  induction x with
  | nil => rfl
  | cons c x ih =>
    simp only [List.mem_cons, not_or] at hx
    simp only [List.cons_append, Text.lines, if_neg (Ne.symm hx.1), ih hx.2]

/-- A text without line feeds is one line. -/
theorem Text.lines_of_not_mem {x : Text} (hx : '\n' ∉ x) (hne : x ≠ []) :
    x.lines = [x] := by
  induction x with
  | nil => exact absurd rfl hne
  | cons c x ih =>
    simp only [List.mem_cons, not_or] at hx
    cases x with
    | nil => simp [Text.lines, Ne.symm hx.1]
    | cons b x =>
      rw [Text.lines, if_neg (Ne.symm hx.1), ih hx.2 (by simp)]

/-- A text has a first line, unless it is empty. -/
theorem Text.exists_lines_cons {t : Text} (hne : t ≠ []) :
    ∃ line more, t.lines = line :: more := by
  cases h : t.lines with
  | nil =>
    have hflat := Text.flatten_lines t
    rw [h] at hflat
    exact absurd hflat.symm hne
  | cons line more => exact ⟨line, more, rfl⟩

/-- What has no line feed is put in front of the first line. -/
theorem Text.lines_append_left {x y line : Text} {more : List Text} (hx : '\n' ∉ x)
    (h : y.lines = line :: more) : Text.lines (x ++ y) = (x ++ line) :: more := by
  induction x with
  | nil => exact h
  | cons c x ih =>
    simp only [List.mem_cons, not_or] at hx
    simp only [List.cons_append, Text.lines, if_neg (Ne.symm hx.1), ih hx.2]

/-! ## The line that settles -/

namespace Line.Settled

variable {lines : List Text} {next next' : Line} {cur cur' : Cursor}

/-- If no line settles, there is none to come. -/
theorem ahead_eq_nil (h : next.Settled lines cur) (hbody : next.body = []) : cur.ahead = [] := by
  induction h with
  | ended _ n => rfl
  | stop rest hne n => exact absurd hbody hne
  | blank _ _ ih => exact ih hbody

/-- Where no line settles, any empty line will do. -/
theorem of_empty (h : next.Settled lines cur) (hbody : next.body = []) (hbody' : next'.body = []) :
    next'.Settled lines cur := by
  induction h with
  | ended _ n => exact .ended hbody' n
  | stop rest hne n => exact absurd hbody hne
  | blank hblank _ ih => exact .blank hblank (ih hbody)

/-- A line that settles is the first that is not blank. -/
theorem exists_find? (h : next.Settled lines cur) (hbody : next.body ≠ []) :
    ∃ raw, lines.find? (fun raw => (Line.ofRaw raw).body ≠ []) = some raw ∧ next = .ofRaw raw := by
  induction h with
  | ended hnil n => exact absurd hnil hbody
  | @stop raw rest hne n => exact ⟨raw, by simp [hne], rfl⟩
  | @blank raw rest next cur hblank _ ih =>
    obtain ⟨found, hfound, heq⟩ := ih hbody
    refine ⟨found, ?_, heq⟩
    rw [List.find?_cons_of_neg (by simp [hblank])]
    exact hfound

/-- The line that settles is determined by the lines. -/
theorem eq_or_ended (h : next.Settled lines cur) (h' : next'.Settled lines cur') :
    next = next' ∧ cur.ahead = cur'.ahead ∨ next.body = [] ∧ next'.body = [] := by
  induction h with
  | ended hbody n =>
    cases h' with
    | ended hbody' m => exact .inr ⟨hbody, hbody'⟩
  | stop rest hbody n =>
    cases h' with
    | stop rest' hbody' m => exact .inl ⟨rfl, rfl⟩
    | blank hblank h' => exact absurd hblank hbody
  | blank hblank _ ih =>
    cases h' with
    | stop rest' hbody' m => exact absurd hblank hbody'
    | blank hblank' h' => exact ih h'

end Line.Settled

/-! ## Closing all blocks -/

/-- A line at the margin that is no clause closes every block but the template. -/
theorem Frame.handsOn_margin {frame : Frame} {line : Line} (hframe : frame ≠ .document)
    (hbody : line.body ≠ []) (hindent : line.indent = 0)
    (hclause : ∀ keyword taken, Clause.next? keyword taken line.body = none) :
    frame.HandsOn line := by
  cases frame with
  | document => exact absurd rfl hframe
  | block level close => exact .block hbody (hindent ▸ Nat.zero_le level)
  | inline level close => exact .inline (.inr (hindent ▸ Nat.zero_le level))
  | statement level keyword taken =>
    by_cases hlevel : level = line.indent
    · subst hlevel
      exact .noClause hbody (hclause keyword taken)
    · exact .dedent hbody (by omega)

namespace Outline

variable {p : Profile} {o o' last : Outline} {w : Text} {extra : List Text} {cur curₑ : Cursor}
  {inner : List Frame}

/-- What the open blocks write at their ends. -/
def closings (d : Delimiters) (stack : List Frame) : Text :=
  (stack.map (Frame.closing d)).flatten

section

variable (recognise : Text → Option Recognition) (s : Setting)

/-- A block that has no line at hand goes on to the line that settles. -/
theorem moves_settle {frame : Frame} (hpull : frame.Pulls) (outer : List Frame) {line : Line}
    (hbody : line.body = []) (lines : List Text) (n : Nat) :
    ∃ next cur, next.Settled lines cur ∧
      Moves recognise s ⟨frame :: outer, line, false, ⟨lines, n⟩⟩ []
        ⟨frame :: outer, next, false, cur⟩ := by
  induction lines generalizing line n with
  | nil => exact ⟨line, ⟨[], n⟩, .ended hbody n, .refl _⟩
  | cons raw lines ih =>
    have hstep : Steps recognise s ⟨frame :: outer, line, false, ⟨raw :: lines, n⟩⟩ []
        ⟨frame :: outer, .ofRaw raw, false, ⟨lines, n + 1⟩⟩ := .pull hpull hbody rfl
    by_cases hblank : (Line.ofRaw raw).body = []
    · obtain ⟨next, cur, hs, hm⟩ := ih hblank (n + 1)
      exact ⟨next, cur, .blank hblank hs, .step hstep hm⟩
    · exact ⟨.ofRaw raw, ⟨lines, n + 1⟩, .stop lines hblank (n + 1), .single hstep⟩

/-- The line that settles closes all blocks but the template. -/
theorem moves_settled (hfresh : FreshLines extra) (hinner : .document ∉ inner) {next : Line}
    (hs : next.Settled extra cur) :
    ∃ next', Line.Settled extra next' cur ∧
      Moves recognise s ⟨inner ++ [.document], next, false, cur⟩ (closings s.delimiters inner)
        ⟨[.document], next', false, cur⟩ := by
  induction inner generalizing next with
  | nil => exact ⟨next, hs, .refl _⟩
  | cons frame inner ih =>
    have hframe : frame ≠ .document := fun heq => hinner (heq ▸ List.mem_cons_self)
    have hrest : .document ∉ inner := fun hmem => hinner (List.mem_cons_of_mem frame hmem)
    by_cases hbody : next.body = []
    · -- the lines have ended
      have hnext : cur.next? = none := Cursor.next?_eq_none_iff.2 (hs.ahead_eq_nil hbody)
      cases frame with
      | inline level close =>
        obtain ⟨next', hs', hm⟩ := ih hrest hs
        exact ⟨next', hs', .step (.handOn (.inline (.inl hbody))) hm⟩
      | document | block | statement =>
        have hnone : Line.none.Settled extra cur := hs.of_empty hbody rfl
        obtain ⟨next', hs', hm⟩ := ih hrest hnone
        exact ⟨next', hs', .step (.finish trivial hbody hnext) hm⟩
    · obtain ⟨hindent, hclause⟩ := hfresh next cur hs hbody
      obtain ⟨next', hs', hm⟩ := ih hrest hs
      exact ⟨next', hs', .step (.handOn (Frame.handsOn_margin hframe hbody hindent hclause)) hm⟩

/-- Blocks that have no line at hand come to the line that settles, and are all closed by it. -/
theorem moves_closings (hfresh : FreshLines extra) (hinner : .document ∉ inner) {line : Line}
    (hbody : line.body = []) (n : Nat) :
    ∃ next cur, Line.Settled extra next cur ∧
      Moves recognise s ⟨inner ++ [.document], line, false, ⟨extra, n⟩⟩
        (closings s.delimiters inner) ⟨[.document], next, false, cur⟩ := by
  induction inner generalizing line with
  | nil =>
    have hpull : Frame.document.Pulls := trivial
    exact moves_settle recognise s hpull [] hbody extra n
  | cons frame inner ih =>
    -- The rest of a headline closes at once; any other block first looks for a line.
    by_cases hpull : frame.Pulls
    · obtain ⟨next, cur, hs, hm⟩ :=
        moves_settle recognise s hpull (inner ++ [.document]) hbody extra n
      obtain ⟨next', hs', hm'⟩ := moves_settled recognise s hfresh hinner hs
      exact ⟨next', cur, hs', hm.trans hm'⟩
    · cases frame with
      | document | block | statement => exact absurd trivial hpull
      | inline level close =>
        have hrest : .document ∉ inner := fun hmem => hinner (List.mem_cons_of_mem _ hmem)
        obtain ⟨next, cur, hs, hm⟩ := ih hrest hbody
        exact ⟨next, cur, hs, .step (.handOn (.inline (.inl hbody))) hm⟩

/-- At the end of the lines, the template itself is closed. -/
theorem moves_finish_document {line : Line} (hbody : line.body = []) (hahead : cur.ahead = []) :
    Moves recognise s ⟨[.document], line, false, cur⟩ [] ⟨[], .none, false, cur⟩ :=
  .single (.finish trivial hbody (Cursor.next?_eq_none_iff.2 hahead))

end

/-! ## The first piece -/

variable {recognise : Text → Option Recognition} {s : Setting}

/-- The outline has no line at hand and none to come. -/
structure Exhausted (o : Outline) : Prop where
  announced : o.announced = false
  body : o.line.body = []
  ahead : o.cursor.ahead = []

/-- The template itself is open, below all other open blocks. -/
def Rooted (stack : List Frame) : Prop :=
  ∃ inner, stack = inner ++ [.document] ∧ .document ∉ inner

/-- Blocks on top of the template leave it at the bottom. -/
theorem Rooted.append {frames stack : List Frame} (hframes : .document ∉ frames)
    (h : Rooted stack) : Rooted (frames ++ stack) := by
  obtain ⟨inner, rfl, hinner⟩ := h
  refine ⟨frames ++ inner, (List.append_assoc _ _ _).symm, fun hmem => ?_⟩
  exact (List.mem_append.1 hmem).elim hframes hinner

/-- Without a block on top of it, the template is still at the bottom. -/
theorem Rooted.of_cons {frame : Frame} {stack : List Frame} (hframe : frame ≠ .document)
    (h : Rooted (frame :: stack)) : Rooted stack := by
  obtain ⟨inner, heq, hinner⟩ := h
  cases inner with
  | nil =>
    cases heq
    exact absurd rfl hframe
  | cons frame' inner =>
    cases heq
    exact ⟨inner, rfl, fun hmem => hinner (List.mem_cons_of_mem _ hmem)⟩

/-- A statement does not open the template itself. -/
theorem document_not_mem_statementFrames (level : Nat) (keyword : Text) (taken : List Clause)
    (rest : Text) : .document ∉ Opening.statementFrames level keyword taken rest := by
  cases rest <;> simp [Opening.statementFrames]

/-- Nor does any other opening. -/
theorem document_not_mem_frames (level : Nat) (opening : Opening) :
    .document ∉ opening.frames level := by
  cases opening with
  | leaf written next => exact List.not_mem_nil
  | block written close => simp [Opening.frames]
  | inline written close rest => simp [Opening.frames]
  | statement written keyword rest => exact document_not_mem_statementFrames level keyword [] rest

/-- Only an exhausted outline closes the template. -/
theorem Steps.rooted (h : Steps recognise s o w o') (ho : ¬ o.Exhausted) (hroot : Rooted o.stack) :
    Rooted o'.stack := by
  cases h with
  | look hfound hopen => exact hroot.append (document_not_mem_frames _ _)
  | announce h => exact hroot
  | handOn h =>
    apply hroot.of_cons
    rintro rfl
    cases h
  | finish hpull hbody hnext => exact absurd ⟨rfl, hbody, Cursor.next?_eq_none_iff.1 hnext⟩ ho
  | pull hpull hbody hnext => exact hroot
  | clause hbody hnext hread =>
    apply Rooted.append (document_not_mem_statementFrames _ _ _ _)
    exact hroot.of_cons (by simp)

/-- What is written up to the stop of an exhausted outline: its blocks are closed. -/
theorem Moves.eq_closings {line : Line} (h : Moves recognise s o w ⟨[], line, false, cur⟩)
    (ho : o.Exhausted) (hstack : o.stack = inner ++ [.document]) (hinner : .document ∉ inner) :
    w = closings s.delimiters inner := by
  obtain ⟨stack, line', announced, cur'⟩ := o
  obtain ⟨hannounced, hbody, hahead⟩ := ho
  obtain ⟨ahead, n⟩ := cur'
  cases hannounced
  cases hahead
  cases hstack
  obtain ⟨next, hs, hm⟩ := moves_settled recognise s freshLines_nil hinner (.ended hbody n)
  have hempty : next.body = [] := by
    cases hs with
    | ended hempty => exact hempty
  obtain ⟨more, rfl, hmore⟩ := h.passes (hm.trans (moves_finish_document recognise s hempty rfl))
  rw [hmore.eq_nil, List.append_nil, List.append_nil]

/-- Where the first piece ends, its blocks are closed with the second piece added as well. -/
theorem Exhausted.moves_closings (hfresh : FreshLines extra) (ho : o.Exhausted)
    (hstack : o.stack = inner ++ [.document]) (hinner : .document ∉ inner)
    (he : o.cursor.Extends extra curₑ) :
    ∃ next curₑ', Line.Settled extra next curₑ' ∧
      Moves recognise s { o with cursor := curₑ } (closings s.delimiters inner)
        ⟨[.document], next, false, curₑ'⟩ := by
  obtain ⟨stack, line, announced, cur⟩ := o
  obtain ⟨ahead, n⟩ := curₑ
  obtain ⟨hannounced, hbody, hahead⟩ := ho
  have hextra : ahead = extra := by
    have hahead' := he.ahead
    rw [hahead] at hahead'
    exact hahead'
  cases hannounced
  cases hstack
  subst hextra
  exact Outline.moves_closings recognise s hfresh hinner hbody n

/-- As long as the first piece lasts, a move can be made with the second piece added. A block of raw
lines may come to the end of the first piece; then it goes on to the line that settles. -/
theorem Steps.extends (hp : p.IsStandard) (hfresh : FreshLines extra)
    (h : Steps p.recognise s o w o') (ho : ¬ o.Exhausted) (he : o.cursor.Extends extra curₑ)
    (hfit : o.line.body.FitFor extra) :
    (∃ curₑ', o'.cursor.Extends extra curₑ' ∧ o'.line.body.FitFor extra ∧
        Steps p.recognise s { o with cursor := curₑ } w { o' with cursor := curₑ' }) ∨
      o'.Exhausted ∧ o'.stack = o.stack ∧ ∃ next curₑ', Line.Settled extra next curₑ' ∧
        Steps p.recognise s { o with cursor := curₑ } w ⟨o.stack, next, false, curₑ'⟩ := by
  cases h with
  | @look stack line cur cur' found opening hfound hopen =>
    obtain ⟨-, hseen⟩ := Profile.headline_seen hp hfound
    rcases Headline.settles_opening hfresh s line.indent hseen hfit cur curₑ he with
      hcarries | ⟨written, cur₁, next, curₑ', hr, hnil, hrₑ, hs⟩
    · left
      obtain ⟨curₑ', he', hopenₑ⟩ := hcarries opening cur' hopen
      exact ⟨curₑ', he', Headline.fit_of_opening hseen hfit he hopen, .look hfound hopenₑ⟩
    · right
      cases hopen.symm.trans hr
      exact ⟨⟨rfl, rfl, hnil⟩, rfl, next, curₑ', hs, .look hfound hrₑ⟩
  | announce h => exact .inl ⟨curₑ, he, hfit, .announce h⟩
  | handOn h => exact .inl ⟨curₑ, he, hfit, .handOn h⟩
  | finish hpull hbody hnext => exact absurd ⟨rfl, hbody, Cursor.next?_eq_none_iff.1 hnext⟩ ho
  | pull hpull hbody hnext =>
    obtain ⟨hraw, curₑ', hnextₑ, he'⟩ := he.of_next? hnext
    exact .inl ⟨curₑ', he', hraw.imp_right Text.Tidy.ofRaw, .pull hpull hbody hnextₑ⟩
  | clause hbody hnext hread =>
    have ht := Clause.fit_of_next? hfit hnext
    obtain ⟨curₑ', he', hreadₑ⟩ := Clause.carries_read s.delimiters _ ht _ curₑ he _ _ hread
    exact .inl ⟨curₑ', he', Clause.fit_of_read ht he hread, .clause hbody hnext hreadₑ⟩

/-- A run on the first piece can be made with the second piece added, up to the line that settles.
All blocks of the first piece are closed there. -/
theorem Moves.extends (hp : p.IsStandard) (hfresh : FreshLines extra) {line : Line}
    (h : Moves p.recognise s o w ⟨[], line, false, cur⟩) (hroot : Rooted o.stack)
    (he : o.cursor.Extends extra curₑ) (hfit : o.line.body.FitFor extra) :
    ∃ next curₑ', Line.Settled extra next curₑ' ∧
      Moves p.recognise s { o with cursor := curₑ } w ⟨[.document], next, false, curₑ'⟩ := by
  generalize hlast : (⟨[], line, false, cur⟩ : Outline) = last at h
  induction h generalizing curₑ with
  | refl o =>
    obtain ⟨inner, heq, -⟩ := hroot
    rw [← hlast] at heq
    cases inner <;> cases heq
  | @step o o' o'' w w' hs hm ih =>
    -- The first piece has ended here, or with this move, or it lasts.
    by_cases ho : o.Exhausted
    · obtain ⟨inner, hstack, hinner⟩ := hroot
      subst hlast
      rw [(Moves.step hs hm).eq_closings ho hstack hinner]
      exact ho.moves_closings hfresh hstack hinner he
    · have hroot' := hs.rooted ho hroot
      rcases hs.extends hp hfresh ho he hfit with
        ⟨curₑ', he', hfit', hsₑ⟩ | ⟨ho', hstack, next, curₑ', hsettled, hsₑ⟩
      · obtain ⟨next, curₑ'', hsettled, hmₑ⟩ := ih hroot' he' hfit' hlast
        exact ⟨next, curₑ'', hsettled, .step hsₑ hmₑ⟩
      · obtain ⟨inner, heq, hinner⟩ := hroot'
        subst hlast
        rw [hm.eq_closings ho' heq hinner]
        obtain ⟨next', hsettled', hmₑ⟩ := moves_settled p.recognise s hfresh hinner hsettled
        rw [← heq, hstack] at hmₑ
        exact ⟨next', curₑ', hsettled', .step hsₑ hmₑ⟩

/-! ## The second piece -/

/-- A line that the template takes is recognised, if the run succeeds. -/
theorem recognise_of_moves {line last : Line}
    (h : Moves recognise s ⟨[.document], line, false, cur⟩ w ⟨[], last, false, curₑ⟩)
    (hbody : line.body ≠ []) : ∃ found, recognise line.body = some found := by
  obtain ⟨more, -, hmore⟩ := h.passes (.single (.announce (.document hbody)))
  cases hmore with
  | step hs hm =>
    cases hs with
    | look hfound hopen => exact ⟨_, hfound⟩

/-- A run from the line that settles can be made at other line numbers. -/
theorem moves_resume (hp : p.IsStandard) {cur' : Cursor} {next next' line : Line}
    (hs : next.Settled extra cur) (hs' : next'.Settled extra cur')
    (h : Moves p.recognise s ⟨[.document], next, false, cur⟩ w ⟨[], line, false, curₑ⟩) :
    ∃ last curₗ,
      Moves p.recognise s ⟨[.document], next', false, cur'⟩ w ⟨[], last, false, curₗ⟩ := by
  rcases hs.eq_or_ended hs' with ⟨rfl, hahead⟩ | ⟨hbody, hbody'⟩
  · have he : cur.Extends [] cur' := by
      refine ⟨?_, fun _ _ => .inl rfl⟩
      rw [List.append_nil, hahead]
    obtain ⟨last, curₗ, hended, hm⟩ :=
      h.extends hp freshLines_nil ⟨[], rfl, List.not_mem_nil⟩ he (.inl rfl)
    cases hended with
    | ended hnil n =>
      have hfinish := hm.trans (moves_finish_document p.recognise s hnil rfl)
      rw [List.append_nil] at hfinish
      exact ⟨.none, ⟨[], n⟩, hfinish⟩
  · have hw := h.eq_closings ⟨rfl, hbody, hs.ahead_eq_nil hbody⟩ rfl List.not_mem_nil
    rw [hw]
    exact ⟨.none, cur', moves_finish_document p.recognise s hbody' (hs'.ahead_eq_nil hbody')⟩

end Outline

/-! ## Both pieces -/

/-- A template can be cut in front of a line at the margin: the pieces compile one by one. -/
theorem Profile.compile_append (p : Profile) (hp : p.rules.Sublist Rule.standard) (depth : Nat)
    (first second written written' : Text)
    (hend : first = [] ∨ first.getLast? = some '\n')
    (hbreak : ∀ raw ∈ first.lines, raw.trimEnd.getLast? ≠ some '\\')
    (hmargin : ∀ raw, second.lines.find? (fun raw => (Line.ofRaw raw).body ≠ []) = some raw →
      (Line.ofRaw raw).indent = 0)
    (hfirst : p.compile ⟨false, depth⟩ first = .ok written)
    (hsecond : p.compile ⟨false, depth⟩ second = .ok written') :
    p.compile ⟨false, depth⟩ (first ++ second) = .ok (written ++ written') := by
  obtain ⟨line, cur, hfirst⟩ := (Profile.compile_eq_ok_iff hp).1 hfirst
  obtain ⟨line', cur', hsecond⟩ := (Profile.compile_eq_ok_iff hp).1 hsecond
  -- The run on the second piece skips blank lines up to the line that settles.
  have hpull : Frame.document.Pulls := trivial
  obtain ⟨next, curₙ, hsettled, hskip⟩ := Outline.moves_settle p.recognise
    (p.setting (p.compileEmbedded depth depth)) hpull [] (rfl : Line.none.body = []) second.lines 0
  obtain ⟨rest, rfl, hrest⟩ := hsecond.passes hskip
  -- That line is recognised there, so it is no clause.
  have hfresh : FreshLines second.lines := by
    intro next' cur₁ hs hbody
    obtain ⟨raw, hraw, heq⟩ := hs.exists_find? hbody
    refine ⟨heq ▸ hmargin raw hraw, fun keyword taken => ?_⟩
    rcases hs.eq_or_ended hsettled with ⟨rfl, -⟩ | ⟨hnil, -⟩
    · obtain ⟨found, hfound⟩ := Outline.recognise_of_moves hrest hbody
      exact Profile.next?_eq_none_of_recognise hp hfound keyword taken
    · exact absurd hnil hbody
  have he : (Cursor.ofText first).Extends second.lines ⟨first.lines ++ second.lines, 0⟩ :=
    ⟨rfl, fun raw hr => .inr (Text.tidy_of_mem_lines hr (hbreak raw hr))⟩
  obtain ⟨next', curₑ, hsettled', hlong⟩ :=
    hfirst.extends hp hfresh ⟨[], rfl, List.not_mem_nil⟩ he (.inr Text.tidy_nil)
  obtain ⟨last, curₗ, hresume⟩ := Outline.moves_resume hp hsettled hsettled' hrest
  refine (Profile.compile_eq_ok_iff hp).2 ⟨last, curₗ, ?_⟩
  unfold Outline.ofDocument Cursor.ofText
  rw [Text.lines_append hend]
  exact hlong.trans hresume

/-- The first piece ends in a text inside an element inside a conditional, and two blank lines stand
in front of the loop that closes them all. -/
theorem Profile.compile_loop_after_conditional :
    "-if a\n  ul\n    | one\n\n      two\n".toList.getLast? = some '\n' ∧
    (∀ raw ∈ Text.lines "-if a\n  ul\n    | one\n\n      two\n".toList,
      raw.trimEnd.getLast? ≠ some '\\') ∧
    (Text.lines "\n  \n-for x in y: i t\nhr".toList).find? (fun raw => (Line.ofRaw raw).body ≠ []) =
      some "-for x in y: i t\n".toList ∧
    (mako id).compile ⟨false, 3⟩ "-if a\n  ul\n    | one\n\n      two\n".toList =
      .ok "\n%if a:\n<ul>one\n\ntwo</ul>\n%endif\n".toList ∧
    (mako id).compile ⟨false, 3⟩ "\n  \n-for x in y: i t\nhr".toList =
      .ok "\n%for x in y:\n<i>t</i>\n%endfor\n<hr/>".toList ∧
    (mako id).compile ⟨false, 3⟩
        ("-if a\n  ul\n    | one\n\n      two\n".toList ++ "\n  \n-for x in y: i t\nhr".toList) =
      .ok ("\n%if a:\n<ul>one\n\ntwo</ul>\n%endif\n".toList ++
        "\n%for x in y:\n<i>t</i>\n%endfor\n<hr/>".toList) := by
  have hbreak : ∀ raw ∈ Text.lines "-if a\n  ul\n    | one\n\n      two\n".toList,
      raw.trimEnd.getLast? ≠ some '\\' := by decide
  have hfind : (Text.lines "\n  \n-for x in y: i t\nhr".toList).find?
      (fun raw => (Line.ofRaw raw).body ≠ []) = some "-for x in y: i t\n".toList := by decide
  have hmargin (raw : Text) (h : (Text.lines "\n  \n-for x in y: i t\nhr".toList).find?
      (fun raw => (Line.ofRaw raw).body ≠ []) = some raw) : (Line.ofRaw raw).indent = 0 := by
    rw [hfind] at h
    cases h
    decide
  have hfirst : (mako id).compile ⟨false, 3⟩ "-if a\n  ul\n    | one\n\n      two\n".toList =
      .ok "\n%if a:\n<ul>one\n\ntwo</ul>\n%endif\n".toList := by decide +kernel
  have hsecond : (mako id).compile ⟨false, 3⟩ "\n  \n-for x in y: i t\nhr".toList =
      .ok "\n%for x in y:\n<i>t</i>\n%endfor\n<hr/>".toList := by decide +kernel
  exact ⟨rfl, hbreak, hfind, hfirst, hsecond, compile_append (mako id) mako_isStandard 3 _ _ _ _
    (.inr rfl) hbreak hmargin hfirst hsecond⟩

end TerseMarkup
