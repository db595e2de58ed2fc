import TerseMarkup.Proofs.Moves

/-!
# What a headline hands back

When a headline has been compiled with all that belongs to it, the line after it is handed back to
whoever asked for it. It is no deeper than the headline, and it is the last line pulled, so that no
line is lost and none is read twice. This is `Profile.headline_hands_back`, for every profile whose
table is part of the standard one.

The invariant is about the levels of the open blocks. A block or a statement pulls lines, so it can
cope with a line at any indentation. What stands on the rest of a line cannot, and nor can whoever
waits below the whole stack: what is handed to them must not be deeper than they are
(`Outline.Admits`). Every open block is admitted by the stack below it (`Outline.Nested`).
-/

namespace TerseMarkup

/-- The indentation of the headline that opened a block; the template has none. -/
def Frame.level? : Frame → Option Nat
  | document => none
  | block level _ | inline level _ | statement level _ _ => some level

namespace Outline

variable {p : Profile} {s : Setting} {base : Nat} {start : Cursor} {o o' : Outline} {w : Text}

/-! ## Levels of the open blocks -/

/-- A line at `indent` may be handed to `stack`, below which someone waits for a line that is no
deeper than `base`. -/
def Admits (base : Nat) (stack : List Frame) (indent : Nat) : Prop :=
  match stack with
  | [] => indent ≤ base
  | .inline level _ :: _ => indent ≤ level
  | _ => True

/-- Every open block is admitted by the blocks around it. -/
def Nested (base : Nat) : List Frame → Prop
  | [] => True
  | frame :: outer => (∀ level ∈ frame.level?, Admits base outer level) ∧ Nested base outer

/-- A line that is less deep is admitted too. -/
theorem Admits.mono {stack : List Frame} {i j : Nat} (h : Admits base stack j) (hij : i ≤ j) :
    Admits base stack i := by
  cases stack with
  | nil => exact Nat.le_trans hij h
  | cons frame outer =>
    cases frame with
    | inline level close => exact Nat.le_trans hij h
    | document | block | statement => trivial

/-- A line at the margin is always admitted. -/
theorem admits_zero (base : Nat) (stack : List Frame) : Admits base stack 0 := by
  cases stack with
  | nil => exact Nat.zero_le base
  | cons frame outer =>
    cases frame with
    | inline level close => exact Nat.zero_le level
    | document | block | statement => trivial

/-- A block that goes on with the next line admits any line. -/
theorem admits_of_pulls {frame : Frame} (h : frame.Pulls) (base : Nat) (outer : List Frame)
    (indent : Nat) : Admits base (frame :: outer) indent := by
  cases frame with
  | inline level close => exact h.elim
  | document | block | statement => trivial

/-- Whoever announces a line copes with it. -/
theorem admits_of_announces {frame : Frame} {line : Line} {level : Nat}
    (h : frame.Announces line level) (base : Nat) (outer : List Frame) :
    Admits base (frame :: outer) level := by
  cases h with
  | inline hbody hdeep => exact Nat.le_refl level
  | document | block | statement => trivial

/-- A line that is handed on is no deeper than the block that hands it on. -/
theorem admits_of_handsOn {frame : Frame} {line : Line} {outer : List Frame}
    (h : frame.HandsOn line) (hline : Admits base (frame :: outer) line.indent)
    (hnested : Nested base (frame :: outer)) : Admits base outer line.indent := by
  have hlevel := hnested.1
  cases h with
  | block hbody hdeep => exact (hlevel _ rfl).mono hdeep
  | inline hl => exact (hlevel _ rfl).mono hline
  | dedent hbody hdeep => exact (hlevel _ rfl).mono (Nat.le_of_lt hdeep)
  | noClause hbody hnext => exact hlevel _ rfl

/-- The blocks of a statement are in order on top of blocks that admit it. -/
theorem nested_statementFrames {level : Nat} {keyword : Text} {taken : List Clause} {rest : Text}
    {outer : List Frame} (hlevel : Admits base outer level) (hnested : Nested base outer) :
    Nested base (Opening.statementFrames level keyword taken rest ++ outer) ∧
      Admits base (Opening.statementFrames level keyword taken rest ++ outer) level := by
  have hframe : Nested base (.statement level keyword taken :: outer) := by
    refine ⟨fun l hl => ?_, hnested⟩
    cases hl
    exact hlevel
  cases rest with
  | nil => exact ⟨hframe, trivial⟩
  | cons c rest => exact ⟨⟨fun _ _ => trivial, hframe⟩, Nat.le_refl level⟩

/-- What a headline opens is nested in the blocks that are open, if they admit the headline. -/
theorem nested_opening {opening : Opening} {stack : List Frame} {line : Line} {cur cur' : Cursor}
    (hleft : opening.LeftOver line.indent line.body cur cur')
    (hline : Admits base stack line.indent) (hnested : Nested base stack) :
    Nested base (opening.frames line.indent ++ stack) ∧
      Admits base (opening.frames line.indent ++ stack) (opening.line line.indent).indent := by
  cases opening with
  | leaf written next => exact ⟨hnested, hline.mono hleft.1⟩
  | block written close =>
    refine ⟨⟨fun l hl => ?_, hnested⟩, trivial⟩
    cases hl
    exact hline
  | inline written close rest =>
    refine ⟨⟨fun l hl => ?_, hnested⟩, Nat.le_refl _⟩
    cases hl
    exact hline
  | statement written keyword rest => exact nested_statementFrames hline hnested

/-! ## The invariant -/

/-- What holds at every point of a compilation that started at the cursor `start`. -/
structure Orderly (base : Nat) (start : Cursor) (o : Outline) : Prop where
  /-- The cursor has not moved back. -/
  reaches : start.Reaches o.cursor
  /-- The open blocks are nested. -/
  nested : Nested base o.stack
  /-- They admit the line at hand. -/
  admits : Admits base o.stack o.line.indent
  /-- A line that is handed on is the last line pulled. -/
  pulled : o.announced = false → o.line.body ≠ [] →
    ∃ lines raw, start.Pulled (lines ++ [raw]) o.cursor ∧ o.line = .ofRaw raw

/-- What is left over when a headline has been read is announced, or was handed back. -/
theorem pulled_of_leftOver {opening : Opening} {level : Nat} {line : Text} {cur cur' : Cursor}
    (hleft : opening.LeftOver level line cur cur') (hreach : start.Reaches cur)
    (hquiet : opening.announces = false) (hne : (opening.line level).body ≠ []) :
    ∃ lines raw, start.Pulled (lines ++ [raw]) cur' ∧ opening.line level = .ofRaw raw := by
  cases opening with
  | leaf written next => exact (Line.HandedBack.of_reaches hreach hleft).2 hne
  | block written close => exact absurd rfl hne
  | inline written close rest => simp_all [Opening.announces, Opening.line]
  | statement written keyword rest => simp_all [Opening.announces, Opening.line]

/-- A move keeps the open blocks in order. -/
theorem Orderly.steps (hp : p.IsStandard) (h : Steps p.recognise s o w o')
    (ho : Orderly base start o) : Orderly base start o' := by
  obtain ⟨hreach, hnested, hadmits, hpulled⟩ := ho
  cases h with
  | look hfound hopen =>
    obtain ⟨-, hseen⟩ := Profile.headline_seen hp hfound
    have hleft := Headline.opening_leftOver hseen hopen
    obtain ⟨hnested', hadmits'⟩ := nested_opening hleft hadmits hnested
    exact ⟨hreach.trans ((Headline.forward_opening s _ hseen).reaches hopen), hnested', hadmits',
      pulled_of_leftOver hleft hreach⟩
  | announce h =>
    exact ⟨hreach, hnested, admits_of_announces h base _, fun hquiet => nomatch hquiet⟩
  | handOn h => exact ⟨hreach, hnested.2, admits_of_handsOn h hadmits hnested, hpulled⟩
  | finish hpull hbody hnext =>
    exact ⟨hreach, hnested.2, admits_zero base _, fun _ hne => absurd rfl hne⟩
  | pull hpull hbody hnext =>
    obtain ⟨lines, hlines⟩ := hreach
    have hraw := hlines.trans (Cursor.pulled_of_next? hnext)
    exact ⟨⟨_, hraw⟩, hnested, admits_of_pulls hpull base _ _, fun _ _ => ⟨lines, _, hraw, rfl⟩⟩
  | clause hbody hnext hread =>
    rename_i keyword taken outer line clause t rest cur cur'
    have hlevel : Admits base outer line.indent := hnested.1 _ rfl
    obtain ⟨hnested', hadmits'⟩ := nested_statementFrames hlevel hnested.2
    refine ⟨hreach.trans ((Clause.forward_read _ _ _).reaches hread), hnested', hadmits',
      fun hquiet hne => ?_⟩
    simp_all

/-- A headline starts in order. -/
theorem orderly_ofHeadline (level : Nat) (line : Text) (cur : Cursor) :
    Orderly level cur (ofHeadline level line cur) :=
  ⟨.refl cur, trivial, Nat.le_refl level, fun hquiet => nomatch hquiet⟩

/-- Moves keep the open blocks in order. -/
theorem Orderly.moves (hp : p.IsStandard) (h : Moves p.recognise s o w o')
    (ho : Orderly base start o) : Orderly base start o' :=
  h.invariant (fun hs => Orderly.steps hp hs) ho

end Outline

/-! ## The contract -/

/-- If a headline at `level` is compiled with all that belongs to it, the cursor has not moved back,
the line handed back is no deeper than `level`, and if there is one, it is the last line pulled. -/
theorem Profile.headline_hands_back (p : Profile) (hp : p.rules.Sublist Rule.standard)
    (embedded : Text → Except Diagnostic Text) (level : Nat) (line : Text) (cur cur' : Cursor)
    (passage : Passage)
    (h : (Outline.ofHeadline level line cur).run p.recognise (p.setting embedded) =
      (.ok passage, cur')) :
    ∃ pulled, cur.Pulled pulled cur' ∧ passage.next.indent ≤ level ∧
      (passage.next.body ≠ [] →
        ∃ raw, pulled.getLast? = some raw ∧ passage.next = Line.ofRaw raw) := by
  obtain ⟨written, last, result, cur'', hmoves, hstop, hrun⟩ :=
    Outline.exists_moves_of_run hp (p.setting embedded) (Outline.ofHeadline level line cur)
  rw [h] at hrun
  cases result with
  | error e => cases hrun
  | ok line' =>
    cases hrun
    have hlast := Outline.eq_of_step_eq_stop hstop
    subst hlast
    obtain ⟨⟨pulled, hpulled⟩, -, hindent, hlast⟩ :=
      (Outline.orderly_ofHeadline level line cur).moves hp hmoves
    by_cases hne : line'.body = []
    · exact ⟨pulled, hpulled, hindent, fun hbody => absurd hne hbody⟩
    · obtain ⟨lines, raw, hraw, heq⟩ := hlast rfl hne
      exact ⟨lines ++ [raw], hraw, hindent, fun _ => ⟨raw, by simp, heq⟩⟩

/-- A conditional on the rest of a line takes a deeper line and an alternative, and hands back the
fourth of the five lines below it. -/
theorem Profile.conditional_hands_back :
    ((mako id).dropRule "comment").rules.Sublist Rule.standard ∧
    (Outline.ofHeadline 2 "p: -if a".toList ⟨["    | deep\n", "  -else\n", "    | x\n", " b\n",
        "c\n"].map String.toList, 1⟩).run ((mako id).dropRule "comment").recognise
          (((mako id).dropRule "comment").setting .ok) =
      (.ok ⟨"<p>\n%if a:\ndeep\n%else:\nx\n%endif\n</p>".toList, ⟨1, ['b']⟩⟩,
        ⟨["c\n".toList], 5⟩) ∧
    ∃ pulled, Cursor.Pulled ⟨["    | deep\n", "  -else\n", "    | x\n", " b\n",
        "c\n"].map String.toList, 1⟩ pulled ⟨["c\n".toList], 5⟩ ∧ 1 ≤ 2 ∧
      (['b'] ≠ [] → ∃ raw, pulled.getLast? = some raw ∧ ⟨1, ['b']⟩ = Line.ofRaw raw) := by
  have hp : ((mako id).dropRule "comment").rules.Sublist Rule.standard := List.filter_sublist
  have hrun : (Outline.ofHeadline 2 "p: -if a".toList ⟨["    | deep\n", "  -else\n", "    | x\n",
      " b\n", "c\n"].map String.toList, 1⟩).run ((mako id).dropRule "comment").recognise
        (((mako id).dropRule "comment").setting .ok) =
      (.ok ⟨"<p>\n%if a:\ndeep\n%else:\nx\n%endif\n</p>".toList, ⟨1, ['b']⟩⟩,
        ⟨["c\n".toList], 5⟩) := by
    decide +kernel
  exact ⟨hp, hrun, headline_hands_back _ hp .ok 2 _ _ _ _ hrun⟩

end TerseMarkup
