import TerseMarkup.Compile
import TerseMarkup.Proofs.Headline

/-!
# Moves of an outline

`Outline.Steps` says what a single move can do, kind by kind, and `Outline.step_eq_go_iff` that
these are exactly the moves of `Outline.step`; `Outline.Fails` says the same of the moves that end
in a fault. `Outline.Moves` are sequences of such moves, with the text that they write.

* Every move under standard rules makes progress in lines and text, or stays in its place and has
  less pending there (`Outline.Steps.progress`).
* So the weight goes down with every move (`Outline.Steps.weight_lt`), and a run is a sequence of
  moves up to a stop, which is never cut short (`Outline.exists_moves_of_run`).
* A compilation succeeds with a text exactly if moves that write it close the whole template
  (`Profile.compile_eq_ok_iff`).
-/

namespace TerseMarkup

open Place (Before before_iff before_of_size_lt before_of_next?)

-- Runs on given templates can be decided.
instance Except.decidableEq {ε α : Type} [DecidableEq ε] [DecidableEq α] :
    DecidableEq (Except ε α)
  | .error e, .error e' => decidable_of_iff (e = e') (by rw [Except.error.injEq])
  | .ok a, .ok a' => decidable_of_iff (a = a') (by rw [Except.ok.injEq])
  | .error _, .ok _ => .isFalse (fun h => by cases h)
  | .ok _, .error _ => .isFalse (fun h => by cases h)

/-! ## What a headline opens -/

namespace Opening

/-- The text that an opening writes at once. -/
def written : Opening → Text
  | leaf written _ | block written _ | inline written _ _ | statement written _ _ => written

/-- The blocks that a statement at `level` has open when `rest` follows its colon. -/
def statementFrames (level : Nat) (keyword : Text) (taken : List Clause) (rest : Text) :
    List Frame :=
  (if rest.isEmpty then [] else [.inline level []]) ++ [.statement level keyword taken]

/-- The blocks that an opening at `level` opens, the innermost first. -/
def frames (level : Nat) : Opening → List Frame
  | leaf _ _ => []
  | block _ close => [.block level close]
  | inline _ close _ => [.inline level close]
  | statement _ keyword rest => statementFrames level keyword [] rest

/-- Whether an opening leaves a headline on the line at hand. -/
def announces : Opening → Bool
  | leaf _ _ | block _ _ => false
  | inline _ _ rest | statement _ _ rest => !rest.isEmpty

end Opening

namespace Frame

/-- The block announces the line at the given indentation as its content. -/
inductive Announces : Frame → Line → Nat → Prop
  | document {line : Line} (hbody : line.body ≠ []) : Announces .document line line.indent
  | block {line : Line} {level : Nat} {close : Text} (hbody : line.body ≠ [])
      (hdeep : level < line.indent) : Announces (.block level close) line line.indent
  | inline {line : Line} {level : Nat} {close : Text} (hbody : line.body ≠ [])
      (hdeep : level < line.indent) : Announces (.inline level close) line level
  | statement {line : Line} {level : Nat} {keyword : Text} {taken : List Clause}
      (hbody : line.body ≠ []) (hdeep : level < line.indent) :
      Announces (.statement level keyword taken) line line.indent

/-- The block closes and hands the line on. -/
inductive HandsOn : Frame → Line → Prop
  | block {line : Line} {level : Nat} {close : Text} (hbody : line.body ≠ [])
      (hdeep : line.indent ≤ level) : HandsOn (.block level close) line
  | inline {line : Line} {level : Nat} {close : Text}
      (hline : line.body = [] ∨ line.indent ≤ level) : HandsOn (.inline level close) line
  | dedent {line : Line} {level : Nat} {keyword : Text} {taken : List Clause}
      (hbody : line.body ≠ []) (hdeep : line.indent < level) :
      HandsOn (.statement level keyword taken) line
  | noClause {line : Line} {keyword : Text} {taken : List Clause} (hbody : line.body ≠ [])
      (hnext : Clause.next? keyword taken line.body = none) :
      HandsOn (.statement line.indent keyword taken) line

/-- The block goes on with the next line when it has none at hand. -/
def Pulls : Frame → Prop
  | inline _ _ => False
  | _ => True

end Frame

/-! ## Single moves -/

namespace Outline

variable {recognise : Text → Option Recognition} {s : Setting} {o o' o'' : Outline}
  {w w' written : Text}

/-- The moves that go on, kind by kind. -/
inductive Steps (recognise : Text → Option Recognition) (s : Setting) :
    Outline → Text → Outline → Prop
  | look {stack : List Frame} {line : Line} {cur cur' : Cursor} {found : Recognition}
      {opening : Opening} (hfound : recognise line.body = some found)
      (hopen : found.headline.opening s line.indent line.body cur = (.ok opening, cur')) :
      Steps recognise s ⟨stack, line, true, cur⟩ opening.written
        ⟨opening.frames line.indent ++ stack, opening.line line.indent, opening.announces, cur'⟩
  | announce {frame : Frame} {outer : List Frame} {line : Line} {level : Nat} {cur : Cursor}
      (h : frame.Announces line level) :
      Steps recognise s ⟨frame :: outer, line, false, cur⟩ []
        ⟨frame :: outer, ⟨level, line.body⟩, true, cur⟩
  | handOn {frame : Frame} {outer : List Frame} {line : Line} {cur : Cursor}
      (h : frame.HandsOn line) :
      Steps recognise s ⟨frame :: outer, line, false, cur⟩ (frame.closing s.delimiters)
        ⟨outer, line, false, cur⟩
  | finish {frame : Frame} {outer : List Frame} {line : Line} {cur : Cursor} (hpull : frame.Pulls)
      (hbody : line.body = []) (hnext : cur.next? = none) :
      Steps recognise s ⟨frame :: outer, line, false, cur⟩ (frame.closing s.delimiters)
        ⟨outer, .none, false, cur⟩
  | pull {frame : Frame} {outer : List Frame} {line : Line} {raw : Text} {cur cur' : Cursor}
      (hpull : frame.Pulls) (hbody : line.body = []) (hnext : cur.next? = some (raw, cur')) :
      Steps recognise s ⟨frame :: outer, line, false, cur⟩ []
        ⟨frame :: outer, .ofRaw raw, false, cur'⟩
  | clause {keyword : Text} {taken : List Clause} {outer : List Frame} {line : Line}
      {clause : Clause} {t written rest : Text} {cur cur' : Cursor} (hbody : line.body ≠ [])
      (hnext : Clause.next? keyword taken line.body = some (clause, t))
      (hread : clause.read s.delimiters t cur = (.ok (written, rest), cur')) :
      Steps recognise s ⟨.statement line.indent keyword taken :: outer, line, false, cur⟩ written
        ⟨Opening.statementFrames line.indent keyword (clause :: taken) rest ++ outer,
          ⟨line.indent, rest⟩, !rest.isEmpty, cur'⟩

/-- Carrying out an opening is always one move: text is written, blocks are opened, and a line is at
hand. -/
theorem perform_eq (o : Outline) (level : Nat) (cur : Cursor) (opening : Opening) :
    o.perform level cur opening = .go opening.written
      ⟨opening.frames level ++ o.stack, opening.line level, opening.announces, cur⟩ := by
  cases opening with
  | leaf written next => rfl
  | block written close => rfl
  | inline written close rest => rfl
  | statement written keyword rest => cases rest <;> rfl

/-- A pull goes on with a line, or closes the block. -/
theorem steps_of_pull {frame : Frame} {outer : List Frame} {line : Line} {cur : Cursor}
    (hpull : frame.Pulls) (hbody : line.body = [])
    (h : pull s.delimiters ⟨frame :: outer, line, false, cur⟩ frame outer = .go w o') :
    Steps recognise s ⟨frame :: outer, line, false, cur⟩ w o' := by
  unfold pull at h
  split at h
  · rename_i hnext
    cases h
    exact .finish hpull hbody hnext
  · rename_i raw cur' hnext
    cases h
    exact .pull hpull hbody hnext

/-- A statement at its own indentation moves in one of the ways listed. -/
theorem steps_of_goOn {keyword : Text} {taken : List Clause} {outer : List Frame} {line : Line}
    {cur : Cursor} (hbody : line.body ≠ [])
    (h : goOn s.delimiters ⟨.statement line.indent keyword taken :: outer, line, false, cur⟩
      line.indent keyword taken outer = .go w o') :
    Steps recognise s ⟨.statement line.indent keyword taken :: outer, line, false, cur⟩ w o' := by
  unfold goOn at h
  simp only at h
  split at h
  · rename_i hnext
    cases h
    exact .handOn (.noClause hbody hnext)
  · rename_i clause t hnext
    split at h
    · cases h
    · rename_i written rest cur' hread
      cases rest with
      | nil =>
        cases h
        exact .clause hbody hnext hread
      | cons c rest =>
        cases h
        exact .clause hbody hnext hread

/-- A block that is handed a line moves in one of the ways listed. -/
theorem steps_of_hand {frame : Frame} {outer : List Frame} {line : Line} {cur : Cursor}
    (h : hand s.delimiters ⟨frame :: outer, line, false, cur⟩ frame outer = .go w o') :
    Steps recognise s ⟨frame :: outer, line, false, cur⟩ w o' := by
  by_cases hbody : line.body = []
  · cases frame with
    | inline level close =>
      simp only [hand, hbody, List.isEmpty_nil, Bool.true_or, if_true] at h
      cases h
      exact .handOn (.inline (.inl hbody))
    | document | block | statement =>
      simp only [hand, hbody, List.isEmpty_nil, if_true] at h
      exact steps_of_pull trivial hbody h
  · have hempty : line.body.isEmpty = false := by simpa using hbody
    cases frame with
    | document =>
      simp only [hand, hempty] at h
      cases h
      exact .announce (.document hbody)
    | block level close =>
      simp only [hand, hempty] at h
      split at h
      · contradiction
      · split at h
        · rename_i hle
          cases h
          exact .handOn (.block hbody hle)
        · rename_i hgt
          cases h
          exact .announce (.block hbody (Nat.lt_of_not_le hgt))
    | inline level close =>
      simp only [hand, hempty, Bool.false_or, decide_eq_true_eq] at h
      split at h
      · rename_i hle
        cases h
        exact .handOn (.inline (.inr hle))
      · rename_i hgt
        cases h
        exact .announce (.inline hbody (Nat.lt_of_not_le hgt))
    | statement level keyword taken =>
      simp only [hand, hempty] at h
      split at h
      · contradiction
      · split at h
        · rename_i hlt
          cases h
          exact .handOn (.dedent hbody hlt)
        · split at h
          · rename_i heq
            subst heq
            exact steps_of_goOn hbody h
          · rename_i hlt hne
            cases h
            exact .announce (.statement hbody (by omega))

/-- Every move that goes on is one of those listed. -/
theorem steps_of_step (h : o.step recognise s = .go w o') : Steps recognise s o w o' := by
  obtain ⟨stack, line, announced, cur⟩ := o
  cases announced with
  | true =>
    simp only [step, look, if_true] at h
    split at h
    · cases h
    · rename_i found hfound
      split at h
      · cases h
      · rename_i opening cur' hopen
        rw [perform_eq] at h
        cases h
        exact .look hfound hopen
  | false =>
    cases stack with
    | nil => cases h
    | cons frame outer => exact steps_of_hand h

/-- Every move that is listed is made. -/
theorem step_of_steps (h : Steps recognise s o w o') : o.step recognise s = .go w o' := by
  cases h with
  | look hfound hopen => simp only [step, look, if_true, hfound, hopen, perform_eq]
  | announce h =>
    cases h with
    | document hbody => simp [step, hand, announce, hbody]
    | block hbody hdeep => simp [step, hand, announce, hbody, Nat.not_le.2 hdeep]
    | inline hbody hdeep => simp [step, hand, announce, hbody, Nat.not_le.2 hdeep]
    | statement hbody hdeep =>
      simp [step, hand, announce, hbody, Nat.lt_asymm hdeep, Nat.ne_of_gt hdeep]
  | handOn h =>
    cases h with
    | block hbody hdeep => simp [step, hand, close, hbody, hdeep]
    | inline hline => rcases hline with hline | hline <;> simp [step, hand, close, hline]
    | dedent hbody hdeep => simp [step, hand, close, hbody, hdeep]
    | noClause hbody hnext => simp [step, hand, goOn, close, hbody, hnext]
  | finish hpull hbody hnext =>
    rename_i frame outer line cur
    cases frame with
    | inline => exact hpull.elim
    | document | block | statement => simp [step, hand, Outline.pull, close, hbody, hnext]
  | pull hpull hbody hnext =>
    rename_i frame outer line raw cur cur'
    cases frame with
    | inline => exact hpull.elim
    | document | block | statement => simp [step, hand, Outline.pull, hbody, hnext]
  | clause hbody hnext hread =>
    rename_i keyword taken outer line clause t rest cur cur'
    cases rest <;> simp [step, hand, goOn, enter, hbody, hnext, hread, Opening.statementFrames]

/-- The kinds of moves are exactly the moves. -/
theorem step_eq_go_iff : o.step recognise s = .go w o' ↔ Steps recognise s o w o' :=
  ⟨steps_of_step, step_of_steps⟩

/-- The moves that end in a fault, kind by kind. -/
inductive Fails (recognise : Text → Option Recognition) (s : Setting) :
    Outline → Diagnostic → Cursor → Prop
  | unrecognised {stack : List Frame} {line : Line} {cur : Cursor}
      (hnone : recognise line.body = none) :
      Fails recognise s ⟨stack, line, true, cur⟩ (.unrecognised cur.number line.body) cur
  | headline {stack : List Frame} {line : Line} {cur cur' : Cursor} {found : Recognition}
      {e : Diagnostic} (hfound : recognise line.body = some found)
      (hopen : found.headline.opening s line.indent line.body cur = (.error e, cur')) :
      Fails recognise s ⟨stack, line, true, cur⟩ e cur'
  | clause {keyword : Text} {taken : List Clause} {outer : List Frame} {line : Line}
      {clause : Clause} {t : Text} {cur cur' : Cursor} {e : Diagnostic} (hbody : line.body ≠ [])
      (hnext : Clause.next? keyword taken line.body = some (clause, t))
      (hread : clause.read s.delimiters t cur = (.error e, cur')) :
      Fails recognise s ⟨.statement line.indent keyword taken :: outer, line, false, cur⟩ e cur'

theorem go_ne_stop {result : Except Diagnostic Line} {cur : Cursor} :
    Move.go w o ≠ .stop result cur := by
  intro h
  cases h

theorem stop_error_ne {e : Diagnostic} {line : Line} {cur cur' : Cursor} :
    Move.stop (.error e) cur ≠ .stop (.ok line) cur' := by
  intro h
  cases h

/-- Pulling a line never ends the work. -/
theorem pull_ne_stop {d : Delimiters} {frame : Frame} {outer : List Frame}
    {result : Except Diagnostic Line} {cur : Cursor} : o.pull d frame outer ≠ .stop result cur := by
  unfold pull
  split <;> exact go_ne_stop

/-- A statement that goes on never ends the work. -/
theorem goOn_ne_stop_ok {d : Delimiters} {level : Nat} {keyword : Text} {taken : List Clause}
    {outer : List Frame} {line : Line} {cur : Cursor} :
    o.goOn d level keyword taken outer ≠ .stop (.ok line) cur := by
  unfold goOn
  split
  · exact go_ne_stop
  · split
    · exact stop_error_ne
    · simp only
      split <;> exact go_ne_stop

/-- Handing on a line never ends the work. -/
theorem hand_ne_stop_ok {d : Delimiters} {frame : Frame} {outer : List Frame} {line : Line}
    {cur : Cursor} : o.hand d frame outer ≠ .stop (.ok line) cur := by
  unfold hand
  repeat' split
  all_goals first
    | exact pull_ne_stop
    | exact goOn_ne_stop_ok
    | exact go_ne_stop

/-- A stop that succeeds has no block open, and hands back the line at hand. -/
theorem eq_of_step_eq_stop {line : Line} {cur : Cursor}
    (h : o.step recognise s = .stop (.ok line) cur) : o = ⟨[], line, false, cur⟩ := by
  obtain ⟨stack, line', announced, cur'⟩ := o
  cases announced with
  | true =>
    simp only [step, look, if_true] at h
    split at h
    · cases h
    · split at h
      · cases h
      · rw [perform_eq] at h
        cases h
  | false =>
    cases stack with
    | nil =>
      cases h
      rfl
    | cons frame outer => exact absurd h hand_ne_stop_ok

/-- A statement fails by the clause that it cannot read. -/
theorem fails_of_goOn {keyword : Text} {taken : List Clause} {outer : List Frame} {line : Line}
    {cur cur' : Cursor} {e : Diagnostic} (hbody : line.body ≠ [])
    (h : goOn s.delimiters ⟨.statement line.indent keyword taken :: outer, line, false, cur⟩
      line.indent keyword taken outer = .stop (.error e) cur') :
    Fails recognise s ⟨.statement line.indent keyword taken :: outer, line, false, cur⟩ e cur' := by
  unfold goOn at h
  simp only at h
  split at h
  · cases h
  · rename_i clause t hnext
    split at h
    · rename_i hread
      cases h
      exact .clause hbody hnext hread
    · split at h <;> cases h

/-- A block that is handed a line fails in one of the ways listed. -/
theorem fails_of_hand {frame : Frame} {outer : List Frame} {line : Line} {cur cur' : Cursor}
    {e : Diagnostic}
    (h : hand s.delimiters ⟨frame :: outer, line, false, cur⟩ frame outer = .stop (.error e) cur') :
    Fails recognise s ⟨frame :: outer, line, false, cur⟩ e cur' := by
  -- Only a statement that goes on with a clause reads anything.
  unfold hand at h
  split at h
  · split at h <;> cases h
  · split at h
    · exact absurd h pull_ne_stop
    · cases h
  · split at h
    · exact absurd h pull_ne_stop
    · split at h <;> cases h
  · split at h
    · exact absurd h pull_ne_stop
    · rename_i hbody
      split at h
      · cases h
      · split at h
        · rename_i hlevel
          have hlevel : line.indent = _ := hlevel
          subst hlevel
          exact fails_of_goOn (mt List.isEmpty_iff.2 hbody) h
        · cases h

/-- The kinds of moves that end in a fault are exactly those. -/
theorem step_eq_error_iff {e : Diagnostic} {cur : Cursor} :
    o.step recognise s = .stop (.error e) cur ↔ Fails recognise s o e cur := by
  constructor
  · intro h
    obtain ⟨stack, line, announced, cur'⟩ := o
    cases announced with
    | true =>
      simp only [step, look, if_true] at h
      split at h
      · rename_i hnone
        cases h
        exact .unrecognised hnone
      · rename_i found hfound
        split at h
        · rename_i hopen
          cases h
          exact .headline hfound hopen
        · rw [perform_eq] at h
          cases h
    | false =>
      cases stack with
      | nil => cases h
      | cons frame outer => exact fails_of_hand h
  · intro h
    cases h with
    | unrecognised hnone => simp only [step, look, if_true, hnone]
    | headline hfound hopen => simp only [step, look, if_true, hfound, hopen]
    | clause hbody hnext hread => simp [step, hand, goOn, hbody, hnext, hread]

/-! ## Progress -/

/-- Where an outline stands. -/
def place (o : Outline) : Place :=
  ⟨o.line.body, o.cursor⟩

/-- The moves that an outline can make without going on in its text. -/
def pending (o : Outline) : Nat :=
  o.stack.length + if o.announced then 0 else 1

/-- An opening adds at most two moves. -/
theorem length_frames_le (level : Nat) (opening : Opening) :
    (opening.frames level).length + (if opening.announces then 0 else 1) ≤ 2 := by
  cases opening with
  | leaf written next => simp [Opening.frames, Opening.announces]
  | block written close => simp [Opening.frames, Opening.announces]
  | inline written close rest => cases rest <;> simp [Opening.frames, Opening.announces]
  | statement written keyword rest =>
    cases rest <;> simp [Opening.frames, Opening.statementFrames, Opening.announces]

/-- A statement adds at most two moves. -/
theorem length_statementFrames_le (level : Nat) (keyword : Text) (taken : List Clause)
    (rest : Text) : (Opening.statementFrames level keyword taken rest).length +
      (if !rest.isEmpty then 0 else 1) ≤ 2 := by
  cases rest <;> simp [Opening.statementFrames]

/-- Reading on makes progress: less is left to read, and at most two moves are added to those that
are pending. -/
structure ReadsOn (o o' : Outline) : Prop where
  reaches : o.cursor.Reaches o'.cursor
  size_lt : o'.cursor.size + o'.line.body.length < o.cursor.size + o.line.body.length
  pending_le : o'.pending ≤ o.pending + 2

/-- Reading on is progress. -/
theorem ReadsOn.before (h : ReadsOn o o') : o'.place.Before o.place :=
  before_of_size_lt h.reaches h.size_lt

/-- Looking up a line reads on. -/
theorem readsOn_of_look {p : Profile} (hp : p.IsStandard) {stack : List Frame} {line : Line}
    {cur cur' : Cursor} {found : Recognition} {opening : Opening}
    (hfound : p.recognise line.body = some found)
    (hopen : found.headline.opening s line.indent line.body cur = (.ok opening, cur')) :
    ReadsOn ⟨stack, line, true, cur⟩
      ⟨opening.frames line.indent ++ stack, opening.line line.indent, opening.announces, cur'⟩ := by
  obtain ⟨hne, hseen⟩ := Profile.headline_seen hp hfound
  have hreach := (Headline.forward_opening s line.indent hseen).reaches hopen
  refine ⟨hreach, (Headline.opening_leftOver hseen hopen).size_lt hreach hne, ?_⟩
  have hframes := length_frames_le line.indent opening
  simp only [pending, List.length_append]
  omega

/-- Every move reads on, or leaves less pending at the same place. -/
theorem Steps.progress {p : Profile} (hp : p.IsStandard)
    (h : Steps p.recognise s o w o') :
    ReadsOn o o' ∨ o'.place = o.place ∧ o'.pending < o.pending := by
  cases h with
  | look hfound hopen => exact .inl (readsOn_of_look hp hfound hopen)
  | announce h =>
    right
    exact ⟨rfl, Nat.lt_succ_self _⟩
  | handOn h =>
    right
    exact ⟨rfl, Nat.lt_succ_self _⟩
  | finish hpull hbody hnext =>
    right
    refine ⟨?_, Nat.lt_succ_self _⟩
    simp only [place, hbody, Line.none]
  | pull hpull hbody hnext =>
    rename_i frame outer line raw cur cur'
    left
    refine ⟨Cursor.reaches_of_next? hnext, ?_, Nat.le_add_right _ _⟩
    have hsize := Cursor.size_of_next? hnext
    have hraw := Line.length_body_ofRaw_le raw
    simp only
    omega
  | clause hbody hnext hread =>
    rename_i keyword taken outer line clause t rest cur cur'
    left
    have hreach := (Clause.forward_read _ _ _).reaches hread
    refine ⟨hreach, ?_, ?_⟩
    · have hsize := hreach.size_le
      have hlen := Clause.length_lt_of_next? hnext
      simp only
      rcases Clause.read_lt hread with rfl | hlt
      · rw [List.length_nil]
        omega
      · omega
    · have hframes := length_statementFrames_le line.indent keyword (clause :: taken) rest
      simp only [pending, List.length_append, List.length_cons]
      omega

/-- Every move leaves less to do. -/
theorem Steps.weight_lt {p : Profile} (hp : p.IsStandard) (h : Steps p.recognise s o w o') :
    o'.weight < o.weight := by
  have hweight (o : Outline) :
      o.weight = 4 * o.cursor.size + 3 * o.line.body.length + o.pending := by
    unfold weight pending
    omega
  rw [hweight, hweight]
  rcases h.progress hp with ⟨hreach, hlt, hpending⟩ | ⟨hplace, hpending⟩
  · have := hreach.size_le
    omega
  · have hbody : o'.line.body = o.line.body := congrArg Place.text hplace
    have hcursor : o'.cursor = o.cursor := congrArg Place.cursor hplace
    rw [hbody, hcursor]
    omega

/-! ## Sequences of moves -/

/-- A sequence of moves, with all that it writes. -/
inductive Moves (recognise : Text → Option Recognition) (s : Setting) :
    Outline → Text → Outline → Prop
  | refl (o : Outline) : Moves recognise s o [] o
  | step {o o' o'' : Outline} {w w' : Text} (h : Steps recognise s o w o')
      (hm : Moves recognise s o' w' o'') : Moves recognise s o (w ++ w') o''

/-- A single move is a sequence of moves. -/
theorem Moves.single (h : Steps recognise s o w o') : Moves recognise s o w o' := by
  rw [← List.append_nil w]
  exact .step h (.refl o')

/-- Sequences of moves can be put together, and so is what they write. -/
theorem Moves.trans (h : Moves recognise s o w o') (h' : Moves recognise s o' w' o'') :
    Moves recognise s o (w ++ w') o'' := by
  induction h with
  | refl o => exact h'
  | step hs hm ih =>
    rw [List.append_assoc]
    exact .step hs (ih h')

/-- What every single move keeps, a sequence of moves keeps. -/
theorem Moves.invariant {I : Outline → Prop}
    (hstep : ∀ {o o' w}, Steps recognise s o w o' → I o → I o')
    (h : Moves recognise s o w o') (ho : I o) : I o' := by
  induction h with
  | refl o => exact ho
  | step hs hm ih => exact ih (hstep hs ho)

/-- Where no block is open, there is no move left. -/
theorem not_steps_nil {line : Line} {cur : Cursor} :
    ¬ Steps recognise s ⟨[], line, false, cur⟩ w o := by
  intro h
  cases h

/-- There is one way to go on, so moves up to a stop pass through every outline that can be reached
on the way. -/
theorem Moves.passes {line : Line} {cur : Cursor}
    (h : Moves recognise s o w ⟨[], line, false, cur⟩) (h' : Moves recognise s o w' o') :
    ∃ more, w = w' ++ more ∧ Moves recognise s o' more ⟨[], line, false, cur⟩ := by
  induction h' generalizing w with
  | refl o => exact ⟨w, rfl, h⟩
  | step hs hm ih =>
    cases h with
    | refl => exact absurd hs not_steps_nil
    | step hs' hm' =>
      cases (step_of_steps hs).symm.trans (step_of_steps hs')
      obtain ⟨more, rfl, hmore⟩ := ih hm'
      exact ⟨more, (List.append_assoc _ _ _).symm, hmore⟩

/-- So nothing is written between two outlines without open blocks. -/
theorem Moves.eq_nil {line line' : Line} {cur cur' : Cursor}
    (h : Moves recognise s ⟨[], line, false, cur⟩ w ⟨[], line', false, cur'⟩) : w = [] := by
  cases h with
  | refl => rfl
  | step hs hm => exact absurd hs not_steps_nil

/-- After a sequence of moves an outline is further on, or at the same place with no more pending,
and with less if it has moved at all. -/
theorem Moves.progress {p : Profile} (hp : p.IsStandard) (h : Moves p.recognise s o w o') :
    o'.place.Before o.place ∨ o'.place = o.place ∧ (o'.pending < o.pending ∨ o' = o) := by
  induction h with
  | refl o => exact .inr ⟨rfl, .inr rfl⟩
  | step hs hm ih =>
    rcases hs.progress hp with hreads | ⟨hplace, hpending⟩
    · left
      rcases ih with hbefore | ⟨hplace, -⟩
      · exact hbefore.trans hreads.before
      · rw [hplace]
        exact hreads.before
    · rw [hplace] at ih
      refine ih.imp_right fun ⟨hplace', hpending'⟩ => ⟨hplace', .inl ?_⟩
      rcases hpending' with hlt | rfl
      · exact Nat.lt_trans hlt hpending
      · exact hpending

/-! ## Runs -/

/-- Puts what a move writes in front of what the rest of the run writes. -/
def prependWritten (w : Text) :
    Except Diagnostic Passage × Cursor → Except Diagnostic Passage × Cursor
  | (.ok passage, cur) => (.ok ⟨w ++ passage.written, passage.next⟩, cur)
  | (.error e, cur) => (.error e, cur)

/-- A run from an outline where the work stops. -/
theorem run_of_stop {result : Except Diagnostic Line} {cur : Cursor}
    (h : o.step recognise s = .stop result cur) :
    o.run recognise s = (result.map (⟨[], ·⟩), cur) := by
  rw [run, h]

/-- Under standard rules no run is cut short. -/
theorem run_of_steps {p : Profile} (hp : p.IsStandard) (h : Steps p.recognise s o w o') :
    o.run p.recognise s = prependWritten w (o'.run p.recognise s) := by
  rw [run, step_eq_go_iff.2 h]
  simp only [if_pos (h.weight_lt hp)]
  rfl

/-- A run can be taken up anywhere on the way. -/
theorem run_of_moves {p : Profile} (hp : p.IsStandard) (h : Moves p.recognise s o w o') :
    o.run p.recognise s = prependWritten w (o'.run p.recognise s) := by
  induction h with
  | refl o =>
    obtain ⟨r, cur⟩ := o.run p.recognise s
    cases r <;> rfl
  | step hs hm ih =>
    rename_i o o' o'' w w'
    rw [run_of_steps hp hs, ih]
    obtain ⟨r, cur⟩ := o''.run p.recognise s
    cases r with
    | error e => rfl
    | ok passage => simp [prependWritten, List.append_assoc]

/-- A run is a sequence of moves up to a stop. -/
theorem exists_moves_of_run {p : Profile} (hp : p.IsStandard) (s : Setting) (o : Outline) :
    ∃ written last result cur, Moves p.recognise s o written last ∧
      last.step p.recognise s = .stop result cur ∧
      o.run p.recognise s = (result.map (⟨written, ·⟩), cur) := by
  induction hn : o.weight using Nat.strongRecOn generalizing o with
  | _ n ih =>
    cases hstep : o.step p.recognise s with
    | stop result cur => exact ⟨[], o, result, cur, .refl o, hstep, run_of_stop hstep⟩
    | go w next =>
      have hs := step_eq_go_iff.1 hstep
      obtain ⟨written, last, result, cur, hm, hlast, hrun⟩ :=
        ih next.weight (hn ▸ hs.weight_lt hp) next rfl
      refine ⟨w ++ written, last, result, cur, .step hs hm, hlast, ?_⟩
      rw [run_of_steps hp hs, hrun]
      cases result <;> rfl

end Outline

/-! ## Compilations -/

/-- A compilation that succeeds is a sequence of moves, until the template itself is closed. -/
theorem Profile.compile_eq_ok_iff {p : Profile} (hp : p.IsStandard) {depth : Nat}
    {source written : Text} :
    p.compile ⟨false, depth⟩ source = .ok written ↔ ∃ line cur,
      Outline.Moves p.recognise (p.setting (p.compileEmbedded depth depth)) (.ofDocument source)
        written ⟨[], line, false, cur⟩ := by
  have hplain : p.compile ⟨false, depth⟩ source =
      ((Outline.ofDocument source).run p.recognise
        (p.setting (p.compileEmbedded depth depth))).1.map Passage.written := by
    unfold Profile.compile Profile.compileWith
    cases ((Outline.ofDocument source).run p.recognise
      (p.setting (p.compileEmbedded depth depth))).1 <;> rfl
  rw [hplain]
  constructor
  · intro h
    obtain ⟨w, last, result, cur, hmoves, hstop, hrun⟩ := Outline.exists_moves_of_run hp
      (p.setting (p.compileEmbedded depth depth)) (.ofDocument source)
    rw [hrun] at h
    cases result with
    | error e => cases h
    | ok line =>
      cases h
      rw [Outline.eq_of_step_eq_stop hstop] at hmoves
      exact ⟨line, cur, hmoves⟩
  · rintro ⟨line, cur, hmoves⟩
    have hstop : (⟨[], line, false, cur⟩ : Outline).step p.recognise
        (p.setting (p.compileEmbedded depth depth)) = .stop (.ok line) cur := rfl
    rw [Outline.run_of_moves hp hmoves, Outline.run_of_stop hstop]
    simp [Outline.prependWritten, Except.map]

end TerseMarkup
