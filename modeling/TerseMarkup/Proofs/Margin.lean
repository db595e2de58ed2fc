import TerseMarkup.Proofs.Piecewise

/-!
# Lines at the margin

Where all lines still to come stand at the margin, the level of a headline makes no difference: a
block of raw lines takes blank lines only, whatever its level (`blockOver_margin`), so a headline
opens the same at any level (`Headline.opening_alike`), and all open blocks are closed together.

`Outline.Writes` says what an outline comes to. Outlines that are reached by moves come to the rest
of it (`Outline.Moves.writes_iff`), so two outlines are compared where their runs have met.
-/

namespace TerseMarkup

/-- Every line that is not blank stands at the margin. -/
def MarginLines (lines : List Text) : Prop :=
  ∀ raw ∈ lines, (Line.ofRaw raw).body ≠ [] → (Line.ofRaw raw).indent = 0

/-- Every line that is not blank stands at the margin, and none of them goes on a statement. -/
structure FlatLines (lines : List Text) : Prop where
  margin : MarginLines lines
  noClause : ∀ raw ∈ lines, ∀ clause : Clause,
    Rule.dashWord? [clause.word] (Line.ofRaw raw).body = none

variable {lines : List Text} {cur cur' : Cursor}

/-- Lines that are still to come stand at the margin, if all lines do. -/
theorem MarginLines.of_reaches (h : MarginLines cur.ahead) (hr : cur.Reaches cur') :
    MarginLines cur'.ahead :=
  fun raw hraw => h raw (hr.mem_ahead hraw)

/-- A line that settles stands at the margin. -/
theorem MarginLines.indent_eq {next : Line} (h : MarginLines lines) (hs : next.Settled lines cur)
    (hbody : next.body ≠ []) : next.indent = 0 := by
  obtain ⟨raw, hfind, rfl⟩ := hs.exists_find? hbody
  exact h raw (List.mem_of_find?_eq_some hfind) hbody

/-- Some of the lines are flat, if all of them are. -/
theorem FlatLines.of_subset {lines' : List Text} (h : FlatLines lines) (hsub : lines' ⊆ lines) :
    FlatLines lines' :=
  ⟨fun raw hraw => h.margin raw (hsub hraw), fun raw hraw => h.noClause raw (hsub hraw)⟩

/-- A line that starts with the word of no clause goes on no statement. -/
theorem Clause.next?_eq_none {line : Text}
    (h : ∀ clause : Clause, Rule.dashWord? [clause.word] line = none) (keyword : Text)
    (taken : List Clause) : Clause.next? keyword taken line = none := by
  unfold Clause.next?
  split
  · rfl
  · refine List.findSome?_eq_none_iff.2 fun clause _ => ?_
    rw [h clause]
    rfl

/-- Flat lines close all blocks. -/
theorem FlatLines.fresh (h : FlatLines lines) : FreshLines lines := by
  intro next cur hs hbody
  refine ⟨h.margin.indent_eq hs hbody, Clause.next?_eq_none ?_⟩
  obtain ⟨raw, hfind, rfl⟩ := hs.exists_find? hbody
  exact h.noClause raw (List.mem_of_find?_eq_some hfind)

/-! ## Blocks of raw lines -/

/-- Above lines at the margin all blocks are the same. -/
theorem blockOver_margin (hmargin : MarginLines lines) (level level' n : Nat) :
    blockOver level lines n = blockOver level' lines n := by
  induction lines generalizing n with
  | nil => rfl
  | cons raw lines ih =>
    obtain ⟨hraw, hrest⟩ := List.forall_mem_cons.1 hmargin
    by_cases hbody : (Line.ofRaw raw).body = []
    · simp only [blockOver, hbody, ne_eq, not_true_eq_false, false_and, if_false, ih hrest]
    · simp only [blockOver, hbody, hraw hbody, ne_eq, not_false_eq_true, Nat.zero_le, and_self,
        if_true]

/-- A block in front of lines at the margin ends at once, whatever the indentation of its
headline. -/
theorem rawBlock_margin (hmargin : MarginLines cur.ahead) (level level' : Nat) :
    rawBlock level cur = rawBlock level' cur := by
  unfold rawBlock
  rw [blockOver_margin hmargin level level']

namespace Scan

variable {α β : Type}

/-- Scans of two steps are the same from a cursor if their steps are. -/
theorem bind_congr {x y : Scan α} {f g : α → Scan β} (hx : x cur = y cur)
    (hf : ∀ a cur', y cur = (.ok a, cur') → f a cur' = g a cur') :
    (x >>= f) cur = (y >>= g) cur := by
  rw [bind_apply, bind_apply, hx]
  cases hy : y cur with
  | mk r cur' =>
    cases r with
    | error e => rfl
    | ok a => exact hf a cur' hy

theorem bind_congr_left {x y : Scan α} (f : α → Scan β) (hx : x cur = y cur) :
    (x >>= f) cur = (y >>= f) cur :=
  bind_congr hx fun _ _ _ => rfl

/-- A first step that only moves forward leaves lines at the margin. -/
theorem Forward.bind_margin {x : Scan α} (hx : Forward x) {f g : α → Scan β}
    (hmargin : MarginLines cur.ahead)
    (hf : ∀ a {cur' : Cursor}, MarginLines cur'.ahead → f a cur' = g a cur') :
    (x >>= f) cur = (x >>= g) cur :=
  bind_congr rfl fun a _ ha => hf a (hmargin.of_reaches (hx.reaches ha))

end Scan

/-- So does a literal block. -/
theorem literalBlock_margin (hmargin : MarginLines cur.ahead) (s : Setting) (level level' : Nat)
    (headline : Text) (embedded : Bool) :
    literalBlock s level headline embedded cur = literalBlock s level' headline embedded cur := by
  refine Scan.forward_lineNumber.bind_margin hmargin fun n _ h => ?_
  exact Scan.bind_congr_left _ (rawBlock_margin h level level')

/-! ## Headlines -/

/-- The openings are the same, but for the indentation where a line is missing. -/
inductive Opening.Alike : Opening → Opening → Prop
  | refl (opening : Opening) : Alike opening opening
  | leaf (written : Text) {next next' : Line} (hbody : next.body = []) (hbody' : next'.body = []) :
      Alike (.leaf written next) (.leaf written next')

/-- So does code. -/
theorem openCode_margin (hmargin : MarginLines cur.ahead) (s : Setting) (level level' : Nat)
    (moduleLevel : Bool) (expr : Option Text) :
    openCode s level moduleLevel expr cur = openCode s level' moduleLevel expr cur :=
  Scan.bind_congr_left _ (literalBlock_margin hmargin s level level' _ _)

namespace Headline

/-- A headline opens the same at any level. -/
theorem opening_alike_level {s : Setting} {level : Nat} (level' : Nat) {line : Text}
    {headline : Headline} {opening : Opening} (hmargin : MarginLines cur.ahead)
    (hseen : headline.SeenIn line)
    (h : headline.opening s level line cur = (.ok opening, cur')) :
    ∃ opening', headline.opening s level' line cur = (.ok opening', cur') ∧
      opening.Alike opening' := by
  have hsame (heq : headline.opening s level' line cur = headline.opening s level line cur) :
      ∃ opening', headline.opening s level' line cur = (.ok opening', cur') ∧
        opening.Alike opening' :=
    ⟨opening, heq.trans h, .refl opening⟩
  cases headline with
  | scriptTemplate | element | html | statement | negated | definition | call => exact hsame rfl
  | doctype | jump =>
    cases h
    exact ⟨_, rfl, .leaf _ rfl rfl⟩
  | directive t =>
    obtain ⟨e, cur₁, he, h₁⟩ := Scan.bind_eq_ok_iff.1 h
    cases h₁
    exact ⟨_, Scan.bind_eq_ok_iff.2 ⟨e, cur', he, rfl⟩, .leaf _ rfl rfl⟩
  | verbatimElement =>
    refine hsame ((Element.forward_read s none _).bind_margin hmargin fun e _ h₁ => ?_)
    exact Scan.bind_congr_left _ (literalBlock_margin h₁ s _ _ _ _)
  | literal text => exact hsame (Scan.bind_congr_left _ (literalBlock_margin hmargin s _ _ _ _))
  | value | comment => exact hsame (Scan.bind_congr_left _ (rawBlock_margin hmargin _ _))
  | fencedCode moduleLevel expr =>
    apply hsame
    cases expr with
    | none => exact openCode_margin hmargin s _ _ _ _
    | some t =>
      have hforward := reaches_token? s.delimiters.placeholder [] ["---".toList, ['\n']] t
      exact Scan.Forward.bind_margin hforward hmargin fun _ _ h₁ => openCode_margin h₁ s _ _ _ _
  | code => exact hsame (openCode_margin hmargin s _ _ _ _)
  | shielded t =>
    refine hsame ((Element.forward_read s none _).bind_margin hmargin fun e _ h₁ => ?_)
    exact Scan.bind_congr_left _ (literalBlock_margin h₁ s _ _ _ _)
  | markup language =>
    apply hsame
    simp only [Headline.opening, openMarkup]
    cases s.transpiler? language with
    | none => rfl
    | some transpile => exact Scan.bind_congr_left _ (literalBlock_margin hmargin s _ _ _ _)
  | custom read => exact hseen.elim

/-- A headline opens the same at any level and any line number. -/
theorem opening_alike {s : Setting} {level : Nat} (level' : Nat) {line : Text}
    {headline : Headline} {opening : Opening} {cur₁ : Cursor} (hmargin : MarginLines cur.ahead)
    (hahead : cur'.ahead = cur.ahead) (hseen : headline.SeenIn line)
    (h : headline.opening s level line cur = (.ok opening, cur₁)) :
    ∃ opening' cur₁', headline.opening s level' line cur' = (.ok opening', cur₁') ∧
      cur₁'.ahead = cur₁.ahead ∧ opening.Alike opening' := by
  have he : cur.Extends [] cur' := ⟨by rw [hahead, List.append_nil], fun _ _ => .inl rfl⟩
  rcases settles_opening freshLines_nil s level hseen (.inl rfl) cur cur' he with
    hcarries | ⟨written, cur₂, next, cur₁', hr, hnil, hr', hs⟩
  · obtain ⟨cur₁', he', h'⟩ := hcarries opening cur₁ h
    obtain ⟨opening', h'', halike⟩ := opening_alike_level level' (hahead ▸ hmargin) hseen h'
    refine ⟨opening', cur₁', h'', ?_, halike⟩
    rw [he'.ahead, List.append_nil]
  · cases h.symm.trans hr
    obtain ⟨opening', h'', halike⟩ := opening_alike_level level' (hahead ▸ hmargin) hseen hr'
    cases hs with
    | ended hbody n =>
      refine ⟨opening', _, h'', hnil.symm, ?_⟩
      cases halike with
      | refl => exact .leaf written rfl hbody
      | leaf _ _ hbody' => exact .leaf written rfl hbody'

end Headline

/-! ## What an outline comes to -/

namespace Outline

variable {recognise : Text → Option Recognition} {s : Setting} {o o' : Outline} {w v : Text}

/-- The outline can be run to its end, and writes a text on the way. -/
def Writes (recognise : Text → Option Recognition) (s : Setting) (o : Outline) (w : Text) : Prop :=
  ∃ line cur, Moves recognise s o w ⟨[], line, false, cur⟩

/-- After some moves the rest is still to be written. -/
theorem Moves.writes_iff (h : Moves recognise s o v o') :
    o.Writes recognise s w ↔ ∃ more, w = v ++ more ∧ o'.Writes recognise s more := by
  constructor
  · rintro ⟨line, cur, hm⟩
    obtain ⟨more, rfl, hmore⟩ := hm.passes h
    exact ⟨more, rfl, line, cur, hmore⟩
  · rintro ⟨more, rfl, line, cur, hm⟩
    exact ⟨line, cur, h.trans hm⟩

/-- Outlines that come to the same are equal up to moves that write the same. -/
theorem Moves.writes_congr {q q' : Outline} (h : Moves recognise s o v o')
    (h' : Moves recognise s q v q')
    (hsame : ∀ more, o'.Writes recognise s more ↔ q'.Writes recognise s more) (w : Text) :
    o.Writes recognise s w ↔ q.Writes recognise s w := by
  rw [h.writes_iff, h'.writes_iff]
  simp only [hsame]

/-- From the line that settles on, the template comes to the same. -/
theorem writes_resume {p : Profile} (hp : p.IsStandard) {next next' : Line}
    (hs : next.Settled lines cur) (hs' : next'.Settled lines cur') (w : Text) :
    (⟨[.document], next, false, cur⟩ : Outline).Writes p.recognise s w ↔
      (⟨[.document], next', false, cur'⟩ : Outline).Writes p.recognise s w :=
  ⟨fun ⟨_, _, h⟩ => moves_resume hp hs hs' h, fun ⟨_, _, h⟩ => moves_resume hp hs' hs h⟩

/-- A block of the template closes at the line that settles. -/
theorem moves_block_settled (hmargin : MarginLines lines) (level : Nat) (close : Text) {next : Line}
    (hs : next.Settled lines cur) :
    ∃ next', Line.Settled lines next' cur ∧
      Moves recognise s ⟨[.block level close, .document], next, false, cur⟩ close
        ⟨[.document], next', false, cur⟩ := by
  by_cases hbody : next.body = []
  · have hnext : cur.next? = none := Cursor.next?_eq_none_iff.2 (hs.ahead_eq_nil hbody)
    exact ⟨.none, hs.of_empty hbody rfl, .single (.finish trivial hbody hnext)⟩
  · have hindent : next.indent ≤ level := hmargin.indent_eq hs hbody ▸ Nat.zero_le level
    exact ⟨next, hs, .single (.handOn (.block hbody hindent))⟩

/-- A block of the template with the line that settles comes to the same as one that has no line at
hand yet. -/
theorem writes_block_settled {p : Profile} (hp : p.IsStandard) (hmargin : MarginLines lines)
    (level : Nat) (close : Text) {line next : Line} (hbody : line.body = []) (n : Nat)
    (hs : next.Settled lines cur) (w : Text) :
    (⟨[.block level close, .document], line, false, ⟨lines, n⟩⟩ : Outline).Writes p.recognise s w ↔
      (⟨[.block level close, .document], next, false, cur⟩ : Outline).Writes p.recognise s w := by
  have hpull : (Frame.block level close).Pulls := trivial
  obtain ⟨next₁, cur₁, hs₁, hsettle⟩ :=
    moves_settle p.recognise s hpull [.document] hbody lines n
  obtain ⟨next₂, hs₂, hm⟩ := moves_block_settled hmargin level close hs₁
  obtain ⟨next₃, hs₃, hm'⟩ := moves_block_settled hmargin level close hs
  exact (hsettle.trans hm).writes_congr hm' (writes_resume hp hs₂ hs₃) w

end Outline

/-- A compilation that succeeds writes the result. -/
theorem Profile.compile_eq_ok_iff_writes {p : Profile} (hp : p.IsStandard) {depth : Nat}
    {source written : Text} :
    p.compile ⟨false, depth⟩ source = .ok written ↔ (Outline.ofDocument source).Writes p.recognise
      (p.setting (p.compileEmbedded depth depth)) written :=
  Profile.compile_eq_ok_iff hp

end TerseMarkup
