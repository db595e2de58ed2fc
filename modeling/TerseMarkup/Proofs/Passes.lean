import TerseMarkup.Proofs.Loop
import TerseMarkup.Proofs.Reading

/-!
# The loops of the readers

Five readers go on in a loop: to the end of a bracket group, atom by atom through a token or an
expression, class by class and attribute by attribute through the headline of an element. For each
of them this module gives one pass of the loop, shows that the reader does nothing but such passes
(`closePass_iterates` and so on), and that every pass but the last makes progress
(`closePass_advances` and so on).

Progress is in lines and text, in this order: a pass either pulls a line or shortens the text.
-/

namespace TerseMarkup

open Place (Before before_iff before_of_size_lt before_of_next? Leads)

/-- What a reader ends with. -/
abbrev Outcome (α : Type) : Type :=
  Except Diagnostic α × Cursor

/-! ## Groups -/

namespace Nesting

/-- One pass through a group: a mark, a new line, a string literal or a character. The state is the
depth and what has been read. -/
def closePass (n : Nesting) (state : Nat × Text) (place : Place) :
    Pass (Nat × Text) (Outcome (Text × Text)) :=
  let cur := place.cursor
  match n.mark? place.text with
  | some (.deeper, mark, rest) => .again (state.1 + 1, state.2 ++ mark) ⟨rest, cur⟩ fun r => r
  | some (.back, mark, rest) =>
    if state.1 ≤ 1 then .done (.ok (state.2 ++ mark, rest), cur)
    else .again (state.1 - 1, state.2 ++ mark) ⟨rest, cur⟩ fun r => r
  | none =>
    if atLineEnd place.text then
      match cur.next? with
      | none => .done (.error (.unterminated cur.number state.2), cur)
      | some (raw, cur') => .again state ⟨raw.trimStart, cur'⟩ fun r => r
    else
      match place.text.quoted? with
      | some (literal, rest) => .again (state.1, state.2 ++ literal) ⟨rest, cur⟩ fun r => r
      | none =>
        match place.text with
        | [] => .done (.error (.unterminated cur.number state.2), cur)
        | c :: rest => .again (state.1, state.2 ++ [c]) ⟨rest, cur⟩ fun r => r

/-- The search for a closing mark is a loop of such passes. -/
theorem closePass_iterates (n : Nesting) :
    Iterates n.closePass fun state place => n.close state.1 state.2 place.text place.cursor := by
  rintro ⟨depth, read⟩ ⟨tail, cur⟩
  simp only
  rw [close]
  unfold closePass
  split
  · rename_i mark rest h
    simp only [h]
    rfl
  · rename_i mark rest h
    simp only [h]
    split <;> rfl
  · rename_i h
    simp only [h]
    split
    · split <;> rename_i hn <;> simp only [hn] <;> rfl
    · split
      · rename_i literal rest hq
        simp only [hq]
        rfl
      · rename_i hq
        simp only [hq]
        split <;> rfl

/-- Every pass through a group makes progress. -/
theorem closePass_advances (n : Nesting) : Advances n.closePass := by
  intro state place state' place' wrap h
  unfold closePass at h
  simp only at h
  split at h
  · rename_i mark rest hm
    cases h
    exact before_iff.2 (.inr ⟨rfl, mark?_progress hm⟩)
  · rename_i mark rest hm
    split at h
    · cases h
    · cases h
      exact before_iff.2 (.inr ⟨rfl, mark?_progress hm⟩)
  · split at h
    · split at h
      · cases h
      · rename_i raw cur' hn
        cases h
        exact before_of_next? _ _ hn
    · split at h
      · rename_i literal rest hq
        cases h
        exact before_iff.2 (.inr ⟨rfl, Text.length_lt_of_quoted? hq⟩)
      · split at h
        · cases h
        · rename_i c rest ht
          cases h
          refine before_iff.2 (.inr ⟨rfl, ?_⟩)
          rw [ht]
          exact Nat.lt_succ_self _

end Nesting

/-! ## Tokens and expressions -/

/-- What an atom leaves is before the place where it was read. -/
theorem atom_before {n : Option Nesting} {c : Char} {t a rest : Text} {cur cur' : Cursor}
    (h : atom n c t cur = (.ok (a, rest), cur')) : Before ⟨rest, cur'⟩ ⟨c :: t, cur⟩ :=
  before_of_size_lt (atom_leads h).reaches (atom_progress h)

/-- Puts what an atom reads in front of what the token goes on with. -/
def prependAtom (a : Text) : Outcome (Text × Text) → Outcome (Text × Text)
  | (.error e, cur) => (.error e, cur)
  | (.ok (more, rest), cur) => (.ok (a ++ more, rest), cur)

/-- One pass through a token: a terminator or an atom. -/
def atomsPass (n : Nesting) (stops : List Text) (_ : Unit) (place : Place) :
    Pass Unit (Outcome (Text × Text)) :=
  match place.text with
  | [] => .done (.ok ([], []), place.cursor)
  | c :: t =>
    if stops.any (·.isPrefixOf (c :: t)) then .done (.ok ([], c :: t), place.cursor)
    else
      match atom (some n) c t place.cursor with
      | (.error e, cur) => .done (.error e, cur)
      | (.ok (a, rest), cur) => .again () ⟨rest, cur⟩ (prependAtom a)

/-- Reading a token is a loop of such passes. -/
theorem atomsPass_iterates (n : Nesting) (stops : List Text) :
    Iterates (atomsPass n stops) fun _ place => atoms n stops place.text place.cursor := by
  rintro ⟨⟩ ⟨tail, cur⟩
  simp only
  rw [atoms.eq_def]
  unfold atomsPass
  cases tail with
  | nil => rfl
  | cons c t =>
    simp only
    split
    · rfl
    · split <;> rename_i h <;> simp only [h] <;> rfl

/-- Every pass through a token makes progress. -/
theorem atomsPass_advances (n : Nesting) (stops : List Text) : Advances (atomsPass n stops) := by
  rintro ⟨⟩ ⟨tail, cur⟩ ⟨⟩ ⟨tail', cur'⟩ wrap h
  unfold atomsPass at h
  cases tail with
  | nil => cases h
  | cons c t =>
    simp only at h
    split at h
    · cases h
    · split at h
      · cases h
      · rename_i a rest cur₁ ha
        cases h
        exact atom_before ha

/-- There is nothing to read at the end of a text. -/
theorem atoms_nil (n : Nesting) (stops : List Text) (cur : Cursor) :
    atoms n stops [] cur = (.ok ([], []), cur) :=
  atomsPass_iterates n stops () ⟨[], cur⟩

/-- A token ends in front of a terminator. -/
theorem atoms_of_stop {n : Nesting} {stops : List Text} {c : Char} {t : Text} (cur : Cursor)
    (hstop : stops.any (·.isPrefixOf (c :: t)) = true) :
    atoms n stops (c :: t) cur = (.ok ([], c :: t), cur) := by
  have h := atomsPass_iterates n stops () ⟨c :: t, cur⟩
  simp only [atomsPass, hstop, if_true] at h
  exact h

/-- A token goes on with an atom. -/
theorem atoms_of_atom {n : Nesting} {stops : List Text} {c : Char} {t a rest : Text}
    {cur cur' : Cursor} (hstop : stops.any (·.isPrefixOf (c :: t)) = false)
    (ha : atom (some n) c t cur = (.ok (a, rest), cur')) :
    atoms n stops (c :: t) cur = prependAtom a (atoms n stops rest cur') := by
  have h := atomsPass_iterates n stops () ⟨c :: t, cur⟩
  simp only [atomsPass, hstop, ha, Bool.false_eq_true, if_false] at h
  exact h

/-- Puts a continuation and what an atom reads in front of what the expression goes on with. -/
def prependPiece (found : Bool) (a : Text) : Outcome Text → Outcome Text
  | (.error e, cur) => (.error e, cur)
  | (.ok more, cur) => (.ok (breakText found ++ a ++ more), cur)

/-- One pass through an expression: continuations, and then an atom. -/
def expressionPass (_ : Unit) (place : Place) : Pass Unit (Outcome Text) :=
  if place.text.isEmpty then .done (.ok [], place.cursor)
  else
    match followBreaks place.text place.cursor with
    | (found, [], cur) => .done (.ok (breakText found), cur)
    | (found, c :: t, cur) =>
      match atom none c t cur with
      | (.error e, cur') => .done (.error e, cur')
      | (.ok (a, rest), cur') => .again () ⟨rest, cur'⟩ (prependPiece found a)

/-- Reading an expression is a loop of such passes. -/
theorem expressionPass_iterates :
    Iterates expressionPass fun _ place => expressionAtoms place.text place.cursor := by
  rintro ⟨⟩ ⟨tail, cur⟩
  simp only
  rw [expressionAtoms]
  unfold expressionPass
  simp only
  split
  · rfl
  · split
    · rename_i found cur' hs
      simp only [hs]
      rfl
    · rename_i found c t cur' hs
      simp only [hs]
      split <;> rename_i ha <;> simp only [ha] <;> rfl

/-- There is nothing to read at the end of an expression. -/
theorem expressionAtoms_nil (cur : Cursor) : expressionAtoms [] cur = (.ok [], cur) :=
  expressionPass_iterates () ⟨[], cur⟩

/-- An expression goes on with an atom. -/
theorem expressionAtoms_of_atom {found : Bool} {c : Char} {t u a rest : Text}
    {cur cur₁ cur₂ : Cursor} (hne : t.isEmpty = false)
    (hb : followBreaks t cur = (found, c :: u, cur₁))
    (ha : atom none c u cur₁ = (.ok (a, rest), cur₂)) :
    expressionAtoms t cur = prependPiece found a (expressionAtoms rest cur₂) := by
  have h := expressionPass_iterates () ⟨t, cur⟩
  simp only [expressionPass, hne, hb, ha, Bool.false_eq_true, if_false] at h
  exact h

/-- Every pass through an expression makes progress. -/
theorem expressionPass_advances : Advances expressionPass := by
  rintro ⟨⟩ ⟨tail, cur⟩ ⟨⟩ ⟨tail', cur'⟩ wrap h
  unfold expressionPass at h
  simp only at h
  split at h
  · cases h
  · split at h
    · cases h
    · rename_i found c t cur₁ hs
      split at h
      · cases h
      · rename_i a rest cur₂ ha
        cases h
        have hb := followBreaks_leads hs
        exact before_of_size_lt (hb.trans (atom_leads ha)).reaches
          (Nat.lt_of_lt_of_le (atom_progress ha) hb.size_le)

/-! ## Classes and attributes of an element -/

/-- Puts a class in front of the classes that follow it. -/
def prependClass (name : Text) : Outcome (List Text × Text) → Outcome (List Text × Text)
  | (.error e, cur) => (.error e, cur)
  | (.ok (classes, rest), cur) => (.ok (Text.trimEnd (name.drop 1) :: classes, rest), cur)

/-- One pass through the classes of an element. -/
def classPass (d : Delimiters) (_ : Unit) (place : Place) :
    Pass Unit (Outcome (List Text × Text)) :=
  match token? d.placeholder ['.'] shortcutStops place.text place.cursor with
  | (.error e, cur) => .done (.error e, cur)
  | (.ok none, cur) => .done (.ok ([], place.text), cur)
  | (.ok (some (name, rest)), cur) => .again () ⟨rest, cur⟩ (prependClass name)

/-- Reading the classes is a loop of such passes. -/
theorem classPass_iterates (d : Delimiters) :
    Iterates (classPass d) fun _ place => classShortcuts d place.text place.cursor := by
  rintro ⟨⟩ ⟨t, cur⟩
  simp only
  rw [classShortcuts]
  unfold classPass
  simp only
  split <;> rename_i h <;> simp only [h] <;> rfl

/-- Every pass through the classes makes progress. -/
theorem classPass_advances (d : Delimiters) : Advances (classPass d) := by
  rintro ⟨⟩ ⟨t, cur⟩ ⟨⟩ ⟨t', cur'⟩ wrap h
  unfold classPass at h
  simp only at h
  split at h
  · cases h
  · cases h
  · rename_i name rest cur₁ ht
    cases h
    exact before_of_size_lt (token?_leads ht).reaches (token?_progress ht (.inl (by simp)))

/-- One pass through the attributes of an element: continuations, and then a mapping, an attribute
or, inside parentheses, a new line. -/
def attributePass (d : Delimiters) (parens : Bool) (line idText : Text) (list : AttributeList)
    (place : Place) : Pass AttributeList (Outcome (AttributeList × Text)) :=
  match followBreaks place.text.trimStart place.cursor with
  | (_, t, cur₁) =>
    match splat? d parens t cur₁ with
    | (.error e, cur₂) => .done (.error e, cur₂)
    | (.ok (some (text, rest)), cur₂) =>
      .again ⟨list.pairs ++ [text], list.classes⟩ ⟨rest, cur₂⟩ fun r => r
    | (.ok none, cur₂) =>
      match attribute? d parens t cur₂ with
      | (.error e, cur₃) => .done (.error e, cur₃)
      | (.ok (some (pair, rest)), cur₃) =>
        if "id=\"".toList.isPrefixOf pair ∧ idText ≠ [] then
          .done (.error (secondId line cur₃.number), cur₃)
        else .again (list.add pair) ⟨rest, cur₃⟩ fun r => r
      | (.ok none, cur₃) =>
        if parens ∧ t = [] then
          match cur₃.next? with
          | none => .done (.error (unclosedParens line cur₃.number), cur₃)
          | some (raw, cur₄) => .again list ⟨raw, cur₄⟩ fun r => r
        else .done (.ok (list, t), cur₃)

/-- Reading the attributes is a loop of such passes. -/
theorem attributePass_iterates (d : Delimiters) (parens : Bool) (line idText : Text) :
    Iterates (attributePass d parens line idText) fun list place =>
      readAttributes d parens line idText list place.text place.cursor := by
  rintro list ⟨tail, cur⟩
  simp only
  rw [readAttributes, attributePass]
  split
  rename_i t cur₁ hb
  simp only [hb]
  split
  · rename_i hs
    simp only [hs]
    rfl
  · rename_i hs
    simp only [hs]
    rfl
  · rename_i hs
    simp only [hs]
    split
    · rename_i ha
      simp only [ha]
      rfl
    · rename_i ha
      simp only [ha]
      split <;> rfl
    · rename_i ha
      simp only [ha]
      split
      · split <;> rename_i hn <;> simp only [hn] <;> rfl
      · rfl

/-- A pass that goes on at a place it leads to, with progress and without touching the result, or
ends with a place it leads to. -/
def Pass.Follows (place : Place) {σ α : Type} : Pass σ (Outcome (α × Text)) → Prop
  | .done (r, cur) => place.cursor.Reaches cur ∧ ∀ v rest, r = .ok (v, rest) →
      place.Leads ⟨rest, cur⟩
  | .again _ place' wrap => place.Leads place' ∧ place'.Before place ∧ wrap = fun r => r

/-- A fault may end a pass anywhere further on. -/
theorem Pass.follows_error {place : Place} {σ α : Type} {cur : Cursor} {e : Diagnostic}
    (h : place.cursor.Reaches cur) :
    Pass.Follows place (.done (.error e, cur) : Pass σ (Outcome (α × Text))) :=
  ⟨h, fun _ _ heq => nomatch heq⟩

/-- A pass through the attributes goes on at a place that it leads to, or ends at one. -/
theorem attributePass_follows (d : Delimiters) (parens : Bool) (line idText : Text)
    (list : AttributeList) (place : Place) :
    (attributePass d parens line idText list place).Follows place := by
  have htrim : place.Leads ⟨place.text.trimStart, place.cursor⟩ :=
    Place.leads_of_suffix place.cursor (Text.trimStart_suffix place.text)
  unfold attributePass
  split
  rename_i found t cur₁ hb
  have hl := htrim.trans (followBreaks_leads hb)
  have hsplat := reaches_splat? d parens t cur₁
  split
  · rename_i e cur₂ hs
    rw [hs] at hsplat
    exact Pass.follows_error (hl.reaches.trans hsplat)
  · rename_i text rest cur₂ hs
    have hrest := hl.trans (splat?_leads hs)
    exact ⟨hrest, before_of_size_lt hrest.reaches
      (Nat.lt_of_lt_of_le (splat?_progress hs) hl.size_le), rfl⟩
  · rename_i cur₂ hs
    rw [hs] at hsplat
    -- A mapping that was declined may have pulled lines; the text at hand is still the same.
    have hl₂ := hl.trans (Place.leads_of_reaches t hsplat)
    have hattr := reaches_attribute? d parens t cur₂
    split
    · rename_i e cur₃ ha
      rw [ha] at hattr
      exact Pass.follows_error (hl₂.reaches.trans hattr)
    · rename_i pair rest cur₃ ha
      have hrest := hl₂.trans (attribute?_leads ha)
      split
      · exact Pass.follows_error hrest.reaches
      · exact ⟨hrest, before_of_size_lt hrest.reaches
          (Nat.lt_of_lt_of_le (attribute?_progress ha) hl₂.size_le), rfl⟩
    · rename_i cur₃ ha
      rw [ha] at hattr
      have hl₃ := hl₂.trans (Place.leads_of_reaches t hattr)
      split
      · split
        · exact Pass.follows_error hl₃.reaches
        · rename_i raw cur₄ hn
          have hraw := hl₃.trans (Place.leads_of_next? t hn (List.suffix_refl raw))
          refine ⟨hraw, before_of_size_lt hraw.reaches ?_, rfl⟩
          have hle : cur₃.size + t.length ≤ place.cursor.size + place.text.length := hl₃.size_le
          have := Cursor.size_of_next? hn
          show cur₄.size + raw.length < _
          omega
      · refine ⟨hl₃.reaches, fun list' rest heq => ?_⟩
        cases heq
        exact hl₃

/-- Every pass through the attributes makes progress. -/
theorem attributePass_advances (d : Delimiters) (parens : Bool) (line idText : Text) :
    Advances (attributePass d parens line idText) := by
  intro list place list' place' wrap h
  have hf := attributePass_follows d parens line idText list place
  rw [h] at hf
  exact hf.2.1

/-- Reading attributes never moves the cursor back, and what it leaves is the end of the text it was
given or of a line it has pulled. -/
theorem readAttributes_follows (d : Delimiters) (parens : Bool) (line idText : Text)
    (list : AttributeList) (place : Place) :
    place.cursor.Reaches
        (readAttributes d parens line idText list place.text place.cursor).2 ∧
      ∀ list' rest, (readAttributes d parens line idText list place.text place.cursor).1 =
        .ok (list', rest) → place.Leads
          ⟨rest, (readAttributes d parens line idText list place.text place.cursor).2⟩ := by
  refine (attributePass_iterates d parens line idText).induction
    (attributePass_advances d parens line idText)
    (Q := fun _ place r => place.cursor.Reaches r.2 ∧
      ∀ list' rest, r.1 = .ok (list', rest) → place.Leads ⟨rest, r.2⟩) ?_ ?_ list place
  · intro list place r h
    have hf := attributePass_follows d parens line idText list place
    rw [h] at hf
    exact hf
  · intro list place list' place' wrap h ih
    have hf := attributePass_follows d parens line idText list place
    rw [h] at hf
    obtain ⟨hl, -, rfl⟩ := hf
    exact ⟨hl.reaches.trans ih.1, fun list'' rest heq => hl.trans (ih.2 list'' rest heq)⟩

/-- What follows the attributes is the end of the text, or of a line pulled for them. -/
theorem readAttributes_leads {d : Delimiters} {parens : Bool} {line idText tail rest : Text}
    {list list' : AttributeList} {cur cur' : Cursor}
    (h : readAttributes d parens line idText list tail cur = (.ok (list', rest), cur')) :
    Leads ⟨tail, cur⟩ ⟨rest, cur'⟩ := by
  have hf := (readAttributes_follows d parens line idText list ⟨tail, cur⟩).2 list' rest
  rw [h] at hf
  exact hf rfl

end TerseMarkup
