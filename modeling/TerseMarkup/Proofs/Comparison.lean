import TerseMarkup.Proofs.Trimming
import TerseMarkup.Proofs.Yield

/-!
# Two readings side by side

A template can be read twice, with other delimiters or with another compiler for the markup embedded
in it. A `Comparison` holds the delimiters of both readings, and the faults at which the first one
may stop while the second one goes on.

If the delimiters are the same, the readings write the same. If not, both kinds have to open values
with a curly bracket, and none may stand in what is read (`Comparison.Blind`): then neither reading
finds a placeholder, and the delimiters show in what is written only. What is written is blank in
both readings or in neither (`Comparison.Texts`), and this is all that a reading may ask about it.

* `Comparison.Scans` relates what two readers come to; it is carried through binds
  (`Comparison.Scans.bind`).
* `Comparison.BlindAt.token?_eq`: tokens are the same in both readings.
* `Comparison.Settings.scans_read`: the headlines of elements are alike.
-/

namespace TerseMarkup

open Place (Leads Yields yields_of_isInfix)

/-! ## Texts that are not blank -/

/-- Something other than blanks stands in the text. -/
def Text.Solid (t : Text) : Prop :=
  ∃ c ∈ t, isBlank c = false

namespace Text

variable {t u : Text}

/-- A text is not blank if one of its two parts is not. -/
theorem solid_append : Solid (t ++ u) ↔ Solid t ∨ Solid u := by
  constructor
  · rintro ⟨c, hc, hblank⟩
    exact (List.mem_append.1 hc).imp (fun h => ⟨c, h, hblank⟩) fun h => ⟨c, h, hblank⟩
  · rintro (⟨c, hc, hblank⟩ | ⟨c, hc, hblank⟩)
    · exact ⟨c, List.mem_append_left u hc, hblank⟩
    · exact ⟨c, List.mem_append_right t hc, hblank⟩

/-- What is not blank stays so with more behind it. -/
theorem Solid.append (h : Solid t) (u : Text) : Solid (t ++ u) :=
  solid_append.2 (.inl h)

/-- What is not blank stays so with more in front of it. -/
theorem Solid.prepend (h : Solid u) (t : Text) : Solid (t ++ u) :=
  solid_append.2 (.inr h)

/-- A text that starts with something other than a blank is not blank. -/
theorem solid_of_head? {c : Char} (h : t.head? = some c) (hc : isBlank c = false) : Solid t :=
  ⟨c, List.mem_of_mem_head? h, hc⟩

/-- A text is blank if trimming leaves nothing of it. -/
theorem solid_iff : Solid t ↔ t.trim ≠ [] := by
  rw [ne_eq, trim_eq_nil_iff]
  constructor
  · rintro ⟨c, hc, hblank⟩ hall
    rw [hall c hc] at hblank
    cases hblank
  · intro h
    obtain ⟨c, hc⟩ := Classical.not_forall.1 h
    obtain ⟨hmem, hblank⟩ := Classical.not_imp.1 hc
    exact ⟨c, hmem, Bool.eq_false_iff.2 hblank⟩

instance decidableSolid (t : Text) : Decidable (Solid t) :=
  List.decidableBEx (isBlank · = false) t

/-- Trimming the end drops blanks only. -/
theorem Solid.trimEnd (h : Solid t) : Solid t.trimEnd := by
  obtain ⟨c, hc, hblank⟩ := h
  obtain ⟨u, hu, hall⟩ := exists_trimEnd_append t
  rw [hu] at hc
  rcases List.mem_append.1 hc with hc | hc
  · exact ⟨c, hc, hblank⟩
  · rw [List.all_eq_true.1 hall c hc] at hblank
    cases hblank

/-- What is left of a text whose end is trimmed ends in something else than a blank. -/
theorem solid_trimEnd (h : t.trimEnd ≠ []) : Solid t.trimEnd := by
  obtain ⟨c, hc⟩ := Option.isSome_iff_exists.1 (List.getLast?_isSome.2 h)
  exact ⟨c, List.mem_of_getLast? hc, isBlank_getLast?_trimEnd hc⟩

end Text

/-! ## Delimiters with curly brackets -/

/-- Values open with a curly bracket, or with a dollar sign and one. -/
def Delimiters.Curly (d : Delimiters) : Prop :=
  ['\x7b'] <+: d.variableStart ∨ "$\x7b".toList <+: d.variableStart

namespace Delimiters.Curly

variable {d : Delimiters}

/-- The bracket that opens values is in their opening delimiter. -/
theorem mem_variableStart (h : d.Curly) : '\x7b' ∈ d.variableStart := by
  rcases h with h | h
  · exact h.subset (by decide)
  · exact h.subset (by decide)

/-- A value is never blank, since its opening delimiter is not. -/
theorem solid_value (h : d.Curly) (expr : Text) : Text.Solid (d.value expr) := by
  have hstart : d.variableStart.Solid := ⟨_, h.mem_variableStart, by decide⟩
  unfold value
  exact (hstart.append expr).append d.variableEnd

/-- A switch is not taken for an id. -/
theorem isPrefixOf_switch (h : d.Curly) (name value : Text) :
    "id=\"".toList.isPrefixOf (d.switch name value) = false := by
  unfold switch
  rcases h with ⟨t, ht⟩ | ⟨t, ht⟩ <;> rw [← ht] <;> rfl

/-- Without curly brackets there is no placeholder. -/
theorem group?_eq (h : d.Curly) {t : Text} (ht : '\x7b' ∉ t) (cur : Cursor) :
    d.placeholder.group? t cur = (.ok none, cur) := by
  have hafter : Text.after? d.variableStart t = none := by
    cases hr : Text.after? d.variableStart t with
    | none => rfl
    | some rest =>
      refine absurd ?_ ht
      rw [Text.after?_eq_some_iff.1 hr]
      exact List.mem_append_left rest h.mem_variableStart
  have hopening : d.placeholder.opening? t = none := by
    simp only [placeholder, Nesting.opening?, hafter, Option.map_none, ite_self]
  unfold Nesting.group?
  rw [hopening]

end Delimiters.Curly

/-! ## Comparisons -/

/-- The delimiters of two readings, and the faults at which the first may stop early. Such a fault
is one at every line, and it is never a line that no rule recognises: in embedded markup that is no
fault, and the reading would go on. -/
structure Comparison where
  left : Delimiters
  right : Delimiters
  excused : Diagnostic → Prop
  excused_atLine {e : Diagnostic} (n : Nat) : excused e → excused (e.atLine n)
  not_excused_unrecognised (n : Nat) (body : Text) : ¬ excused (.unrecognised n body)

namespace Comparison

variable {κ : Comparison} {α β : Type} {t t' u u' : Text} {cur : Cursor} {place place' : Place}

/-- The two are the same if the delimiters are. -/
def Same (κ : Comparison) (a a' : α) : Prop :=
  κ.right = κ.left → a' = a

/-- What two readings write: it is the same if the delimiters are, and both or neither is blank. -/
structure Texts (κ : Comparison) (t t' : Text) : Prop where
  same : κ.Same t t'
  solid : t.Solid ↔ t'.Solid

/-- Both readings may write the same. -/
theorem Texts.refl (t : Text) : κ.Texts t t :=
  ⟨fun _ => rfl, Iff.rfl⟩

/-- What is not blank in both readings is blank in neither. -/
theorem texts_of_solid (hsame : κ.Same t t') (ht : t.Solid) (ht' : t'.Solid) : κ.Texts t t' :=
  ⟨hsame, iff_of_true ht ht'⟩

/-- Alike texts can be put together. -/
theorem Texts.append (h : κ.Texts t t') (h' : κ.Texts u u') : κ.Texts (t ++ u) (t' ++ u') := by
  refine ⟨fun heq => ?_, ?_⟩
  · rw [h.same heq, h'.same heq]
  · rw [Text.solid_append, Text.solid_append, h.solid, h'.solid]

/-- A text is trimmed to nothing in both readings or in neither. -/
theorem Texts.isEmpty_trim (h : κ.Texts t t') : t'.trim.isEmpty = t.trim.isEmpty := by
  have hiff := not_congr h.solid
  rw [Text.solid_iff, Text.solid_iff, ne_eq, ne_eq, Classical.not_not, Classical.not_not] at hiff
  rw [Bool.eq_iff_iff, List.isEmpty_iff, List.isEmpty_iff, hiff]

/-- The delimiters make no difference to the reading of the text: they are the same, or both open
values with a curly bracket and there is none. -/
def Blind (κ : Comparison) (t : Text) : Prop :=
  κ.right = κ.left ∨ κ.left.Curly ∧ κ.right.Curly ∧ '\x7b' ∉ t

/-- The delimiters make no difference to any reading from a place on. -/
def BlindAt (κ : Comparison) (place : Place) : Prop :=
  κ.Blind (place.text ++ place.cursor.ahead.flatten)

/-- A text with no more curly brackets than another is as blind to the delimiters. -/
theorem Blind.of_count_le (h : κ.Blind t) (hle : u.count '\x7b' ≤ t.count '\x7b') : κ.Blind u := by
  refine h.imp_right fun ⟨hleft, hright, hnone⟩ => ⟨hleft, hright, ?_⟩
  have hzero := List.count_eq_zero.2 hnone
  exact List.count_eq_zero.1 (by omega)

/-- A reading stays blind to the delimiters as it goes on. -/
theorem BlindAt.of_yields (h : κ.BlindAt place) (hyields : place.Yields place') :
    κ.BlindAt place' := by
  refine h.of_count_le ?_
  rw [List.count_append, List.count_append]
  exact hyields.count_le _ (by decide)

/-- A place that is blind to the delimiters has such a text at hand. -/
theorem BlindAt.text (h : κ.BlindAt ⟨t, cur⟩) : κ.Blind t := by
  refine h.of_count_le ?_
  rw [List.count_append]
  exact Nat.le_add_right _ _

/-- Values are alike, whatever the delimiters have to do with what is in them. -/
theorem Blind.value (h : κ.Blind t) (expr : Delimiters → Text) :
    κ.Texts (κ.left.value (expr κ.left)) (κ.right.value (expr κ.right)) := by
  rcases h with heq | ⟨hleft, hright, -⟩
  · rw [heq]
    exact .refl _
  · refine texts_of_solid (fun heq => ?_) (hleft.solid_value _) (hright.solid_value _)
    rw [heq]

/-! ## What readers come to -/

/-- What two readers come to: both succeed with related results, or both fail with the same fault.
Their cursors are the same. -/
inductive Outcomes (V : α → α → Prop) : Outcome α → Outcome α → Prop
  | ok {a a' : α} {cur : Cursor} (h : V a a') : Outcomes V (.ok a, cur) (.ok a', cur)
  | error (e : Diagnostic) (cur : Cursor) : Outcomes V (.error e, cur) (.error e, cur)

/-- Two scans come to the like from a cursor, or the first one stops early. -/
def Scans (κ : Comparison) (V : α → α → Prop) (cur : Cursor) (x x' : Scan α) : Prop :=
  Outcomes V (x cur) (x' cur) ∨ ∃ e cur', x cur = (.error e, cur') ∧ κ.excused e

variable {V : α → α → Prop} {W : β → β → Prop}

/-- Equal outcomes are alike. -/
theorem Outcomes.of_eq {r r' : Outcome α} (h : r' = r) (hV : ∀ a, V a a) : Outcomes V r r' := by
  subst h
  obtain ⟨e | a, cur⟩ := r'
  · exact .error e cur
  · exact .ok (hV a)

/-- Handing back related values is alike. -/
theorem scans_pure {a a' : α} (h : V a a') : κ.Scans V cur (pure a) (pure a') :=
  .inl (.ok h)

/-- A scan is like itself. -/
theorem scans_refl (hV : ∀ a, V a a) (x : Scan α) : κ.Scans V cur x x :=
  .inl (.of_eq rfl hV)

/-- Scans that are alike can be followed by scans that are, on related values. -/
theorem Scans.bind {x x' : Scan α} {f f' : α → Scan β} (hx : κ.Scans V cur x x')
    (hf : ∀ a a' cur', x cur = (.ok a, cur') → V a a' → κ.Scans W cur' (f a) (f' a')) :
    κ.Scans W cur (x >>= f) (x' >>= f') := by
  rcases hx with hx | ⟨e, cur', hfault, he⟩
  · unfold Scans
    rw [Scan.bind_apply, Scan.bind_apply]
    generalize hr : x cur = r at hx
    generalize x' cur = r' at hx
    cases hx with
    | ok hV => exact hf _ _ _ hr hV
    | error e cur => exact .inl (.error e cur)
  · exact .inr ⟨e, cur', Scan.bind_eq_error_iff.2 (.inl hfault), he⟩

/-- If the first scan succeeds, so does the second, with a related value. -/
theorem Scans.of_ok {x x' : Scan α} {a : α} {cur' : Cursor} (h : κ.Scans V cur x x')
    (hx : x cur = (.ok a, cur')) : ∃ a', x' cur = (.ok a', cur') ∧ V a a' := by
  rcases h with h | ⟨e, cur₁, hfault, -⟩
  · rw [hx] at h
    generalize x' cur = r' at h
    cases h with
    | ok hV => exact ⟨_, rfl, hV⟩
  · cases hx.symm.trans hfault

/-- If the first scan fails, the second fails likewise, unless the fault is excused. -/
theorem Scans.of_error {x x' : Scan α} {e : Diagnostic} {cur' : Cursor} (h : κ.Scans V cur x x')
    (hx : x cur = (.error e, cur')) : x' cur = (.error e, cur') ∨ κ.excused e := by
  rcases h with h | ⟨e, cur₁, hfault, he⟩
  · rw [hx] at h
    generalize x' cur = r' at h
    cases h with
    | error => exact .inl rfl
  · cases hx.symm.trans hfault
    exact .inr he

/-! ## Tokens -/

/-- Places that can be reached are as blind as the place they are reached from. -/
theorem BlindAt.of_leads (h : κ.BlindAt place) (hleads : place.Leads place') : κ.BlindAt place' :=
  h.of_yields hleads.yields

namespace BlindAt

/-- Where no placeholder can open, an atom is the same with both delimiters. -/
theorem atom_eq {c : Char} (h : κ.BlindAt ⟨c :: t, cur⟩) :
    atom (some κ.right.placeholder) c t cur = atom (some κ.left.placeholder) c t cur := by
  rcases h.text with heq | ⟨hleft, hright, hnone⟩
  · rw [heq]
  · have hgroup {d : Delimiters} (hd : d.Curly) :
        groupOf? (some d.placeholder) (c :: t) cur = (.ok none, cur) := hd.group?_eq hnone cur
    unfold atom
    rw [hgroup hleft, hgroup hright]

/-- A pass through a token is the same with both delimiters. -/
theorem atomsPass_eq {stops : List Text} (h : κ.BlindAt place) :
    atomsPass κ.right.placeholder stops () place = atomsPass κ.left.placeholder stops () place := by
  obtain ⟨t, cur⟩ := place
  cases t with
  | nil => rfl
  | cons c t =>
    unfold atomsPass
    simp only [h.atom_eq]

/-- Atoms up to a stop are the same with both delimiters. -/
theorem atoms_eq {stops : List Text} (h : κ.BlindAt ⟨t, cur⟩) :
    atoms κ.right.placeholder stops t cur = atoms κ.left.placeholder stops t cur := by
  refine (atomsPass_iterates κ.left.placeholder stops).congr (atomsPass_advances _ _)
    (atomsPass_iterates κ.right.placeholder stops) (fun _ _ hplace => hplace.atomsPass_eq)
    ?_ () ⟨t, cur⟩ h
  intro _ place _ place' wrap hagain hplace
  unfold atomsPass at hagain
  split at hagain
  · cases hagain
  · rename_i c t htext
    split at hagain
    · cases hagain
    · split at hagain
      · cases hagain
      · rename_i a rest cur' ha
        cases hagain
        obtain ⟨text, cur⟩ := place
        subst htext
        exact hplace.of_leads (atom_leads ha)

/-- Tokens are the same with both delimiters. -/
theorem token?_eq {lead : Text} {stops : List Text} (h : κ.BlindAt ⟨t, cur⟩) :
    token? κ.right.placeholder lead stops t cur = token? κ.left.placeholder lead stops t cur := by
  unfold token?
  split
  · rfl
  · cases hafter : Text.after? lead t with
    | none => rfl
    | some rest =>
      have hleads := Place.leads_of_suffix cur (Text.suffix_of_after? hafter)
      simp only [(h.of_leads hleads).atoms_eq]

/-- A pass through the classes is the same with both delimiters. -/
theorem classPass_eq (h : κ.BlindAt place) :
    classPass κ.right () place = classPass κ.left () place := by
  unfold classPass
  rw [h.token?_eq]

/-- Classes are the same with both delimiters. -/
theorem classShortcuts_eq (h : κ.BlindAt ⟨t, cur⟩) :
    classShortcuts κ.right t cur = classShortcuts κ.left t cur := by
  refine (classPass_iterates κ.left).congr (classPass_advances _) (classPass_iterates κ.right)
    (fun _ _ hplace => hplace.classPass_eq) ?_ () ⟨t, cur⟩ h
  intro _ place _ place' wrap hagain hplace
  unfold classPass at hagain
  split at hagain
  · cases hagain
  · cases hagain
  · rename_i ht
    cases hagain
    exact hplace.of_leads (token?_leads ht)

/-- Reading a token is alike in both readings. -/
theorem scans_token? {lead : Text} {stops : List Text} (h : κ.BlindAt ⟨t, cur⟩) :
    κ.Scans Eq cur (token? κ.left.placeholder lead stops t)
      (token? κ.right.placeholder lead stops t) :=
  .inl (.of_eq h.token?_eq fun _ => rfl)

/-- The id behind its mark is alike in both readings. -/
theorem scans_idShortcut (h : κ.BlindAt ⟨t, cur⟩) :
    κ.Scans Eq cur (idShortcut κ.left t) (idShortcut κ.right t) := by
  apply Scans.bind h.scans_token?
  rintro found _ cur' - rfl
  exact scans_refl (fun _ => rfl) _

/-- The classes behind their dots are alike in both readings. -/
theorem scans_classShortcuts (h : κ.BlindAt ⟨t, cur⟩) :
    κ.Scans Eq cur (classShortcuts κ.left t) (classShortcuts κ.right t) :=
  .inl (.of_eq h.classShortcuts_eq fun _ => rfl)

/-! ## Attributes -/

/-- Reading a value off a text is the same. -/
theorem unwrapValue_eq (h : κ.BlindAt ⟨t, cur⟩) (token : Text) :
    unwrapValue κ.right t token = unwrapValue κ.left t token := by
  rcases h.text with heq | ⟨hleft, hright, hnone⟩
  · rw [heq]
  · have hpre {d : Delimiters} (hd : d.Curly) :
        ¬ (d.variableStart ≠ [] ∧ d.variableStart.isPrefixOf t = true) := by
      rintro ⟨-, hpre⟩
      exact hnone ((List.isPrefixOf_iff_prefix.1 hpre).subset hd.mem_variableStart)
    unfold unwrapValue
    rw [if_neg (hpre hleft), if_neg (hpre hright)]

end BlindAt

/-- What two readings write for an attribute: it is the same if the delimiters are, and an id in
both or in neither. What follows it is the same. -/
structure Attributes (κ : Comparison) (found found' : Text × Text) : Prop where
  same : κ.Same found.1 found'.1
  isId : "id=\"".toList.isPrefixOf found'.1 = "id=\"".toList.isPrefixOf found.1
  rest : found'.2 = found.2

/-- An attribute is like itself. -/
theorem Attributes.refl (found : Text × Text) : κ.Attributes found found :=
  ⟨fun _ => rfl, rfl, rfl⟩

/-- The attributes that two readings have collected, and what follows them. -/
def AttributeLists (κ : Comparison) (found found' : AttributeList × Text) : Prop :=
  κ.Same found.1 found'.1 ∧ found'.2 = found.2

/-- What two passes over the attributes come to: both are the last one, or both go on at the same
place. -/
inductive Passes (κ : Comparison) : Pass AttributeList (Outcome (AttributeList × Text)) →
    Pass AttributeList (Outcome (AttributeList × Text)) → Prop
  | done {r r' : Outcome (AttributeList × Text)} (h : Outcomes κ.AttributeLists r r') :
      Passes κ (.done r) (.done r')
  | again {list list' : AttributeList} {place : Place} (hlist : κ.Same list list')
      (h : κ.BlindAt place) :
      Passes κ (.again list place fun r => r) (.again list' place fun r => r)

/-- Whether an attribute is an id is seen before its value. -/
theorem isPrefixOf_attributePair (name value value' : Text) :
    "id=\"".toList.isPrefixOf (attributePair name value') =
      "id=\"".toList.isPrefixOf (attributePair name value) := by
  rcases name with _ | ⟨a, _ | ⟨b, _ | ⟨c, _ | ⟨d, name⟩⟩⟩⟩ <;> rfl

theorem option_rel_refl (hV : ∀ a, V a a) (found : Option α) : Option.Rel V found found := by
  cases found with
  | none => exact .none
  | some a => exact .some (hV a)

namespace BlindAt

/-- A mapping is expanded alike: the loop that is written shows the delimiters, and is no id in
either reading. -/
theorem splat?_alike (parens : Bool) (h : κ.BlindAt ⟨t, cur⟩) :
    Outcomes (Option.Rel κ.Attributes) (splat? κ.left parens t cur)
      (splat? κ.right parens t cur) := by
  unfold splat?
  cases hafter : Text.after? "**".toList t with
  | none => exact .ok .none
  | some rest =>
    have hleads := Place.leads_of_suffix cur (Text.suffix_of_after? hafter)
    simp only [(h.of_leads hleads).token?_eq]
    rcases token? κ.left.placeholder [] (splatStops parens) rest cur with
      ⟨e | _ | ⟨mapping, rest'⟩, cur'⟩
    · exact .error e cur'
    · exact .ok .none
    · simp only
      split
      · exact .ok .none
      · refine .ok (.some ⟨fun heq => ?_, rfl, rfl⟩)
        rw [heq]

/-- The value of an attribute is alike: only what is written for it shows the delimiters. -/
theorem assignment?_alike (parens : Bool) (name : Text) (h : κ.BlindAt ⟨t, cur⟩) :
    Outcomes (Option.Rel κ.Attributes) (assignment? κ.left parens name t cur)
      (assignment? κ.right parens name t cur) := by
  unfold assignment?
  split
  · exact .ok (option_rel_refl .refl _)
  · split
    · exact .ok (option_rel_refl .refl _)
    · simp only [h.token?_eq, h.unwrapValue_eq]
      rcases token? κ.left.placeholder [] (valueStops parens) t cur with
        ⟨e | _ | ⟨token, rest⟩, cur'⟩
      · exact .error e cur'
      · exact .ok .none
      · simp only
        split
        · refine .ok (.some ⟨fun heq => ?_, ?_, rfl⟩)
          · rw [heq]
          · rcases h.text with heq | ⟨hleft, hright, -⟩
            · rw [heq]
            · simp only [hleft.isPrefixOf_switch, hright.isPrefixOf_switch]
        · refine .ok (.some ⟨fun heq => ?_, isPrefixOf_attributePair _ _ _, rfl⟩)
          rw [heq]

/-- An attribute is alike in both readings. -/
theorem attribute?_alike (parens : Bool) (h : κ.BlindAt ⟨t, cur⟩) :
    Outcomes (Option.Rel κ.Attributes) (attribute? κ.left parens t cur)
      (attribute? κ.right parens t cur) := by
  unfold attribute?
  simp only [h.token?_eq]
  cases htoken : token? κ.left.placeholder [] (nameStops parens) t cur with
  | mk r cur' =>
    rcases r with e | _ | ⟨name, rest⟩
    · exact .error e cur'
    · exact .ok .none
    · simp only
      split
      · exact .ok .none
      · split
        · rename_i u hu
          have hleads := (token?_leads htoken).trans
            (Place.leads_of_suffix cur' (Text.suffix_of_after? hu))
          exact (h.of_leads hleads).assignment?_alike parens name
        · split
          · exact .ok (option_rel_refl .refl _)
          · exact .ok .none

/-- A pass through the attributes does the like, and finds a second id in both readings or in
neither. -/
theorem attributePass_alike (parens : Bool) (line idText : Text) {list list' : AttributeList}
    (hlist : κ.Same list list') (h : κ.BlindAt place) :
    κ.Passes (attributePass κ.left parens line idText list place)
      (attributePass κ.right parens line idText list' place) := by
  unfold attributePass
  cases hbreaks : followBreaks place.text.trimStart place.cursor with
  | mk found rest =>
    obtain ⟨t, cur₁⟩ := rest
    have htrim : place.Leads ⟨place.text.trimStart, place.cursor⟩ :=
      Place.leads_of_suffix place.cursor (Text.trimStart_suffix place.text)
    have h₁ := h.of_leads (htrim.trans (followBreaks_leads hbreaks))
    have hsplat := h₁.splat?_alike parens
    simp only
    generalize hs : splat? κ.left parens t cur₁ = r at hsplat
    generalize splat? κ.right parens t cur₁ = r' at hsplat
    cases hsplat with
    | error e cur₂ => exact .done (.error e cur₂)
    | @ok found₁ found₁' cur₂ hfound =>
      cases hfound with
      | @some found₂ found₂' hpair =>
        obtain ⟨text, rest⟩ := found₂
        obtain ⟨text', rest'⟩ := found₂'
        obtain ⟨hsame, -, rfl⟩ := hpair
        refine .again (fun heq => ?_) (h₁.of_leads (splat?_leads hs))
        rw [hlist heq, show text' = text from hsame heq]
      | none =>
        have hreach := reaches_splat? κ.left parens t cur₁
        rw [hs] at hreach
        have h₂ := h₁.of_leads (Place.leads_of_reaches t hreach)
        have hattribute := h₂.attribute?_alike parens
        simp only
        generalize ha : attribute? κ.left parens t cur₂ = r at hattribute
        generalize attribute? κ.right parens t cur₂ = r' at hattribute
        cases hattribute with
        | error e cur₃ => exact .done (.error e cur₃)
        | @ok found₂ found₂' cur₃ hfound =>
          cases hfound with
          | @some found₃ found₃' hpair =>
            obtain ⟨pair, rest⟩ := found₃
            obtain ⟨pair', rest'⟩ := found₃'
            obtain ⟨hsame, hid, rfl⟩ := hpair
            have hid : "id=\"".toList.isPrefixOf pair' = "id=\"".toList.isPrefixOf pair := hid
            simp only [hid]
            split
            · exact .done (.error _ cur₃)
            · refine .again (fun heq => ?_) (h₂.of_leads (attribute?_leads ha))
              rw [hlist heq, show pair' = pair from hsame heq]
          | none =>
            -- No attribute follows here: it may on the next line, if parentheses are open.
            simp only
            split
            · cases hn : cur₃.next? with
              | none => exact .done (.error _ cur₃)
              | some next =>
                obtain ⟨raw, cur₄⟩ := next
                have hreach' := reaches_attribute? κ.left parens t cur₂
                rw [ha] at hreach'
                have hleads := (Place.leads_of_reaches t hreach').trans
                  (Place.leads_of_next? t hn (List.suffix_refl raw))
                exact .again hlist (h₂.of_leads hleads)
            · exact .done (.ok ⟨hlist, rfl⟩)

/-- The attributes of a headline are alike in both readings. -/
theorem readAttributes_alike (parens : Bool) (line idText : Text) {list list' : AttributeList}
    (hlist : κ.Same list list') (h : κ.BlindAt ⟨t, cur⟩) :
    Outcomes κ.AttributeLists
      (readAttributes κ.left parens line idText list t cur)
      (readAttributes κ.right parens line idText list' t cur) := by
  have hright : ∀ list (place : Place),
      readAttributes κ.right parens line idText list place.text place.cursor =
        (attributePass κ.right parens line idText list place).finish fun list place =>
          readAttributes κ.right parens line idText list place.text place.cursor :=
    attributePass_iterates κ.right parens line idText
  refine (attributePass_iterates κ.left parens line idText).induction
    (attributePass_advances κ.left parens line idText)
    (Q := fun list place r => ∀ list', κ.Same list list' → κ.BlindAt place →
      Outcomes κ.AttributeLists r
        (readAttributes κ.right parens line idText list' place.text place.cursor))
    ?_ ?_ list ⟨t, cur⟩ list' hlist h
  · intro list place r hdone list' hlist h
    have hpasses := h.attributePass_alike parens line idText hlist
    rw [hright list' place]
    rw [hdone] at hpasses
    generalize attributePass κ.right parens line idText list' place = pass at hpasses
    cases hpasses with
    | done hr => exact hr
  · intro list place next place' wrap hagain ih list' hlist h
    have hpasses := h.attributePass_alike parens line idText hlist
    rw [hright list' place]
    rw [hagain] at hpasses
    generalize attributePass κ.right parens line idText list' place = pass at hpasses
    cases hpasses with
    | again hnext hblind => exact ih _ hnext hblind

end BlindAt

/-! ## Content on the line -/

/-- What two compilations come to. -/
inductive Results (κ : Comparison) : Except Diagnostic Text → Except Diagnostic Text → Prop
  | ok {t t' : Text} (h : κ.Texts t t') : Results κ (.ok t) (.ok t')
  | error (e : Diagnostic) : Results κ (.error e) (.error e)
  | excused {e : Diagnostic} (h : κ.excused e) (r : Except Diagnostic Text) : Results κ (.error e) r

/-- A compilation comes to the like of itself. -/
theorem Results.refl (r : Except Diagnostic Text) : κ.Results r r := by
  cases r with
  | error e => exact .error e
  | ok t => exact .ok (.refl t)

/-- Results of compilations that are alike can be scanned alike. -/
theorem Results.scans {r r' : Except Diagnostic Text} (h : κ.Results r r') (cur : Cursor) :
    κ.Scans κ.Texts cur (Scan.ofExcept r) (Scan.ofExcept r') := by
  cases h with
  | ok htexts => exact .inl (.ok htexts)
  | error e => exact .inl (.error e cur)
  | excused he r' => exact .inr ⟨_, cur, rfl, he⟩

/-- The settings of two readings that are compared: text with markup in it is rendered alike. -/
structure Settings (κ : Comparison) (s s' : Setting) : Prop where
  left : s.delimiters = κ.left
  right : s'.delimiters = κ.right
  transpiler? : s'.transpiler? = s.transpiler?
  spans : ∀ n t, κ.Blind t → κ.Results (renderSpans s.embedded n t) (renderSpans s'.embedded n t)

/-- What two readings of the headline of an element come to. -/
structure Elements (κ : Comparison) (e e' : Element) : Prop where
  opened : κ.Texts e.opened e'.opened
  closed : e'.closed = e.closed
  name : e'.name = e.name
  attributes : κ.Same e.attributes e'.attributes
  content : κ.Texts e.content e'.content
  rest : e'.rest = e.rest

/-- With the same delimiters, the elements are the same. -/
theorem Elements.eq {e e' : Element} (he : κ.Elements e e') (heq : κ.right = κ.left) : e' = e := by
  obtain ⟨opened, closed, name, attributes, content, rest⟩ := e
  obtain ⟨opened', closed', name', attributes', content', rest'⟩ := e'
  obtain ⟨hopened, rfl, rfl, hattributes, hcontent, rfl⟩ := he
  cases hopened.same heq
  cases hattributes heq
  cases hcontent.same heq
  rfl

namespace Settings

variable {s s' : Setting}

/-- Text is rendered alike. -/
theorem scans_renderText (hs : κ.Settings s s') (ht : κ.Blind t) :
    κ.Scans κ.Texts cur (renderText s t) (renderText s' t) :=
  (hs.spans cur.number t ht).scans cur

/-- A value on the line is written alike. -/
theorem scans_inlineValue (hs : κ.Settings s s') (ht : κ.Blind t) :
    κ.Scans κ.Texts cur (inlineValue s.delimiters t) (inlineValue s'.delimiters t) := by
  rw [hs.left, hs.right]
  unfold inlineValue
  simp only
  apply Scans.bind (scans_refl (fun _ => rfl) _)
  rintro expr _ cur' - rfl
  refine scans_pure (Texts.append ?_ (.refl _))
  exact ht.value fun d => if (optionalMark '=' t).1 then d.withoutEscaping expr else expr

/-- The content of a headline is written alike. -/
theorem scans_inlineContent (hs : κ.Settings s s') (ht : κ.Blind t) :
    κ.Scans κ.Texts cur (inlineContent s t) (inlineContent s' t) := by
  have htrim {u : Text} (hu : u <:+: t) : κ.Blind u.trim :=
    ht.of_count_le (((Text.trim_isInfix u).trans hu).sublist.count_le _)
  unfold inlineContent
  split
  · exact scans_pure (.refl _)
  · rename_i c t
    have hrest : t <:+: c :: t := (List.suffix_cons c t).isInfix
    split
    · exact hs.scans_inlineValue (ht.of_count_le (hrest.sublist.count_le _))
    · split
      · exact hs.scans_renderText (htrim hrest)
      · split
        · apply (hs.scans_renderText (htrim hrest)).bind
          intro written written' cur' _ hwritten
          exact scans_pure (hwritten.append (.refl _))
        · exact hs.scans_renderText (htrim (List.infix_refl _))

/-- The rest of the headline of an element makes alike elements. -/
theorem scans_finish (hs : κ.Settings s s') (name : Text) {attributes attributes' : Text}
    (hattributes : κ.Same attributes attributes') (ht : κ.Blind t) :
    κ.Scans κ.Elements cur (Element.finish s name attributes t)
      (Element.finish s' name attributes' t) := by
  unfold Element.finish
  simp only
  split
  · refine scans_pure ⟨texts_of_solid (fun heq => ?_) ?_ ?_, rfl, rfl, hattributes, .refl _, rfl⟩
    · rw [hattributes heq]
    · exact Text.solid_of_head? rfl (by decide)
    · exact Text.solid_of_head? rfl (by decide)
  · apply (hs.scans_inlineContent ht).bind
    intro content content' cur' _ hcontent
    refine scans_pure ⟨Texts.append (texts_of_solid (fun heq => ?_) ?_ ?_) hcontent, rfl, rfl,
      hattributes, hcontent, rfl⟩
    · rw [hattributes heq]
    · exact Text.solid_of_head? rfl (by decide)
    · exact Text.solid_of_head? rfl (by decide)

/-- The headlines of elements are alike. -/
theorem scans_read (hs : κ.Settings s s') (disguise : Option Disguise)
    (h : κ.BlindAt ⟨t, cur⟩) :
    κ.Scans κ.Elements cur (Element.read s disguise t) (Element.read s' disguise t) := by
  unfold Element.read
  rw [hs.left, hs.right]
  have hname := Place.leads_of_suffix cur (elementName_suffix t)
  apply (h.of_leads hname).scans_idShortcut.bind
  rintro ⟨idText, t₁⟩ _ cur₁ hid rfl
  have h₁ := h.of_leads (hname.trans (idShortcut_leads hid))
  apply Scans.bind h₁.scans_classShortcuts
  rintro ⟨classes, t₂⟩ _ cur₂ hclasses rfl
  have h₂ := h₁.of_leads (classShortcuts_leads hclasses)
  apply Scans.bind (scans_refl (fun _ => rfl) _)
  rintro t₃ _ cur₃ hbreaks rfl
  have htrim := Place.leads_of_suffix cur₂ (Text.trimStart_suffix t₂)
  have hopened := Place.leads_of_suffix cur₃ (optionalMark_suffix '(' t₃)
  have h₃ := h₂.of_leads (htrim.trans ((continued_leads hbreaks).trans hopened))
  apply Scans.bind (.inl (h₃.readAttributes_alike _ t idText fun _ => rfl))
  rintro ⟨list, t₄⟩ ⟨list', _⟩ cur₄ hattributes ⟨hlist, rfl⟩
  have h₄ := h₃.of_leads (readAttributes_leads hattributes)
  apply Scans.bind (scans_refl (fun _ => rfl) _)
  rintro t₅ _ cur₅ hparens rfl
  obtain ⟨hsuffix, rfl⟩ := closeParens_suffix hparens
  have h₅ := h₄.of_leads (Place.leads_of_suffix _ hsuffix)
  refine hs.scans_finish _ (fun heq => ?_) h₅.text
  rw [show list' = list from hlist heq]

end Settings

end Comparison

end TerseMarkup
