import TerseMarkup.Proofs.Headline
import TerseMarkup.Proofs.Tidy

/-!
# Reading with more lines to come

A reading that succeeds on some lines succeeds in the same way when more lines follow them, or when
the lines are counted from another number. `Outcome.Carries` states this of two outcomes, and this
module shows it of the readers of tokens, expressions, attributes and elements.

What can tell that the lines have ended is a backslash at the end of the last one. This is ruled out
by `Text.FitFor`, unless no line is added at all.
-/

namespace TerseMarkup

open Place (Leads)

/-! ## Lines added -/

/-- The text does not depend on the lines added behind it: there are none, or it is tidy. -/
def Text.FitFor (extra : List Text) (t : Text) : Prop :=
  extra = [] ∨ t.Tidy

/-- The end of a fit text is fit. -/
theorem Text.FitFor.of_suffix {extra : List Text} {t u : Text} (hs : u <:+ t)
    (h : t.FitFor extra) : u.FitFor extra :=
  h.imp_right (Text.Tidy.of_suffix hs)

/-- The cursor `cur'` has the lines of `cur` to come, and then `extra`. -/
structure Cursor.Extends (extra : List Text) (cur cur' : Cursor) : Prop where
  ahead : cur'.ahead = cur.ahead ++ extra
  fit : ∀ raw ∈ cur.ahead, raw.FitFor extra

variable {extra : List Text} {cur cur' curₑ : Cursor} {α β : Type}

/-- The next line is the same with lines added, and it is fit. -/
theorem Cursor.Extends.of_next? (he : cur.Extends extra curₑ) {raw : Text}
    (h : cur.next? = some (raw, cur')) :
    raw.FitFor extra ∧ ∃ curₑ', curₑ.next? = some (raw, curₑ') ∧ cur'.Extends extra curₑ' := by
  obtain ⟨ahead, n⟩ := cur
  obtain ⟨aheadₑ, m⟩ := curₑ
  cases ahead with
  | nil => cases h
  | cons r ahead =>
    cases h
    have hahead := he.ahead
    simp only [List.cons_append] at hahead
    subst hahead
    refine ⟨he.fit _ List.mem_cons_self, _, rfl, rfl, fun raw hr => ?_⟩
    exact he.fit raw (List.mem_cons_of_mem _ hr)

/-- What is read on from a fit text over fit lines is fit. -/
theorem Cursor.Extends.fit_of_leads (he : cur.Extends extra curₑ) {t u : Text}
    (ht : t.FitFor extra) (h : Leads ⟨t, cur⟩ ⟨u, cur'⟩) : u.FitFor extra :=
  h.carries (fun hs hf => hf.of_suffix hs) ht he.fit

/-! ## Outcomes -/

/-- If the first outcome is a success, so is the second, with the same result, and the lines added
are still to come. -/
def Outcome.Carries (extra : List Text) (r rₑ : Outcome α) : Prop :=
  ∀ a cur, r = (.ok a, cur) → ∃ curₑ, cur.Extends extra curₑ ∧ rₑ = (.ok a, curₑ)

/-- Nothing is asked of a reading that fails. -/
theorem Outcome.carries_error {e : Diagnostic} {rₑ : Outcome α} :
    Outcome.Carries extra (.error e, cur) rₑ := by
  intro a cur h
  cases h

/-- The same result at cursors that correspond carries over. -/
theorem Outcome.carries_ok {a : α} (he : cur.Extends extra curₑ) :
    Outcome.Carries extra (.ok a, cur) (.ok a, curₑ) := by
  intro b cur' h
  cases h
  exact ⟨curₑ, he, rfl⟩

namespace Scan

/-- The scan gives the same with lines added. -/
def Carries (extra : List Text) (x : Scan α) : Prop :=
  ∀ cur curₑ : Cursor, cur.Extends extra curₑ → Outcome.Carries extra (x cur) (x curₑ)

/-- Handing back a value is the same with lines added. -/
theorem carries_pure (a : α) : Carries extra (pure a : Scan α) :=
  fun _ _ he => Outcome.carries_ok he

/-- A reader that fails has nothing to carry over. -/
theorem carries_failAt (e : Nat → Diagnostic) :
    Carries extra (lineNumber >>= fun n => (fail (e n) : Scan α)) := by
  intro cur curₑ he a cur' h
  cases h

/-- Two scans in a row. The second one only has to be looked at for results that the first one can
have. -/
theorem Carries.bind {x : Scan α} {f : α → Scan β} (hx : Carries extra x)
    (hf : ∀ a cur cur' curₑ, cur.Extends extra curₑ → x cur = (.ok a, cur') → Carries extra (f a)) :
    Carries extra (x >>= f) := by
  intro cur curₑ he b cur'' h
  obtain ⟨a, cur', hxa, hfa⟩ := bind_eq_ok_iff.1 h
  obtain ⟨curₑ', he', hxa'⟩ := hx cur curₑ he a cur' hxa
  obtain ⟨curₑ'', he'', hfa'⟩ := hf a cur cur' curₑ he hxa cur' curₑ' he' b cur'' hfa
  exact ⟨curₑ'', he'', bind_eq_ok_iff.2 ⟨a, curₑ', hxa', hfa'⟩⟩

end Scan

/-! ## Loops -/

/-- A pass does the same with lines added. If it is not the last one, the text at hand afterwards
satisfies `P`. -/
def Pass.Carries {σ : Type} (extra : List Text) (P : Text → Prop)
    (pass passₑ : Pass σ (Outcome α)) : Prop :=
  match pass with
  | .done r => ∀ a cur, r = (.ok a, cur) →
      ∃ curₑ, cur.Extends extra curₑ ∧ passₑ = .done (.ok a, curₑ)
  | .again state place wrap => P place.text ∧
      (∃ curₑ, place.cursor.Extends extra curₑ ∧ passₑ = .again state ⟨place.text, curₑ⟩ wrap) ∧
      ∀ r rₑ, Outcome.Carries extra r rₑ → Outcome.Carries extra (wrap r) (wrap rₑ)

/-- A loop does the same with lines added, if each pass does. -/
theorem Iterates.carries {σ : Type} {body : σ → Place → Pass σ (Outcome α)}
    {loop : σ → Place → Outcome α} {P : Text → Prop} (hi : Iterates body loop)
    (ha : Advances body)
    (hbody : ∀ state t (cur curₑ : Cursor), cur.Extends extra curₑ → P t →
      (body state ⟨t, cur⟩).Carries extra P (body state ⟨t, curₑ⟩))
    (state : σ) (t : Text) (ht : P t) (he : cur.Extends extra curₑ) :
    Outcome.Carries extra (loop state ⟨t, cur⟩) (loop state ⟨t, curₑ⟩) := by
  refine hi.induction ha (Q := fun state place r => ∀ curₑ, place.cursor.Extends extra curₑ →
    P place.text → Outcome.Carries extra r (loop state ⟨place.text, curₑ⟩)) ?_ ?_ state ⟨t, cur⟩
    curₑ he ht
  · intro state place r hr curₑ he ht a cur h
    have hpass := hbody state place.text place.cursor curₑ he ht
    rw [hr] at hpass
    obtain ⟨curₑ', he', hdone⟩ := hpass a cur h
    refine ⟨curₑ', he', ?_⟩
    rw [hi, hdone]
    rfl
  · intro state place state' place' wrap hr ih curₑ he ht
    have hpass := hbody state place.text place.cursor curₑ he ht
    rw [hr] at hpass
    obtain ⟨ht', ⟨curₑ', he', hagain⟩, hwrap⟩ := hpass
    have hloop : loop state ⟨place.text, curₑ⟩ = wrap (loop state' ⟨place'.text, curₑ'⟩) := by
      rw [hi, hagain]
      rfl
    rw [hloop]
    exact hwrap _ _ (ih curₑ' he' ht')

/-- A pass that stays on its line and does not touch the result. -/
theorem Pass.carries_again {σ : Type} {P : Text → Prop} (state : σ) {t : Text} (ht : P t)
    (he : cur.Extends extra curₑ) :
    Pass.Carries extra P (.again state ⟨t, cur⟩ fun r : Outcome α => r)
      (.again state ⟨t, curₑ⟩ fun r => r) :=
  ⟨ht, ⟨curₑ, he, rfl⟩, fun _ _ h => h⟩

/-- A pass that ends with the same result carries over. -/
theorem Pass.carries_done {σ : Type} {P : Text → Prop} {a : α} (he : cur.Extends extra curₑ) :
    Pass.Carries extra P (.done (.ok a, cur) : Pass σ (Outcome α)) (.done (.ok a, curₑ)) := by
  intro b cur' h
  cases h
  exact ⟨curₑ, he, rfl⟩

/-- Nothing is asked of a pass that fails. -/
theorem Pass.carries_fault {σ : Type} {P : Text → Prop} {e : Diagnostic}
    {passₑ : Pass σ (Outcome α)} : Pass.Carries extra P (.done (.error e, cur)) passₑ := by
  intro b cur' h
  cases h

/-! ## Groups and tokens -/

namespace Nesting

/-- A pass through a group is the same with lines added: it asks for a new line only where there is
one. -/
theorem closePass_carries (n : Nesting) (state : Nat × Text) (t : Text)
    (he : cur.Extends extra curₑ) :
    (n.closePass state ⟨t, cur⟩).Carries extra (fun _ => True) (n.closePass state ⟨t, curₑ⟩) := by
  unfold closePass
  simp only
  split
  · exact Pass.carries_again _ trivial he
  · split
    · exact Pass.carries_done he
    · exact Pass.carries_again _ trivial he
  · split
    · split
      · exact Pass.carries_fault
      · rename_i raw cur' hn
        obtain ⟨-, curₑ', hnₑ, heₑ⟩ := he.of_next? hn
        rw [hnₑ]
        exact Pass.carries_again _ trivial heₑ
    · split
      · exact Pass.carries_again _ trivial he
      · split
        · exact Pass.carries_fault
        · exact Pass.carries_again _ trivial he

/-- A group that is closed is closed likewise with lines added. -/
theorem carries_close (n : Nesting) (depth : Nat) (read tail : Text) :
    Scan.Carries extra (n.close depth read tail) :=
  fun _ _ he => n.closePass_iterates.carries n.closePass_advances
    (fun state t _ _ he _ => n.closePass_carries state t he) (depth, read) tail trivial he

/-- The group at the front of a text is the same with lines added. -/
theorem carries_group? (n : Nesting) (t : Text) : Scan.Carries extra (n.group? t) := by
  intro cur curₑ he
  unfold group?
  split
  · exact Outcome.carries_ok he
  · rename_i start rest depth ho
    split
    · rename_i found cur' hc
      obtain ⟨curₑ', he', hcₑ⟩ := n.carries_close depth start rest cur curₑ he found cur' hc
      simp only [hcₑ]
      exact Outcome.carries_ok he'
    · exact Outcome.carries_error

end Nesting

/-- So is a group of a nesting that may be missing. -/
theorem carries_groupOf? (n : Option Nesting) (t : Text) : Scan.Carries extra (groupOf? n t) := by
  cases n with
  | none => exact fun _ _ he => Outcome.carries_ok he
  | some n => exact n.carries_group? t

/-- An atom is the same with lines added. -/
theorem carries_atom (n : Option Nesting) (c : Char) (t : Text) :
    Scan.Carries extra (atom n c t) := by
  intro cur curₑ he
  unfold atom
  split
  · exact Outcome.carries_error
  · rename_i found cur' hg
    obtain ⟨curₑ', he', hgₑ⟩ := carries_groupOf? n (c :: t) cur curₑ he _ cur' hg
    simp only [hgₑ]
    exact Outcome.carries_ok he'
  · rename_i cur' hg
    obtain ⟨curₑ', he', hgₑ⟩ := carries_groupOf? n (c :: t) cur curₑ he _ cur' hg
    simp only [hgₑ]
    split
    · exact Outcome.carries_ok he'
    · split
      · exact Outcome.carries_error
      · rename_i found cur'' hb
        obtain ⟨curₑ'', he'', hbₑ⟩ :=
          Nesting.brackets.carries_group? (c :: t) cur' curₑ' he' _ cur'' hb
        simp only [hbₑ]
        exact Outcome.carries_ok he''
      · rename_i cur'' hb
        obtain ⟨curₑ'', he'', hbₑ⟩ :=
          Nesting.brackets.carries_group? (c :: t) cur' curₑ' he' _ cur'' hb
        simp only [hbₑ]
        exact Outcome.carries_ok he''

/-- A change of the result on success keeps what two outcomes share. -/
theorem Outcome.Carries.wrap {r rₑ : Outcome α} (h : Outcome.Carries extra r rₑ)
    {f : Outcome α → Outcome β} {g : α → β} (hok : ∀ a cur, f (.ok a, cur) = (.ok (g a), cur))
    (herror : ∀ e cur, f (.error e, cur) = (.error e, cur)) :
    Outcome.Carries extra (f r) (f rₑ) := by
  obtain ⟨r, cur⟩ := r
  cases r with
  | error e =>
    rw [herror]
    exact Outcome.carries_error
  | ok a =>
    obtain ⟨curₑ, he, rfl⟩ := h a cur rfl
    rw [hok, hok]
    exact Outcome.carries_ok he

/-- A pass through a token is the same with lines added. -/
theorem atomsPass_carries (n : Nesting) (stops : List Text) (t : Text)
    (he : cur.Extends extra curₑ) :
    (atomsPass n stops () ⟨t, cur⟩).Carries extra (fun _ => True)
      (atomsPass n stops () ⟨t, curₑ⟩) := by
  unfold atomsPass
  cases t with
  | nil => exact Pass.carries_done he
  | cons c t =>
    simp only
    split
    · exact Pass.carries_done he
    · split
      · exact Pass.carries_fault
      · rename_i a rest cur' ha
        obtain ⟨curₑ', he', haₑ⟩ := carries_atom (some n) c t cur curₑ he _ cur' ha
        simp only [haₑ]
        refine ⟨trivial, ⟨curₑ', he', rfl⟩, fun r rₑ h => ?_⟩
        exact h.wrap (g := fun found => (a ++ found.1, found.2)) (fun _ _ => rfl) fun _ _ => rfl

/-- Atoms up to a stop are the same with lines added. -/
theorem carries_atoms (n : Nesting) (stops : List Text) (tail : Text) :
    Scan.Carries extra (atoms n stops tail) :=
  fun _ _ he => (atomsPass_iterates n stops).carries (atomsPass_advances n stops)
    (fun _ t _ _ he _ => atomsPass_carries n stops t he) () tail trivial he

/-- A token is the same with lines added. -/
theorem carries_token? (n : Nesting) (lead : Text) (stops : List Text) (line : Text) :
    Scan.Carries extra (token? n lead stops line) := by
  intro cur curₑ he
  unfold token?
  split
  · exact Outcome.carries_ok he
  · split
    · exact Outcome.carries_ok he
    · rename_i t ht
      split
      · exact Outcome.carries_error
      · rename_i read rest cur' ha
        obtain ⟨curₑ', he', haₑ⟩ := carries_atoms n stops t cur curₑ he _ cur' ha
        simp only [haₑ]
        exact Outcome.carries_ok he'

/-! ## Expressions -/

/-- Continuations do not depend on how the lines are counted. -/
theorem followBreaksOver_number (tail : Text) (ahead : List Text) (n m : Nat) :
    (followBreaksOver tail ahead n).1 = (followBreaksOver tail ahead m).1 ∧
      (followBreaksOver tail ahead n).2.1 = (followBreaksOver tail ahead m).2.1 ∧
      (followBreaksOver tail ahead n).2.2.ahead = (followBreaksOver tail ahead m).2.2.ahead := by
  induction ahead generalizing tail n m with
  | nil =>
    unfold followBreaksOver
    split <;> exact ⟨rfl, rfl, rfl⟩
  | cons raw ahead ih =>
    unfold followBreaksOver
    split
    · exact ⟨rfl, (ih raw.trimStart (n + 1) (m + 1)).2⟩
    · exact ⟨rfl, rfl, rfl⟩

/-- Continuations are followed in the same way: there are none, or nothing is added. -/
theorem followBreaks_carries {t u : Text} {found : Bool} (he : cur.Extends extra curₑ)
    (ht : t.FitFor extra) (h : followBreaks t cur = (found, u, cur')) :
    ∃ curₑ', cur'.Extends extra curₑ' ∧ followBreaks t curₑ = (found, u, curₑ') := by
  rcases ht with rfl | ht
  · -- only the line numbers differ
    have hahead : curₑ.ahead = cur.ahead := by rw [he.ahead, List.append_nil]
    obtain ⟨hfound, htext, hrest⟩ :=
      followBreaksOver_number t cur.ahead cur.number curₑ.number
    unfold followBreaks at h ⊢
    rw [h] at hfound htext hrest
    rw [hahead]
    refine ⟨(followBreaksOver t cur.ahead curₑ.number).2.2, ⟨?_, fun _ _ => .inl rfl⟩, ?_⟩
    · rw [List.append_nil]
      exact hrest.symm
    · exact Prod.ext hfound.symm (Prod.ext htext.symm rfl)
  · rw [followBreaks_of_not_isBreak ht.not_isBreak] at h ⊢
    cases h
    exact ⟨curₑ, he, rfl⟩

/-- A pass through an expression is the same with lines added. The text at hand must be fit, or the
last line could go on in an added one. -/
theorem expressionPass_carries (t : Text) (he : cur.Extends extra curₑ) (ht : t.FitFor extra) :
    (expressionPass () ⟨t, cur⟩).Carries extra (Text.FitFor extra)
      (expressionPass () ⟨t, curₑ⟩) := by
  unfold expressionPass
  simp only
  split
  · exact Pass.carries_done he
  · split
    · rename_i found cur₁ hb
      obtain ⟨curₑ₁, he₁, hbₑ⟩ := followBreaks_carries he ht hb
      simp only [hbₑ]
      exact Pass.carries_done he₁
    · rename_i found c u cur₁ hb
      obtain ⟨curₑ₁, he₁, hbₑ⟩ := followBreaks_carries he ht hb
      simp only [hbₑ]
      split
      · exact Pass.carries_fault
      · rename_i a rest cur₂ ha
        obtain ⟨curₑ₂, he₂, haₑ⟩ := carries_atom none c u cur₁ curₑ₁ he₁ _ cur₂ ha
        simp only [haₑ]
        refine ⟨?_, ⟨curₑ₂, he₂, rfl⟩, fun r rₑ h => ?_⟩
        · exact he.fit_of_leads ht ((followBreaks_leads hb).trans (atom_leads ha))
        · exact h.wrap (g := fun more => breakText found ++ a ++ more) (fun _ _ => rfl)
            fun _ _ => rfl

/-- The atoms of an expression are the same with lines added. -/
theorem expressionAtoms_carries {t : Text} (ht : t.FitFor extra) :
    Scan.Carries extra (expressionAtoms t) :=
  fun _ _ he => expressionPass_iterates.carries expressionPass_advances
    (fun _ t _ _ he ht => expressionPass_carries t he ht) () t ht he

/-- A line feed at the end of a trimmed text keeps it fit. -/
theorem Text.FitFor.terminated {t : Text} (ht : t.FitFor extra) :
    Text.FitFor extra (t.trim ++ ['\n']) :=
  ht.imp_right fun ht => ht.trim.append_newline ht.newline_not_mem_trim

/-- An expression is the same with lines added. -/
theorem carries_expression {t : Text} (ht : t.FitFor extra) :
    Scan.Carries extra (expression t) := by
  intro cur curₑ he
  unfold expression
  split
  · rename_i read cur' hr
    obtain ⟨curₑ', he', hrₑ⟩ := expressionAtoms_carries ht.terminated cur curₑ he _ cur' hr
    simp only [hrₑ]
    exact Outcome.carries_ok he'
  · exact Outcome.carries_error

/-! ## Attributes -/

/-- A mapping is expanded to the same with lines added. -/
theorem carries_splat? (d : Delimiters) (parens : Bool) (line : Text) :
    Scan.Carries extra (splat? d parens line) := by
  intro cur curₑ he
  unfold splat?
  split
  · exact Outcome.carries_ok he
  · rename_i t ht
    split
    · exact Outcome.carries_error
    · rename_i cur' hk
      obtain ⟨curₑ', he', hkₑ⟩ := carries_token? _ _ _ t cur curₑ he _ cur' hk
      simp only [hkₑ]
      exact Outcome.carries_ok he'
    · rename_i mapping rest cur' hk
      obtain ⟨curₑ', he', hkₑ⟩ := carries_token? _ _ _ t cur curₑ he _ cur' hk
      simp only [hkₑ]
      split <;> exact Outcome.carries_ok he'

/-- An attribute has the same value with lines added. -/
theorem carries_assignment? (d : Delimiters) (parens : Bool) (name t : Text) :
    Scan.Carries extra (assignment? d parens name t) := by
  intro cur curₑ he
  unfold assignment?
  split
  · exact Outcome.carries_ok he
  · split
    · exact Outcome.carries_ok he
    · split
      · exact Outcome.carries_error
      · rename_i cur' hk
        obtain ⟨curₑ', he', hkₑ⟩ := carries_token? _ _ _ t cur curₑ he _ cur' hk
        simp only [hkₑ]
        exact Outcome.carries_ok he'
      · rename_i token rest cur' hk
        obtain ⟨curₑ', he', hkₑ⟩ := carries_token? _ _ _ t cur curₑ he _ cur' hk
        simp only [hkₑ]
        split <;> exact Outcome.carries_ok he'

/-- An attribute is the same with lines added. -/
theorem carries_attribute? (d : Delimiters) (parens : Bool) (line : Text) :
    Scan.Carries extra (attribute? d parens line) := by
  intro cur curₑ he
  unfold attribute?
  split
  · exact Outcome.carries_error
  · rename_i cur' hk
    obtain ⟨curₑ', he', hkₑ⟩ := carries_token? _ _ _ line cur curₑ he _ cur' hk
    simp only [hkₑ]
    exact Outcome.carries_ok he'
  · rename_i name rest cur' hk
    obtain ⟨curₑ', he', hkₑ⟩ := carries_token? _ _ _ line cur curₑ he _ cur' hk
    simp only [hkₑ]
    split
    · exact Outcome.carries_ok he'
    · split
      · exact carries_assignment? d parens name _ cur' curₑ' he'
      · split <;> exact Outcome.carries_ok he'

/-- A pass through the attributes is the same with lines added, and leaves a fit text. -/
theorem attributePass_carries (d : Delimiters) (parens : Bool) (line idText : Text)
    (list : AttributeList) (t : Text) (he : cur.Extends extra curₑ) (ht : t.FitFor extra) :
    (attributePass d parens line idText list ⟨t, cur⟩).Carries extra (Text.FitFor extra)
      (attributePass d parens line idText list ⟨t, curₑ⟩) := by
  have htrim : t.trimStart.FitFor extra := ht.of_suffix (Text.trimStart_suffix t)
  unfold attributePass
  split
  rename_i found u cur₁ hb
  obtain ⟨curₑ₁, he₁, hbₑ⟩ := followBreaks_carries he htrim hb
  have hu : u.FitFor extra := he.fit_of_leads htrim (followBreaks_leads hb)
  simp only [hbₑ]
  split
  · exact Pass.carries_fault
  · rename_i text rest cur₂ hs
    obtain ⟨curₑ₂, he₂, hsₑ⟩ := carries_splat? d parens u cur₁ curₑ₁ he₁ _ cur₂ hs
    simp only [hsₑ]
    exact Pass.carries_again _ (he₁.fit_of_leads hu (splat?_leads hs)) he₂
  · rename_i cur₂ hs
    obtain ⟨curₑ₂, he₂, hsₑ⟩ := carries_splat? d parens u cur₁ curₑ₁ he₁ _ cur₂ hs
    simp only [hsₑ]
    split
    · exact Pass.carries_fault
    · rename_i pair rest cur₃ ha
      obtain ⟨curₑ₃, he₃, haₑ⟩ := carries_attribute? d parens u cur₂ curₑ₂ he₂ _ cur₃ ha
      simp only [haₑ]
      split
      · exact Pass.carries_fault
      · exact Pass.carries_again _ (he₂.fit_of_leads hu (attribute?_leads ha)) he₃
    · rename_i cur₃ ha
      obtain ⟨curₑ₃, he₃, haₑ⟩ := carries_attribute? d parens u cur₂ curₑ₂ he₂ _ cur₃ ha
      simp only [haₑ]
      split
      · split
        · exact Pass.carries_fault
        · rename_i raw cur₄ hn
          obtain ⟨hraw, curₑ₄, hnₑ, he₄⟩ := he₃.of_next? hn
          simp only [hnₑ]
          exact Pass.carries_again _ hraw he₄
      · exact Pass.carries_done he₃

/-- The attributes of a headline are the same with lines added. -/
theorem carries_readAttributes (d : Delimiters) (parens : Bool) (line idText : Text)
    (list : AttributeList) {t : Text} (ht : t.FitFor extra) :
    Scan.Carries extra (readAttributes d parens line idText list t) :=
  fun _ _ he => (attributePass_iterates d parens line idText).carries
    (attributePass_advances d parens line idText)
    (fun list t _ _ he ht => attributePass_carries d parens line idText list t he ht) list t ht he

/-- A pass through the classes is the same with lines added. -/
theorem classPass_carries (d : Delimiters) (t : Text) (he : cur.Extends extra curₑ) :
    (classPass d () ⟨t, cur⟩).Carries extra (fun _ => True) (classPass d () ⟨t, curₑ⟩) := by
  unfold classPass
  split
  · exact Pass.carries_fault
  · rename_i cur' hk
    obtain ⟨curₑ', he', hkₑ⟩ := carries_token? _ _ _ t cur curₑ he _ cur' hk
    simp only [hkₑ]
    exact Pass.carries_done he'
  · rename_i name rest cur' hk
    obtain ⟨curₑ', he', hkₑ⟩ := carries_token? _ _ _ t cur curₑ he _ cur' hk
    simp only [hkₑ]
    refine ⟨trivial, ⟨curₑ', he', rfl⟩, fun r rₑ h => ?_⟩
    exact h.wrap (g := fun found => (Text.trimEnd (name.drop 1) :: found.1, found.2))
      (fun _ _ => rfl) fun _ _ => rfl

/-- The classes behind their dots are the same with lines added. -/
theorem carries_classShortcuts (d : Delimiters) (t : Text) :
    Scan.Carries extra (classShortcuts d t) :=
  fun _ _ he => (classPass_iterates d).carries (classPass_advances d)
    (fun _ t _ _ he _ => classPass_carries d t he) () t trivial he

/-- The id behind its mark is the same with lines added. -/
theorem carries_idShortcut (d : Delimiters) (t : Text) : Scan.Carries extra (idShortcut d t) := by
  refine Scan.Carries.bind (carries_token? _ _ _ t) fun found _ _ _ _ _ => ?_
  cases found <;> exact Scan.carries_pure _

/-! ## Elements -/

theorem exists_of_map_eq_ok {ε : Type} {f : α → β} {r : Except ε α} {b : β}
    (h : r.map f = .ok b) : ∃ a, r = .ok a ∧ f a = b := by
  cases r with
  | error e => cases h
  | ok a => exact ⟨a, rfl, Except.ok.inj h⟩

theorem eq_error_of_map_eq_error {ε : Type} {f : α → β} {r : Except ε α} {e : ε}
    (h : r.map f = .error e) : r = .error e := by
  cases r with
  | error d =>
    cases h
    rfl
  | ok a => cases h

/-- The markup of a span is a part of the span as written. -/
theorem sublist_of_closeSpan? {t markup written rest : Text}
    (h : closeSpan? t = some (markup, written, rest)) : markup.Sublist written := by
  fun_induction closeSpan? t generalizing markup written rest with
  | case1 => cases h
  | case2 =>
    cases h
    exact List.nil_sublist _
  | case3 u ih =>
    obtain ⟨⟨m, w, r⟩, hm, hp⟩ := Option.map_eq_some_iff.1 h
    cases hp
    exact ((ih hm).cons _).cons_cons _
  | case4 =>
    cases h
    exact List.nil_sublist _
  | case5 =>
    cases h
    exact List.nil_sublist _
  | case6 c t hc ih =>
    obtain ⟨⟨m, w, r⟩, hm, hp⟩ := Option.map_eq_some_iff.1 h
    cases hp
    exact (ih hm).cons_cons c

/-- Text that starts with a span. -/
theorem renderSpans_span (compile : Text → Except Diagnostic Text) (n : Nat) {e : Char}
    {u markup shown rest : Text} (he : e ≠ '\x60')
    (hs : closeSpan? (e :: u) = some (markup, shown, rest)) :
    renderSpans compile n ('\x60' :: e :: u) =
      if markup.trim.isEmpty then renderSpans compile (n + shown.count '\n') rest
      else
        match compile markup.trim with
        | .ok out => (renderSpans compile (n + shown.count '\n') rest).map (out ++ ·)
        | .error (.unrecognised _ _) =>
          (renderSpans compile (n + shown.count '\n') rest).map ('\x60' :: shown ++ ·)
        | .error d => .error (d.atLine n) := by
  rw [renderSpans]
  simp only [if_true, if_neg he]
  split
  · rename_i heq
    cases hs.symm.trans heq
  · rename_i heq
    cases hs.symm.trans heq
    rfl

/-- Text that starts with a span that never closes. -/
theorem renderSpans_unclosed (compile : Text → Except Diagnostic Text) (n : Nat) {e : Char}
    {u : Text} (he : e ≠ '\x60') (hs : closeSpan? (e :: u) = none) :
    renderSpans compile n ('\x60' :: e :: u) = .error (unclosedSpan ('\x60' :: e :: u) n) := by
  rw [renderSpans]
  simp only [if_true, if_neg he]
  split
  · rfl
  · rename_i heq
    cases hs.symm.trans heq

/-- Text that starts with no span. -/
theorem renderSpans_cons (compile : Text → Except Diagnostic Text) (n : Nat) {c : Char} (t : Text)
    (hc : c ≠ '\x60') : renderSpans compile n (c :: t) =
      (renderSpans compile (if c = '\n' then n + 1 else n) t).map (c :: ·) := by
  rw [renderSpans.eq_def]
  simp only [if_neg hc]

/-- The line number only shows in faults. -/
theorem renderSpans_number {compile : Text → Except Diagnostic Text} {n : Nat} (m : Nat)
    {t written : Text} (h : renderSpans compile n t = .ok written) :
    renderSpans compile m t = .ok written := by
  fun_induction renderSpans compile n t generalizing m written with
  | case1 =>
    rw [renderSpans]
    exact h
  | case2 => cases h
  | case3 n u ih =>
    obtain ⟨v, hv, rfl⟩ := exists_of_map_eq_ok h
    simp only [renderSpans, if_true, ih m hv, Except.map]
  | case4 => cases h
  | case5 n e u he markup shown rest hs after hnil ih =>
    rw [renderSpans_span compile m he hs, if_pos hnil]
    exact ih _ h
  | case6 n e u he markup shown rest hs after hnil out hc ih =>
    obtain ⟨v, hv, rfl⟩ := exists_of_map_eq_ok h
    simp only [renderSpans_span compile m he hs, if_neg hnil, hc, ih _ hv, Except.map]
  | case7 n e u he markup shown rest hs after hnil line body hc ih =>
    obtain ⟨v, hv, rfl⟩ := exists_of_map_eq_ok h
    simp only [renderSpans_span compile m he hs, if_neg hnil, hc, ih _ hv, Except.map]
  | case8 => cases h
  | case9 n c t hc ih =>
    obtain ⟨v, hv, rfl⟩ := exists_of_map_eq_ok h
    simp only [renderSpans_cons compile m t hc, ih _ hv, Except.map]

/-- Text is rendered to the same with lines added. -/
theorem carries_renderText (s : Setting) (t : Text) : Scan.Carries extra (renderText s t) := by
  intro cur curₑ he written cur' h
  obtain ⟨n, cur₁, hn, h₁⟩ := Scan.bind_eq_ok_iff.1 h
  cases hn
  obtain ⟨hr, rfl⟩ := Scan.ofExcept_eq_ok_iff.1 h₁
  refine ⟨curₑ, he, Scan.bind_eq_ok_iff.2 ⟨curₑ.number, curₑ, rfl, ?_⟩⟩
  exact Scan.ofExcept_eq_ok_iff.2 ⟨renderSpans_number _ hr, rfl⟩

/-- A value on the line is the same with lines added. -/
theorem carries_inlineValue (d : Delimiters) {t : Text} (ht : t.FitFor extra) :
    Scan.Carries extra (inlineValue d t) := by
  refine (carries_expression ?_).bind fun _ _ _ _ _ _ => Scan.carries_pure _
  exact ht.of_suffix ((optionalMark_suffix _ _).trans (optionalMark_suffix _ _))

/-- The content of a headline is the same with lines added. -/
theorem carries_inlineContent (s : Setting) {t : Text} (ht : t.FitFor extra) :
    Scan.Carries extra (inlineContent s t) := by
  unfold inlineContent
  split
  · exact Scan.carries_pure _
  · rename_i c t
    split
    · exact carries_inlineValue _ (ht.of_suffix (List.suffix_cons c t))
    · split
      · exact carries_renderText _ _
      · split
        · exact (carries_renderText _ _).bind fun _ _ _ _ _ _ => Scan.carries_pure _
        · exact carries_renderText _ _

/-- Continuations are followed alike with lines added, from a fit text on. -/
theorem carries_continued {t : Text} (ht : t.FitFor extra) :
    Scan.Carries extra (continued t) := by
  intro cur curₑ he rest cur' h
  cases h
  obtain ⟨curₑ', he', hbₑ⟩ := followBreaks_carries he ht rfl
  refine ⟨curₑ', he', ?_⟩
  simp only [continued, hbₑ]

/-- The closing parenthesis is found on the line, so added lines do not matter. -/
theorem carries_closeParens (parens : Bool) (t : Text) :
    Scan.Carries extra (closeParens parens t) := by
  unfold closeParens
  split
  · split
    · exact Scan.carries_pure _
    · exact Scan.carries_failAt _
  · exact Scan.carries_pure _

namespace Element

/-- The rest of the headline of an element makes the same element with lines added. -/
theorem carries_finish (s : Setting) (name attributes : Text) {tail : Text}
    (ht : tail.FitFor extra) : Scan.Carries extra (Element.finish s name attributes tail) := by
  unfold Element.finish
  cases Text.after? [':'] tail with
  | some rest => exact Scan.carries_pure _
  | none => exact (carries_inlineContent s ht).bind fun _ _ _ _ _ _ => Scan.carries_pure _

/-- The headline of an element is read to the same with lines added. -/
theorem carries_read (s : Setting) (disguise : Option Disguise) {line : Text}
    (hline : line.FitFor extra) : Scan.Carries extra (Element.read s disguise line) := by
  have hname := hline.of_suffix (elementName_suffix line)
  refine (carries_idShortcut _ _).bind fun ⟨idText, t₁⟩ _ _ _ he hid => ?_
  have h₁ := he.fit_of_leads hname (idShortcut_leads hid)
  refine (carries_classShortcuts _ _).bind fun ⟨classes, t₂⟩ _ _ _ he hclasses => ?_
  have h₂ := he.fit_of_leads h₁ (classShortcuts_leads hclasses)
  have htrim := h₂.of_suffix (Text.trimStart_suffix t₂)
  refine (carries_continued htrim).bind fun t₃ _ _ _ he hbreaks => ?_
  have h₃ : t₃.FitFor extra := by
    cases hbreaks
    exact he.fit_of_leads htrim (followBreaks_leads rfl)
  have hopened := h₃.of_suffix (optionalMark_suffix '(' t₃)
  refine (carries_readAttributes _ _ _ _ _ hopened).bind fun ⟨list, t₄⟩ _ _ _ he hattributes => ?_
  have h₄ := he.fit_of_leads hopened (readAttributes_leads hattributes)
  refine (carries_closeParens _ _).bind fun t₅ _ _ _ _ hparens => ?_
  exact carries_finish _ _ _ (h₄.of_suffix (closeParens_suffix hparens).1)

/-- What follows the colon of an element is fit again. -/
theorem fit_of_read {s : Setting} {disguise : Option Disguise} {line : Text} {e : Element}
    (hline : line.FitFor extra) (he : cur.Extends extra curₑ)
    (h : Element.read s disguise line cur = (.ok e, cur')) : e.rest.FitFor extra := by
  rcases Element.read_rest h with hnil | ⟨t, hl, hrest⟩
  · rw [hnil]
    exact .inr Text.tidy_nil
  · rw [hrest]
    refine (he.fit_of_leads hline hl).of_suffix ?_
    exact (Text.trimStart_suffix t).trans (List.suffix_cons ':' t)

end Element

end TerseMarkup
