import TerseMarkup.Element
import TerseMarkup.Proofs.Place

/-!
# How readings go

Every reader of the library moves forward only: the cursor never goes back, whatever the outcome
(`Nesting.reaches_close` up to `reaches_classShortcuts`). What a reader hands back as the rest is
the end of the text it was given, or of a line it has pulled (`Nesting.close_leads` up to
`classShortcuts_leads`). Both statements follow the definitions reader by reader, from the groups
up to the shortcuts of an element.
-/

namespace TerseMarkup

open Cursor (Reaches)
open Place (Leads leads_of_suffix leads_of_next? leads_of_reaches)

/-! ## Texts -/

namespace Text

/-- Trimming at the front leaves the end of a text. -/
theorem trimStart_suffix (t : Text) : trimStart t <:+ t :=
  List.dropWhile_suffix isBlank

/-- What follows a given start is the end of the text. -/
theorem suffix_of_after? {lead t rest : Text} (h : after? lead t = some rest) : rest <:+ t := by
  rw [after?_eq_some_iff.1 h]
  exact List.suffix_append lead rest

/-- What follows a string literal is the end of the text. -/
theorem suffix_of_quoted? {t q rest : Text} (h : quoted? t = some (q, rest)) : rest <:+ t := by
  rw [eq_append_of_quoted? h]
  exact List.suffix_append q rest

end Text

/-! ## Groups -/

namespace Nesting

/-- A mark and what follows it make up the text. -/
theorem eq_append_of_sequence? {mark t m rest : Text} (h : sequence? mark t = some (m, rest)) :
    t = m ++ rest := by
  unfold sequence? at h
  split at h
  · simp at h
  · obtain ⟨r, hr, hp⟩ := Option.map_eq_some_iff.1 h
    cases hp
    exact Text.after?_eq_some_iff.1 hr

/-- A mark and what follows it make up the text. -/
theorem eq_append_of_mark? {n : Nesting} {t m rest : Text} {turn : Turn}
    (h : n.mark? t = some (turn, m, rest)) : t = m ++ rest := by
  unfold mark? at h
  split at h
  · simp at h
  · split at h
    · cases h
      rfl
    · split at h
      · cases h
        rfl
      · simp at h
  · split at h
    · split at h
      · simp at h
      · split at h
        · cases h
          rfl
        · split at h
          · cases h
            rfl
          · simp at h
    · split at h
      · rename_i hs
        cases h
        exact eq_append_of_sequence? hs
      · obtain ⟨⟨m', r⟩, hr, hp⟩ := Option.map_eq_some_iff.1 h
        cases hp
        exact eq_append_of_sequence? hr

/-- An opening sequence and what follows it make up the text. -/
theorem eq_append_of_opening? {n : Nesting} {t start rest : Text} {depth : Nat}
    (h : n.opening? t = some (start, rest, depth)) : t = start ++ rest := by
  cases n with
  | brackets =>
    cases t with
    | nil => simp [opening?] at h
    | cons c t =>
      simp only [opening?] at h
      split at h
      · cases h
        rfl
      · simp at h
  | placeholder lead stop =>
    simp only [opening?] at h
    split at h
    · simp at h
    · obtain ⟨r, hr, hp⟩ := Option.map_eq_some_iff.1 h
      cases hp
      exact Text.after?_eq_some_iff.1 hr

/-- What follows a mark is the end of the text. -/
theorem suffix_of_mark? {n : Nesting} {t m rest : Text} {turn : Turn}
    (h : n.mark? t = some (turn, m, rest)) : rest <:+ t :=
  ⟨m, (eq_append_of_mark? h).symm⟩

/-- A search for the closing mark moves the cursor forward only. -/
theorem reaches_close (n : Nesting) (depth : Nat) (read tail : Text) (cur : Cursor) :
    cur.Reaches (n.close depth read tail cur).2 := by
  fun_induction n.close depth read tail cur with
  | case1 => assumption
  | case2 => exact .refl _
  | case3 => assumption
  | case4 => exact .refl _
  | case5 depth read tail cur h hend raw cur' hn ih =>
    exact (Cursor.reaches_of_next? hn).trans ih
  | case6 => assumption
  | case7 => exact .refl _
  | case8 => assumption

/-- What follows a group is the end of the text, or of a line pulled for the group. -/
theorem close_leads {n : Nesting} {depth : Nat} {read tail g rest : Text} {cur cur' : Cursor}
    (h : n.close depth read tail cur = (.ok (g, rest), cur')) :
    Leads ⟨tail, cur⟩ ⟨rest, cur'⟩ := by
  fun_induction n.close depth read tail cur with
  | case1 depth read tail cur mark r hm ih =>
    exact (leads_of_suffix cur (suffix_of_mark? hm)).trans (ih h)
  | case2 depth read tail cur mark r hm hd =>
    cases h
    exact leads_of_suffix _ (suffix_of_mark? hm)
  | case3 depth read tail cur mark r hm hd ih =>
    exact (leads_of_suffix cur (suffix_of_mark? hm)).trans (ih h)
  | case4 => simp at h
  | case5 depth read tail cur hm hend raw cur'' hn ih =>
    exact (leads_of_next? tail hn (Text.trimStart_suffix raw)).trans (ih h)
  | case6 depth read tail cur hm hend literal r hq ih =>
    exact (leads_of_suffix cur (Text.suffix_of_quoted? hq)).trans (ih h)
  | case7 => simp at h
  | case8 depth read cur c r hm hend hq ih =>
    exact (leads_of_suffix cur (List.suffix_cons c r)).trans (ih h)

theorem reaches_group? (n : Nesting) (t : Text) (cur : Cursor) :
    cur.Reaches (n.group? t cur).2 := by
  unfold group?
  split
  · exact .refl _
  · rename_i start rest depth _
    have h := n.reaches_close depth start rest cur
    split <;> rename_i heq <;> rw [heq] at h <;> exact h

/-- What follows the group at the front of a text is the end of it, or of a line pulled. -/
theorem group?_leads {n : Nesting} {t g rest : Text} {cur cur' : Cursor}
    (h : n.group? t cur = (.ok (some (g, rest)), cur')) : Leads ⟨t, cur⟩ ⟨rest, cur'⟩ := by
  unfold group? at h
  split at h
  · simp at h
  · rename_i start after depth ho
    split at h
    · rename_i found cur'' hc
      simp only [Prod.mk.injEq, Except.ok.injEq, Option.some.injEq] at h
      obtain ⟨rfl, rfl⟩ := h
      exact (leads_of_suffix cur ⟨start, (eq_append_of_opening? ho).symm⟩).trans (close_leads hc)
    · simp at h

/-- Where there is no group, nothing is pulled. -/
theorem eq_of_group?_eq_none {n : Nesting} {t : Text} {cur cur' : Cursor}
    (h : n.group? t cur = (.ok none, cur')) : cur' = cur := by
  unfold group? at h
  split at h
  · cases h
    rfl
  · split at h <;> simp at h

end Nesting

/-! ## Tokens -/

theorem reaches_groupOf? (n : Option Nesting) (t : Text) (cur : Cursor) :
    cur.Reaches (groupOf? n t cur).2 := by
  cases n with
  | none => exact .refl _
  | some n => exact n.reaches_group? t cur

/-- So is what follows a group of a nesting that may be missing. -/
theorem groupOf?_leads {n : Option Nesting} {t g rest : Text} {cur cur' : Cursor}
    (h : groupOf? n t cur = (.ok (some (g, rest)), cur')) : Leads ⟨t, cur⟩ ⟨rest, cur'⟩ := by
  cases n with
  | none => simp [groupOf?] at h
  | some n => exact Nesting.group?_leads h

/-- Nothing is pulled where no group opens. -/
theorem eq_of_groupOf?_eq_none {n : Option Nesting} {t : Text} {cur cur' : Cursor}
    (h : groupOf? n t cur = (.ok none, cur')) : cur' = cur := by
  cases n with
  | none =>
    cases h
    rfl
  | some n => exact Nesting.eq_of_group?_eq_none h

/-- An atom moves the cursor forward only. -/
theorem reaches_atom (n : Option Nesting) (c : Char) (t : Text) (cur : Cursor) :
    cur.Reaches (atom n c t cur).2 := by
  have h := reaches_groupOf? n (c :: t) cur
  unfold atom
  split
  · rename_i heq
    rw [heq] at h
    exact h
  · rename_i heq
    rw [heq] at h
    exact h
  · rename_i cur' heq
    rw [heq] at h
    split
    · exact h
    · have h' := Nesting.brackets.reaches_group? (c :: t) cur'
      split <;> rename_i heq' <;> rw [heq'] at h' <;> exact h.trans h'

/-- The ways an atom can be read: a group that the kind asks for, a string literal, a bracket group,
or a single character. Only groups pull lines. -/
theorem atom_cases {n : Option Nesting} {c : Char} {t a rest : Text} {cur cur' : Cursor}
    (h : atom n c t cur = (.ok (a, rest), cur')) :
    groupOf? n (c :: t) cur = (.ok (some (a, rest)), cur') ∨
      groupOf? n (c :: t) cur = (.ok none, cur) ∧
        (Text.quoted? (c :: t) = some (a, rest) ∧ cur' = cur ∨
          Text.quoted? (c :: t) = none ∧
            (Nesting.brackets.group? (c :: t) cur = (.ok (some (a, rest)), cur') ∨
              Nesting.brackets.group? (c :: t) cur = (.ok none, cur) ∧
                a = [c] ∧ rest = t ∧ cur' = cur)) := by
  unfold atom at h
  split at h
  · simp at h
  · rename_i found cur₁ heq
    simp only [Prod.mk.injEq, Except.ok.injEq] at h
    obtain ⟨rfl, rfl⟩ := h
    exact .inl heq
  · rename_i cur₁ heq
    obtain rfl := eq_of_groupOf?_eq_none heq
    refine .inr ⟨heq, ?_⟩
    split at h
    · rename_i found hq
      simp only [Prod.mk.injEq, Except.ok.injEq] at h
      obtain ⟨rfl, rfl⟩ := h
      exact .inl ⟨hq, rfl⟩
    · rename_i hq
      refine .inr ⟨hq, ?_⟩
      split at h
      · simp at h
      · rename_i found cur₂ hg
        simp only [Prod.mk.injEq, Except.ok.injEq] at h
        obtain ⟨rfl, rfl⟩ := h
        exact .inl hg
      · rename_i cur₂ hg
        obtain rfl := Nesting.eq_of_group?_eq_none hg
        simp only [Prod.mk.injEq, Except.ok.injEq] at h
        obtain ⟨⟨rfl, rfl⟩, rfl⟩ := h
        exact .inr ⟨hg, rfl, rfl, rfl⟩

/-- What follows an atom is the end of the text, or of a line pulled for it. -/
theorem atom_leads {n : Option Nesting} {c : Char} {t a rest : Text} {cur cur' : Cursor}
    (h : atom n c t cur = (.ok (a, rest), cur')) : Leads ⟨c :: t, cur⟩ ⟨rest, cur'⟩ := by
  rcases atom_cases h with hg | ⟨-, ⟨hq, rfl⟩ | ⟨-, hg | ⟨-, rfl, rfl, rfl⟩⟩⟩
  · exact groupOf?_leads hg
  · exact leads_of_suffix _ (Text.suffix_of_quoted? hq)
  · exact Nesting.group?_leads hg
  · exact leads_of_suffix _ (List.suffix_cons ..)

/-- Atoms move the cursor forward only. -/
theorem reaches_atoms (n : Nesting) (stops : List Text) (tail : Text) (cur : Cursor) :
    cur.Reaches (atoms n stops tail cur).2 := by
  fun_induction atoms n stops tail cur with
  | case1 => exact .refl _
  | case2 => exact .refl _
  | case3 cur c t hs e cur' h =>
    have := reaches_atom (some n) c t cur
    rwa [h] at this
  | case4 cur c t hs a rest cur' h e cur'' hm ih =>
    rw [hm] at ih
    exact (atom_leads h).reaches.trans ih
  | case5 cur c t hs a rest cur' h more rest' cur'' hm ih =>
    rw [hm] at ih
    exact (atom_leads h).reaches.trans ih

/-- What follows atoms is the end of the text, or of a line pulled for them. -/
theorem atoms_leads {n : Nesting} {stops : List Text} {tail read rest : Text}
    {cur cur' : Cursor} (h : atoms n stops tail cur = (.ok (read, rest), cur')) :
    Leads ⟨tail, cur⟩ ⟨rest, cur'⟩ := by
  fun_induction atoms n stops tail cur generalizing read rest cur' with
  | case1 cur =>
    cases h
    exact .refl _
  | case2 cur c t hs =>
    cases h
    exact .refl _
  | case3 => simp at h
  | case4 => simp at h
  | case5 cur c t hs a r curr ha more r' curr' hm ih =>
    simp only [Prod.mk.injEq, Except.ok.injEq] at h
    obtain ⟨⟨-, rfl⟩, rfl⟩ := h
    exact (atom_leads ha).trans (ih hm)

/-- A token moves the cursor forward only. -/
theorem reaches_token? (n : Nesting) (lead : Text) (stops : List Text) (line : Text)
    (cur : Cursor) : cur.Reaches (token? n lead stops line cur).2 := by
  unfold token?
  split
  · exact .refl _
  · split
    · exact .refl _
    · rename_i t _
      have h := reaches_atoms n stops t cur
      split <;> rename_i heq <;> rw [heq] at h <;> exact h

/-- What follows a token is the end of the line, or of a line pulled for it. -/
theorem token?_leads {n : Nesting} {lead : Text} {stops : List Text} {line v rest : Text}
    {cur cur' : Cursor} (h : token? n lead stops line cur = (.ok (some (v, rest)), cur')) :
    Leads ⟨line, cur⟩ ⟨rest, cur'⟩ := by
  unfold token? at h
  split at h
  · simp at h
  · split at h
    · simp at h
    · rename_i t ht
      split at h
      · simp at h
      · rename_i buf r curr heq
        simp only [Prod.mk.injEq, Except.ok.injEq, Option.some.injEq] at h
        obtain ⟨⟨rfl, rfl⟩, rfl⟩ := h
        exact (leads_of_suffix cur (Text.suffix_of_after? ht)).trans (atoms_leads heq)

/-! ## Continuations and expressions -/

/-- Continuations lead to the end of a line pulled for them, or stay where they are. -/
theorem followBreaksOver_leads (tail : Text) (ahead : List Text) (n : Nat) :
    Leads ⟨tail, ⟨ahead, n⟩⟩
      ⟨(followBreaksOver tail ahead n).2.1, (followBreaksOver tail ahead n).2.2⟩ := by
  induction ahead generalizing tail n with
  | nil =>
    unfold followBreaksOver
    split
    · exact leads_of_suffix _ (List.nil_suffix ..)
    · exact .refl _
  | cons raw ahead ih =>
    unfold followBreaksOver
    split
    · exact (leads_of_next? tail (Cursor.next?_cons raw ahead n) (Text.trimStart_suffix raw)).trans
        (ih raw.trimStart (n + 1))
    · exact .refl _

/-- The same of `followBreaks`, which is given a cursor. -/
theorem followBreaks_leads {tail t : Text} {cur cur' : Cursor} {found : Bool}
    (h : followBreaks tail cur = (found, t, cur')) : Leads ⟨tail, cur⟩ ⟨t, cur'⟩ := by
  have hl := followBreaksOver_leads tail cur.ahead cur.number
  unfold followBreaks at h
  rw [h] at hl
  exact hl

/-- The atoms of an expression move the cursor forward only. -/
theorem reaches_expressionAtoms (tail : Text) (cur : Cursor) :
    cur.Reaches (expressionAtoms tail cur).2 := by
  fun_induction expressionAtoms tail cur with
  | case1 => exact .refl _
  | case2 tail cur h found cur' hs => exact (followBreaks_leads hs).reaches
  | case3 tail cur h found c t cur' hs e cur'' ha =>
    have := reaches_atom none c t cur'
    rw [ha] at this
    exact (followBreaks_leads hs).reaches.trans this
  | case4 tail cur h found c t cur' hs a rest cur'' ha e cur₃ hm ih =>
    rw [hm] at ih
    exact (followBreaks_leads hs).reaches.trans ((atom_leads ha).reaches.trans ih)
  | case5 tail cur h found c t cur' hs a rest cur'' ha more cur₃ hm ih =>
    rw [hm] at ih
    exact (followBreaks_leads hs).reaches.trans ((atom_leads ha).reaches.trans ih)

/-- An expression moves the cursor forward only. -/
theorem forward_expression (t : Text) : Scan.Forward (expression t) := by
  intro cur
  have h := reaches_expressionAtoms (t.trim ++ ['\n']) cur
  unfold expression
  split <;> rename_i heq <;> rw [heq] at h <;> exact h

/-! ## Attributes -/

theorem reaches_splat? (d : Delimiters) (parens : Bool) (line : Text) (cur : Cursor) :
    cur.Reaches (splat? d parens line cur).2 := by
  unfold splat?
  split
  · exact .refl _
  · rename_i t _
    have h := reaches_token? d.placeholder [] (splatStops parens) t cur
    split <;> rename_i heq <;> rw [heq] at h
    · exact h
    · exact h
    · split <;> exact h

/-- What follows a mapping is the end of the line, or of a line pulled for it. -/
theorem splat?_leads {d : Delimiters} {parens : Bool} {line v rest : Text} {cur cur' : Cursor}
    (h : splat? d parens line cur = (.ok (some (v, rest)), cur')) :
    Leads ⟨line, cur⟩ ⟨rest, cur'⟩ := by
  unfold splat? at h
  split at h
  · simp at h
  · rename_i t ht
    split at h
    · simp at h
    · simp at h
    · rename_i mapping r curr heq
      split at h
      · simp at h
      · simp only [Prod.mk.injEq, Except.ok.injEq, Option.some.injEq] at h
        obtain ⟨⟨-, rfl⟩, rfl⟩ := h
        exact (leads_of_suffix cur (Text.suffix_of_after? ht)).trans (token?_leads heq)

/-- What follows a quoted value is the end of the text. -/
theorem suffix_of_quotedValue? {t v rest : Text} (h : quotedValue? t = some (v, rest)) :
    rest <:+ t := by
  unfold quotedValue? at h
  split at h
  · rename_i mark literal r hm hq
    cases h
    exact Text.suffix_of_quoted? hq
  · simp at h

/-- What follows a sign is the end of the text. -/
theorem splitSign_suffix (t : Text) : (splitSign t).2 <:+ t := by
  unfold splitSign
  split
  · exact List.suffix_refl _
  · split
    · exact List.suffix_cons ..
    · exact List.suffix_refl _

/-- What follows a number is the end of the text. -/
theorem suffix_of_numericValue? {t v rest : Text} (h : numericValue? t = some (v, rest)) :
    rest <:+ t := by
  have hwhole : (splitSign t).2.dropWhile isDigit <:+ t :=
    (List.dropWhile_suffix isDigit).trans (splitSign_suffix t)
  have hdrop : ((splitSign t).2.dropWhile isDigit).drop 1 <:+ t :=
    (List.drop_suffix 1 _).trans hwhole
  simp only [numericValue?] at h
  split at h
  · cases h
    exact (List.dropWhile_suffix isDigit).trans hdrop
  · split at h
    · simp at h
    · split at h <;> cases h
      · exact hdrop
      · exact hwhole

theorem reaches_assignment? (d : Delimiters) (parens : Bool) (name t : Text) (cur : Cursor) :
    cur.Reaches (assignment? d parens name t cur).2 := by
  have h := reaches_token? d.placeholder [] (valueStops parens) t cur
  unfold assignment?
  split
  · exact .refl _
  · split
    · exact .refl _
    · split <;> rename_i heq <;> rw [heq] at h
      · exact h
      · exact h
      · simp only
        split <;> exact h

/-- What follows the value of an attribute is the end of the text, or of a line pulled for it. -/
theorem assignment?_leads {d : Delimiters} {parens : Bool} {name t v rest : Text}
    {cur cur' : Cursor} (h : assignment? d parens name t cur = (.ok (some (v, rest)), cur')) :
    Leads ⟨t, cur⟩ ⟨rest, cur'⟩ := by
  unfold assignment? at h
  split at h
  · rename_i hq
    simp only [Prod.mk.injEq, Except.ok.injEq, Option.some.injEq] at h
    obtain ⟨⟨-, rfl⟩, rfl⟩ := h
    exact leads_of_suffix cur (suffix_of_quotedValue? hq)
  · split at h
    · rename_i hn
      simp only [Prod.mk.injEq, Except.ok.injEq, Option.some.injEq] at h
      obtain ⟨⟨-, rfl⟩, rfl⟩ := h
      exact leads_of_suffix cur (suffix_of_numericValue? hn)
    · split at h
      · simp at h
      · simp at h
      · rename_i token r curr heq
        have hl := token?_leads heq
        simp only at h
        split at h
        · rename_i r' hr
          simp only [Prod.mk.injEq, Except.ok.injEq, Option.some.injEq] at h
          obtain ⟨⟨-, rfl⟩, rfl⟩ := h
          exact hl.trans (leads_of_suffix curr (Text.suffix_of_after? hr))
        · simp only [Prod.mk.injEq, Except.ok.injEq, Option.some.injEq] at h
          obtain ⟨⟨-, rfl⟩, rfl⟩ := h
          exact hl

theorem reaches_attribute? (d : Delimiters) (parens : Bool) (line : Text) (cur : Cursor) :
    cur.Reaches (attribute? d parens line cur).2 := by
  have h := reaches_token? d.placeholder [] (nameStops parens) line cur
  unfold attribute?
  split <;> rename_i heq <;> rw [heq] at h
  · exact h
  · exact h
  · split
    · exact h
    · split
      · exact h.trans (reaches_assignment? ..)
      · split <;> exact h

/-- What follows an attribute is the end of the line, or of a line pulled for it. -/
theorem attribute?_leads {d : Delimiters} {parens : Bool} {line v rest : Text}
    {cur cur' : Cursor} (h : attribute? d parens line cur = (.ok (some (v, rest)), cur')) :
    Leads ⟨line, cur⟩ ⟨rest, cur'⟩ := by
  unfold attribute? at h
  split at h
  · simp at h
  · simp at h
  · rename_i name r curr heq
    have hl := token?_leads heq
    split at h
    · simp at h
    · split at h
      · rename_i t ht
        exact hl.trans ((leads_of_suffix curr (Text.suffix_of_after? ht)).trans
          (assignment?_leads h))
      · split at h
        · simp only [Prod.mk.injEq, Except.ok.injEq, Option.some.injEq] at h
          obtain ⟨⟨-, rfl⟩, rfl⟩ := h
          exact hl
        · simp at h

/-! ## Elements -/

/-- What follows the name of an element is the end of the headline. -/
theorem elementName_suffix (t : Text) : (elementName t).2 <:+ t := by
  unfold elementName
  split
  · exact List.suffix_refl _
  · split
    · exact (List.dropWhile_suffix isElementRest).trans (List.suffix_cons ..)
    · exact List.suffix_refl _

/-- What follows an optional mark is the end of the text. -/
theorem optionalMark_suffix (mark : Char) (t : Text) : (optionalMark mark t).2 <:+ t := by
  unfold optionalMark
  split
  · rename_i rest h
    exact Text.suffix_of_after? h
  · exact List.suffix_refl _

theorem forward_idShortcut (d : Delimiters) (t : Text) : Scan.Forward (idShortcut d t) := by
  refine Scan.Forward.bind (reaches_token? d.placeholder ['#'] shortcutStops t) fun found => ?_
  cases found with
  | none => exact Scan.forward_pure _
  | some found => exact Scan.forward_pure _

/-- What follows an id is the end of the text, or of a line pulled for it. -/
theorem idShortcut_leads {d : Delimiters} {t id rest : Text} {cur cur' : Cursor}
    (h : idShortcut d t cur = (.ok (id, rest), cur')) : Leads ⟨t, cur⟩ ⟨rest, cur'⟩ := by
  obtain ⟨found, cur₁, ht, hf⟩ := Scan.bind_eq_ok_iff.1 h
  cases found with
  | none =>
    have hr := reaches_token? d.placeholder ['#'] shortcutStops t cur
    rw [ht] at hr
    cases hf
    exact leads_of_reaches t hr
  | some found =>
    cases hf
    exact token?_leads ht

/-- Reading the classes moves the cursor forward only. -/
theorem reaches_classShortcuts (d : Delimiters) (t : Text) (cur : Cursor) :
    cur.Reaches (classShortcuts d t cur).2 := by
  fun_induction classShortcuts d t cur with
  | case1 t cur e cur' h =>
    have := reaches_token? d.placeholder ['.'] shortcutStops t cur
    rwa [h] at this
  | case2 t cur cur' h =>
    have := reaches_token? d.placeholder ['.'] shortcutStops t cur
    rwa [h] at this
  | case3 t cur name rest cur' h e cur'' hm ih =>
    rw [hm] at ih
    exact (token?_leads h).reaches.trans ih
  | case4 t cur name rest cur' h classes rest' cur'' hm ih =>
    rw [hm] at ih
    exact (token?_leads h).reaches.trans ih

/-- What follows the classes is the end of the text, or of a line pulled for them. -/
theorem classShortcuts_leads {d : Delimiters} {t rest : Text} {classes : List Text}
    {cur cur' : Cursor} (h : classShortcuts d t cur = (.ok (classes, rest), cur')) :
    Leads ⟨t, cur⟩ ⟨rest, cur'⟩ := by
  fun_induction classShortcuts d t cur generalizing classes rest cur' with
  | case1 => simp at h
  | case2 t cur cur₁ ht =>
    have hr := reaches_token? d.placeholder ['.'] shortcutStops t cur
    rw [ht] at hr
    cases h
    exact leads_of_reaches t hr
  | case3 => simp at h
  | case4 t cur name r cur₁ ht classes' r' cur₂ hm ih =>
    simp only [Prod.mk.injEq, Except.ok.injEq] at h
    obtain ⟨⟨-, rfl⟩, rfl⟩ := h
    exact (token?_leads ht).trans (ih hm)

end TerseMarkup
