import TerseMarkup.Scan.Group

/-!
# Tokens

A token is read atom by atom up to a terminator. An atom is a placeholder, a string literal, a
bracket group or a single character, so that a terminator inside brackets or quotes does not end
the token.
-/

namespace TerseMarkup

/-- The group of an optional kind at the front of a text. -/
def groupOf? (n : Option Nesting) (t : Text) (cur : Cursor) :
    Except Diagnostic (Option (Text × Text)) × Cursor :=
  match n with
  | none => (.ok none, cur)
  | some n => n.group? t cur

/-- The first atom of the text `c :: t`, and what follows it. -/
def atom (n : Option Nesting) (c : Char) (t : Text) (cur : Cursor) :
    Except Diagnostic (Text × Text) × Cursor :=
  match groupOf? n (c :: t) cur with
  | (.error e, cur') => (.error e, cur')
  | (.ok (some found), cur') => (.ok found, cur')
  | (.ok none, cur') =>
    match Text.quoted? (c :: t) with
    | some found => (.ok found, cur')
    | none =>
      match Nesting.brackets.group? (c :: t) cur' with
      | (.error e, cur'') => (.error e, cur'')
      | (.ok (some found), cur'') => (.ok found, cur'')
      | (.ok none, cur'') => (.ok ([c], t), cur'')

/-! ## Progress of an atom -/

/-- Reading a group does not add to what is to come. -/
theorem size_groupOf?_le (n : Option Nesting) (t : Text) (cur : Cursor) :
    (groupOf? n t cur).2.size ≤ cur.size := by
  cases n with
  | none => exact Nat.le_refl _
  | some n => exact n.size_group?_le t cur

/-- What follows a group is less than there was. -/
theorem groupOf?_progress {n : Option Nesting} {t g rest : Text} {cur cur' : Cursor}
    (h : groupOf? n t cur = (.ok (some (g, rest)), cur')) :
    cur'.size + rest.length < cur.size + t.length := by
  cases n with
  | none => simp [groupOf?] at h
  | some n => exact Nesting.group?_progress h

/-- Reading an atom never moves the cursor back. -/
theorem size_atom_le (n : Option Nesting) (c : Char) (t : Text) (cur : Cursor) :
    (atom n c t cur).2.size ≤ cur.size := by
  have h := size_groupOf?_le n (c :: t) cur
  unfold atom
  split
  · rename_i heq
    rw [heq] at h
    exact h
  · rename_i heq
    rw [heq] at h
    exact h
  · rename_i cur' heq
    rw [heq] at h
    split
    · exact h
    · have h' := Nesting.brackets.size_group?_le (c :: t) cur'
      split <;> rename_i heq' <;> rw [heq'] at h' <;> exact Nat.le_trans h' h

/-- An atom leaves less to read than there was. -/
theorem atom_progress {n : Option Nesting} {c : Char} {t a rest : Text} {cur cur' : Cursor}
    (h : atom n c t cur = (.ok (a, rest), cur')) :
    cur'.size + rest.length < cur.size + (c :: t).length := by
  have hsize := size_groupOf?_le n (c :: t) cur
  unfold atom at h
  split at h
  · simp at h
  · rename_i found curr heq
    simp only [Prod.mk.injEq, Except.ok.injEq] at h
    obtain ⟨rfl, rfl⟩ := h
    exact groupOf?_progress heq
  · rename_i curr heq
    have hsize : curr.size ≤ cur.size := by simpa [heq] using hsize
    split at h
    · rename_i found hq
      simp only [Prod.mk.injEq, Except.ok.injEq] at h
      obtain ⟨rfl, rfl⟩ := h
      have := Text.length_lt_of_quoted? hq
      omega
    · have hsize' := Nesting.brackets.size_group?_le (c :: t) curr
      split at h
      · simp at h
      · rename_i found curr' heq'
        simp only [Prod.mk.injEq, Except.ok.injEq] at h
        obtain ⟨rfl, rfl⟩ := h
        have := Nesting.group?_progress heq'
        omega
      · rename_i curr' heq'
        have hsize' : curr'.size ≤ curr.size := by simpa [heq'] using hsize'
        simp only [Prod.mk.injEq, Except.ok.injEq] at h
        obtain ⟨⟨rfl, rfl⟩, rfl⟩ := h
        rw [List.length_cons]
        omega

/-! ## Tokens -/

/-- Reads atoms up to the first terminator: what they make up, and what follows them. -/
def atoms (n : Nesting) (stops : List Text) (tail : Text) (cur : Cursor) :
    Except Diagnostic (Text × Text) × Cursor :=
  match tail with
  | [] => (.ok ([], []), cur)
  | c :: t =>
    if stops.any (·.isPrefixOf (c :: t)) then (.ok ([], c :: t), cur)
    else
      match _h : atom (some n) c t cur with
      | (.error e, cur') => (.error e, cur')
      | (.ok (a, rest), cur') =>
        match atoms n stops rest cur' with
        | (.error e, cur'') => (.error e, cur'')
        | (.ok (more, rest), cur'') => (.ok (a ++ more, rest), cur'')
termination_by cur.size + tail.length
decreasing_by
  exact atom_progress _h

/-- The token that starts with `lead` and runs up to a terminator, and what follows it. The token
loses its trailing blanks. -/
def token? (n : Nesting) (lead : Text) (stops : List Text) (line : Text) (cur : Cursor) :
    Except Diagnostic (Option (Text × Text)) × Cursor :=
  if line.isEmpty then (.ok none, cur)
  else
    match Text.after? lead line with
    | none => (.ok none, cur)
    | some t =>
      match atoms n stops t cur with
      | (.error e, cur') => (.error e, cur')
      | (.ok (read, rest), cur') => (.ok (some (Text.trimEnd (lead ++ read), rest)), cur')

/-! ## Progress of a token -/

/-- Reading atoms never moves the cursor back. -/
theorem size_atoms_le (n : Nesting) (stops : List Text) (tail : Text) (cur : Cursor) :
    (atoms n stops tail cur).2.size ≤ cur.size := by
  fun_induction atoms n stops tail cur with
  | case1 => exact Nat.le_refl _
  | case2 => exact Nat.le_refl _
  | case3 cur c t hs e cur' h =>
    have := size_atom_le (some n) c t cur
    rw [h] at this
    exact this
  | case4 cur c t hs a rest cur' h e cur'' hm ih =>
    have := size_atom_le (some n) c t cur
    rw [h] at this
    rw [hm] at ih
    exact Nat.le_trans ih this
  | case5 cur c t hs a rest cur' h more rest' cur'' hm ih =>
    have := size_atom_le (some n) c t cur
    rw [h] at this
    rw [hm] at ih
    exact Nat.le_trans ih this

/-- Atoms either leave less to read or are none at all. -/
theorem atoms_progress {n : Nesting} {stops : List Text} {tail read rest : Text}
    {cur cur' : Cursor} (h : atoms n stops tail cur = (.ok (read, rest), cur')) :
    (read = [] ∧ rest = tail ∧ cur' = cur) ∨
      cur'.size + rest.length < cur.size + tail.length := by
  fun_induction atoms n stops tail cur generalizing read rest cur' with
  | case1 cur =>
    cases h
    exact .inl ⟨rfl, rfl, rfl⟩
  | case2 cur c t hs =>
    cases h
    exact .inl ⟨rfl, rfl, rfl⟩
  | case3 => simp at h
  | case4 => simp at h
  | case5 cur c t hs a r curr ha more r' curr' hm ih =>
    have hlt := atom_progress ha
    simp only [Prod.mk.injEq, Except.ok.injEq] at h
    obtain ⟨⟨-, rfl⟩, rfl⟩ := h
    refine .inr ?_
    rcases ih hm with ⟨-, rfl, rfl⟩ | hlt'
    · exact hlt
    · exact Nat.lt_trans hlt' hlt

/-- Looking for a token never moves the cursor back. -/
theorem size_token?_le (n : Nesting) (lead : Text) (stops : List Text) (line : Text)
    (cur : Cursor) : (token? n lead stops line cur).2.size ≤ cur.size := by
  unfold token?
  split
  · exact Nat.le_refl _
  · split
    · exact Nat.le_refl _
    · rename_i t _
      have h := size_atoms_le n stops t cur
      split <;> rename_i heq <;> rw [heq] at h <;> exact h

/-- A non-empty token leaves less to read than there was. -/
theorem token?_progress {n : Nesting} {lead : Text} {stops : List Text} {line v rest : Text}
    {cur cur' : Cursor} (h : token? n lead stops line cur = (.ok (some (v, rest)), cur'))
    (hne : lead ≠ [] ∨ v ≠ []) : cur'.size + rest.length < cur.size + line.length := by
  unfold token? at h
  split at h
  · simp at h
  · split at h
    · simp at h
    · rename_i t ht
      have hline := congrArg List.length (Text.after?_eq_some_iff.1 ht)
      rw [List.length_append] at hline
      split at h
      · simp at h
      · rename_i buf r curr heq
        simp only [Prod.mk.injEq, Except.ok.injEq, Option.some.injEq] at h
        obtain ⟨⟨rfl, rfl⟩, rfl⟩ := h
        rcases atoms_progress heq with ⟨rfl, rfl, rfl⟩ | hlt
        · have hlead : 0 < lead.length := by
            rcases hne with hne | hne
            · exact List.length_pos_iff.2 hne
            · refine List.length_pos_iff.2 fun hnil => hne ?_
              rw [hnil]
              rfl
          omega
        · omega

/-- What a token leaves is no more than there was. -/
theorem token?_le {n : Nesting} {lead : Text} {stops : List Text} {line v rest : Text}
    {cur cur' : Cursor} (h : token? n lead stops line cur = (.ok (some (v, rest)), cur')) :
    cur'.size + rest.length ≤ cur.size + line.length := by
  unfold token? at h
  split at h
  · simp at h
  · split at h
    · simp at h
    · rename_i t ht
      have hline := congrArg List.length (Text.after?_eq_some_iff.1 ht)
      rw [List.length_append] at hline
      split at h
      · simp at h
      · rename_i buf r curr heq
        simp only [Prod.mk.injEq, Except.ok.injEq, Option.some.injEq] at h
        obtain ⟨⟨rfl, rfl⟩, rfl⟩ := h
        rcases atoms_progress heq with ⟨rfl, rfl, rfl⟩ | hlt <;> omega

end TerseMarkup
