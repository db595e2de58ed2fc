import TerseMarkup.Proofs.Settling

/-!
# Trimming

How trimming acts on a text that is put together from two. A text is told blank by its trimmed
start: `Text.trimStart_eq_nil_iff`.
-/

namespace TerseMarkup.Text

variable {t u : Text}

/-- A condition on the characters of a text is tried on one after the other. -/
theorem forall_mem_of_all {P : Char → Prop} [DecidablePred P]
    (h : t.all (fun c => decide (P c)) = true) : ∀ c ∈ t, P c :=
  fun c hc => of_decide_eq_true (List.all_eq_true.1 h c hc)

/-- Trimming at the front, by the first character. -/
theorem trimStart_cons (c : Char) (t : Text) :
    trimStart (c :: t) = if isBlank c then trimStart t else c :: t := by
  unfold trimStart
  rw [List.dropWhile_cons]

/-- Trimming leaves nothing exactly of blank texts. -/
theorem trimStart_eq_nil_iff : trimStart t = [] ↔ ∀ c ∈ t, isBlank c = true := by
  induction t with
  | nil => simp [trimStart]
  | cons c t ih =>
    rw [trimStart_cons]
    split
    · rename_i hc
      simp [ih, hc]
    · rename_i hc
      simp [hc]

/-- A text that is trimmed at the front is never a line feed alone. -/
theorem trimStart_ne_lineFeed (t : Text) : trimStart t ≠ ['\n'] := by
  intro h
  have hhead := List.head?_dropWhile_not isBlank t
  unfold trimStart at h
  rw [h] at hhead
  exact absurd (show isBlank '\n' = false from hhead) (by decide)

/-- Blanks in front do not matter if the start is trimmed. -/
theorem trimStart_append_blank (h : ∀ c ∈ t, isBlank c = true) (u : Text) :
    trimStart (t ++ u) = trimStart u :=
  List.dropWhile_append_of_pos h

/-- Trimming at the front does not reach behind a text that is not blank. -/
theorem trimStart_append (h : trimStart t ≠ []) (u : Text) :
    trimStart (t ++ u) = trimStart t ++ u := by
  induction t with
  | nil => exact absurd rfl h
  | cons c t ih =>
    rw [trimStart_cons] at h
    rw [List.cons_append, trimStart_cons, trimStart_cons]
    split
    · rename_i hc
      rw [if_pos hc] at h
      exact ih h
    · rfl

/-- Trimming at the end does not reach in front of a text that is not blank. -/
theorem trimEnd_append (h : trimEnd u ≠ []) (t : Text) : trimEnd (t ++ u) = t ++ trimEnd u := by
  have hrev : trimStart u.reverse ≠ [] := fun hnil => h (congrArg List.reverse hnil)
  have hcut := trimStart_append hrev t.reverse
  rw [← List.reverse_append] at hcut
  refine (congrArg List.reverse hcut).trans ?_
  rw [List.reverse_append, List.reverse_reverse]
  rfl

/-- Trimming both ends leaves nothing exactly of blank texts. -/
theorem trim_eq_nil_iff : trim t = [] ↔ ∀ c ∈ t, isBlank c = true := by
  constructor
  · intro h c hc
    have hrest : trimStart (trimStart t).reverse = [] := List.reverse_eq_nil_iff.1 h
    rw [← takeWhile_append_trimStart t] at hc
    rcases List.mem_append.1 hc with hc | hc
    · exact List.all_eq_true.1 List.all_takeWhile c hc
    · exact trimStart_eq_nil_iff.1 hrest c (List.mem_reverse.2 hc)
  · intro h
    rw [trim, trimStart_eq_nil_iff.2 h]
    rfl

/-- Blanks in front of a text are trimmed. -/
theorem trim_blank_append (ht : ∀ c ∈ t, isBlank c = true) (u : Text) : trim (t ++ u) = trim u := by
  unfold trim
  rw [trimStart_append_blank ht]

/-- Blanks behind do not matter if a text is trimmed. -/
theorem trim_append_blank (t : Text) (hu : ∀ c ∈ u, isBlank c = true) :
    trim (t ++ u) = trim t := by
  unfold trim
  by_cases ht : trimStart t = []
  · rw [trimStart_append_blank (trimStart_eq_nil_iff.1 ht), trimStart_eq_nil_iff.2 hu, ht]
  · rw [trimStart_append ht, trimEnd_append_blank _ hu]

/-- There is nothing to trim in front of a text that does not start with a blank. -/
theorem trimStart_eq_self (h : ∀ c, t.head? = some c → isBlank c = false) : trimStart t = t := by
  cases t with
  | nil => rfl
  | cons c t => rw [trimStart_cons, h c rfl, if_neg (by decide)]

/-- There is nothing to trim behind a text that does not end with a blank. -/
theorem trimEnd_eq_self (h : ∀ c, t.getLast? = some c → isBlank c = false) : trimEnd t = t := by
  have hrev : trimStart t.reverse = t.reverse :=
    trimStart_eq_self fun c hc => h c (List.head?_reverse ▸ hc)
  exact (congrArg List.reverse hrev).trans (List.reverse_reverse t)

/-- A text that is trimmed at the front does not start with a blank. -/
theorem isBlank_head?_trimStart {c : Char} (h : (trimStart t).head? = some c) :
    isBlank c = false := by
  have hhead := List.head?_dropWhile_not isBlank t
  unfold trimStart at h
  rw [h] at hhead
  exact hhead

/-- Nor does a text that is trimmed at both ends. -/
theorem isBlank_head?_trim {c : Char} (h : (trim t).head? = some c) : isBlank c = false := by
  obtain ⟨u, hu, -⟩ := exists_trimEnd_append (trimStart t)
  unfold trim at h
  exact isBlank_head?_trimStart (by rw [hu, List.head?_append, h]; rfl)

/-- Trimming twice is trimming once. -/
theorem trim_trim (t : Text) : trim (trim t) = trim t := by
  have hstart : trimStart (trim t) = trim t := trimStart_eq_self fun _ => isBlank_head?_trim
  rw [trim, hstart]
  exact trimEnd_eq_self fun _ => isBlank_getLast?_trimEnd

/-! ## Texts that are alike up to trimming -/

section UpToTrimming

variable {t' x y : Text} {c : Char}

/-- Trimming at the end does not reach into a text that does not end with a blank. -/
theorem trimEnd_append_left (hx : ∀ c, x.getLast? = some c → isBlank c = false) (y : Text) :
    trimEnd (x ++ y) = x ++ trimEnd y := by
  by_cases hy : trimEnd y = []
  · obtain ⟨e, heq, he⟩ := exists_trimEnd_append y
    rw [hy, List.nil_append] at heq
    subst heq
    rw [trimEnd_append_blank _ (List.all_eq_true.1 he), trimEnd_eq_self hx, hy, List.append_nil]
  · exact trimEnd_append hy x

/-- Two texts that differ in the blanks at their ends start alike. -/
theorem exists_append_of_trimEnd_eq (hx : ∀ c, x.getLast? = some c → isBlank c = false)
    (h : trimEnd t = trimEnd (x ++ y)) : ∃ y', t = x ++ y' ∧ trimEnd y' = trimEnd y := by
  obtain ⟨e, heq, he⟩ := exists_trimEnd_append t
  rw [h, trimEnd_append_left hx, List.append_assoc] at heq
  refine ⟨trimEnd y ++ e, heq, ?_⟩
  rw [trimEnd_append_blank _ (List.all_eq_true.1 he)]
  exact trimEnd_eq_self fun _ => isBlank_getLast?_trimEnd

/-- Texts that are the same up to blanks at their ends are the same when trimmed. -/
theorem trim_eq_of_trimEnd_eq (h : trimEnd t = trimEnd t') : trim t = trim t' := by
  have htrim (u : Text) : trim u = trim (trimEnd u) := by
    obtain ⟨e, heq, he⟩ := exists_trimEnd_append u
    conv => lhs; rw [heq]
    exact trim_append_blank _ (List.all_eq_true.1 he)
  rw [htrim t, htrim t', h]

/-- Two texts that differ in the blanks around them are alike behind the first ones. -/
theorem exists_trimStart_eq_append (hstart : ∀ c, (x ++ y).head? = some c → isBlank c = false)
    (hx : ∀ c, x.getLast? = some c → isBlank c = false) (h : trim t = trim (x ++ y)) :
    ∃ y', trimStart t = x ++ y' ∧ trimEnd y' = trimEnd y := by
  refine exists_append_of_trimEnd_eq hx (h.trans ?_)
  rw [trim, trimStart_eq_self hstart]

/-- They also start with the same character, if that is not blank. -/
theorem head?_eq_of_trimEnd_eq (hc : isBlank c = false) (h : trimEnd t = trimEnd t')
    (hhead : t.head? = some c) : t'.head? = some c := by
  obtain ⟨u, rfl⟩ := List.head?_eq_some_iff.1 hhead
  have hcut := trimEnd_append_left (x := [c]) (by rintro b ⟨⟩; exact hc) u
  obtain ⟨e, he⟩ := trimEnd_isPrefix t'
  rw [List.singleton_append] at hcut
  rw [← he, ← h, hcut]
  rfl

end UpToTrimming

end TerseMarkup.Text
