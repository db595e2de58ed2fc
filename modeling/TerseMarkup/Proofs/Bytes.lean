import TerseMarkup.Text

/-!
# Cuts by bytes

A text can be cut at an offset in bytes only if a character starts there or the text ends there. So
every such cut is one of the text into parts.

* `Text.takeBytes?_eq_some_iff` and `Text.dropBytes?_eq_some_iff`: the front and the rest of a text.
* `Text.sliceBytes?_eq_some_iff`: what a slice is, in terms of a text in three parts.
-/

namespace TerseMarkup

namespace Text

variable {t x y : Text} {n lo hi : Nat}

/-- No characters have no bytes. -/
@[simp] theorem byteSize_nil : byteSize [] = 0 := rfl

/-- The bytes of the first character come on top. -/
@[simp] theorem byteSize_cons (c : Char) (t : Text) : byteSize (c :: t) = c.utf8Size + byteSize t :=
  rfl

/-- The bytes of two texts add up. -/
@[simp] theorem byteSize_append (x y : Text) : byteSize (x ++ y) = byteSize x + byteSize y := by
  induction x with
  | nil => simp
  | cons c x ih =>
    rw [List.cons_append, byteSize_cons, byteSize_cons, ih, Nat.add_assoc]

/-- Only the empty text has no bytes. -/
theorem eq_nil_of_byteSize_eq_zero (h : byteSize t = 0) : t = [] := by
  cases t with
  | nil => rfl
  | cons c t =>
    have hc := c.utf8Size_pos
    rw [byteSize_cons] at h
    omega

/-- A front with bytes in it has the first character. -/
theorem exists_cons_of_byteSize {c : Char} (heq : c :: t = x ++ y) (hsize : byteSize x = n + 1) :
    ∃ u, x = c :: u ∧ t = u ++ y := by
  cases x with
  | nil => cases hsize
  | cons a u =>
    obtain ⟨rfl, rfl⟩ := List.cons.inj heq
    exact ⟨u, rfl, rfl⟩

/-- Taking bytes cuts the text behind as many bytes. -/
theorem takeBytes?_eq_some_iff : takeBytes? n t = some x ↔ ∃ y, t = x ++ y ∧ byteSize x = n := by
  fun_induction takeBytes? n t generalizing x with
  | case1 t =>
    constructor
    · intro h
      cases h
      exact ⟨t, rfl, rfl⟩
    · rintro ⟨y, -, hsize⟩
      rw [eq_nil_of_byteSize_eq_zero hsize]
  | case2 n =>
    constructor
    · intro h
      cases h
    · rintro ⟨y, hnil, hsize⟩
      rw [(List.append_eq_nil_iff.1 hnil.symm).1] at hsize
      cases hsize
  | case3 n c t hle ih =>
    rw [Option.map_eq_some_iff]
    constructor
    · rintro ⟨u, hu, rfl⟩
      obtain ⟨y, rfl, hsize⟩ := ih.1 hu
      exact ⟨y, rfl, by rw [byteSize_cons]; omega⟩
    · rintro ⟨y, heq, hsize⟩
      obtain ⟨u, rfl, rfl⟩ := exists_cons_of_byteSize heq hsize
      refine ⟨u, ih.2 ⟨y, rfl, ?_⟩, rfl⟩
      rw [byteSize_cons] at hsize
      omega
  | case4 n c t hle =>
    constructor
    · intro h
      cases h
    · rintro ⟨y, heq, hsize⟩
      obtain ⟨u, rfl, rfl⟩ := exists_cons_of_byteSize heq hsize
      rw [byteSize_cons] at hsize
      omega

/-- Dropping bytes cuts the text behind as many bytes. -/
theorem dropBytes?_eq_some_iff : dropBytes? n t = some y ↔ ∃ x, t = x ++ y ∧ byteSize x = n := by
  fun_induction dropBytes? n t with
  | case1 t =>
    constructor
    · intro h
      cases h
      exact ⟨[], rfl, rfl⟩
    · rintro ⟨x, rfl, hsize⟩
      rw [eq_nil_of_byteSize_eq_zero hsize]
      rfl
  | case2 n =>
    constructor
    · intro h
      cases h
    · rintro ⟨x, hnil, hsize⟩
      rw [(List.append_eq_nil_iff.1 hnil.symm).1] at hsize
      cases hsize
  | case3 n c t hle ih =>
    refine ih.trans ?_
    clear ih
    constructor
    · rintro ⟨u, rfl, hsize⟩
      exact ⟨c :: u, rfl, by rw [byteSize_cons]; omega⟩
    · rintro ⟨x, heq, hsize⟩
      obtain ⟨u, rfl, rfl⟩ := exists_cons_of_byteSize heq hsize
      refine ⟨u, rfl, ?_⟩
      rw [byteSize_cons] at hsize
      omega
  | case4 n c t hle =>
    constructor
    · intro h
      cases h
    · rintro ⟨x, heq, hsize⟩
      obtain ⟨u, rfl, rfl⟩ := exists_cons_of_byteSize heq hsize
      rw [byteSize_cons] at hsize
      omega

/-- A slice is what is left between two ends of the given sizes. -/
theorem sliceBytes?_eq_some_iff {mid : Text} : sliceBytes? lo hi t = some mid ↔
    ∃ x y, t = x ++ mid ++ y ∧ byteSize x = lo ∧ byteSize (x ++ mid) = hi := by
  constructor
  · intro h
    unfold sliceBytes? at h
    split at h
    · obtain ⟨front, htake, hdrop⟩ := Option.bind_eq_some_iff.1 h
      obtain ⟨y, rfl, rfl⟩ := takeBytes?_eq_some_iff.1 htake
      obtain ⟨x, rfl, rfl⟩ := dropBytes?_eq_some_iff.1 hdrop
      exact ⟨x, y, rfl, rfl, rfl⟩
    · cases h
  · rintro ⟨x, y, rfl, rfl, rfl⟩
    have hle : byteSize x ≤ byteSize (x ++ mid) := by
      rw [byteSize_append]
      exact Nat.le_add_right _ _
    have htake : takeBytes? (byteSize (x ++ mid)) (x ++ mid ++ y) = some (x ++ mid) :=
      takeBytes?_eq_some_iff.2 ⟨y, rfl, rfl⟩
    have hdrop : dropBytes? (byteSize x) (x ++ mid) = some mid :=
      dropBytes?_eq_some_iff.2 ⟨x, rfl, rfl⟩
    rw [sliceBytes?, if_pos hle, htake]
    exact hdrop

end Text

end TerseMarkup
