import TerseMarkup.Text

/-!
# String literals

A string literal opens with one of four quotes and runs to the next copy of the same quote. A
backslash shields the character after it. `Text.quoted?` cuts a literal off the front of a text;
a literal that does not close within the text is no literal. `Text.literalEnd` finds the end of the
literal without cutting, by byte offsets into the text.
-/

namespace TerseMarkup.Text

/-- The quotes that open a literal; the long forms are tried first. -/
def quoteMarks : List Text :=
  ["\"\"\"".toList, "'''".toList, "\"".toList, "'".toList]

/-- Cuts a text behind the first unshielded copy of `mark`. -/
def closing? (mark : Text) : Text → Option (Text × Text)
  | [] => none
  | c :: t =>
    if c = '\\' then
      match t with
      | [] => none
      | e :: t' => (closing? mark t').map fun (body, rest) => (c :: e :: body, rest)
    else
      match after? mark (c :: t) with
      | some rest => some (mark, rest)
      | none => (closing? mark t).map fun (body, rest) => (c :: body, rest)

/-- The quote that a text opens with. -/
def quoteMark? (t : Text) : Option Text :=
  quoteMarks.find? (·.isPrefixOf t)

/-- The string literal, quotes included, at the front of a text, and what follows it. -/
def quoted? (t : Text) : Option (Text × Text) :=
  match quoteMark? t with
  | none => none
  | some mark =>
    (closing? mark (t.drop mark.length)).map fun (body, rest) => (mark ++ body, rest)

/-- A literal and what follows it make up the text. -/
theorem eq_append_of_closing? {mark t body rest : Text} (h : closing? mark t = some (body, rest)) :
    t = body ++ rest := by
  fun_induction closing? mark t generalizing body rest with
  | case1 => simp at h
  | case2 => simp at h
  | case3 e t' ih =>
    obtain ⟨⟨b, r⟩, hb, hp⟩ := Option.map_eq_some_iff.1 h
    cases hp
    simp [ih hb]
  | case4 c t hc rest' hr =>
    cases h
    exact after?_eq_some_iff.1 hr
  | case5 c t hc hr ih =>
    obtain ⟨⟨b, r⟩, hb, hp⟩ := Option.map_eq_some_iff.1 h
    cases hp
    simp [ih hb]

/-- A literal and what follows it make up the text. -/
theorem eq_append_of_quoted? {t q rest : Text} (h : quoted? t = some (q, rest)) :
    t = q ++ rest := by
  unfold quoted? at h
  split at h
  · simp at h
  · rename_i mark hm
    obtain ⟨⟨b, r⟩, hb, hp⟩ := Option.map_eq_some_iff.1 h
    cases hp
    have hpre : mark <+: t := by
      simpa using List.find?_some hm
    obtain ⟨u, rfl⟩ := hpre
    simp only [List.drop_left] at hb
    simp [eq_append_of_closing? hb]

/-- A literal is longer than nothing, so what follows it is shorter than the text. -/
theorem length_lt_of_quoted? {t q rest : Text} (h : quoted? t = some (q, rest)) :
    rest.length < t.length := by
  have ht := eq_append_of_quoted? h
  have hq : q ≠ [] := by
    unfold quoted? at h
    split at h
    · simp at h
    · rename_i mark hm
      obtain ⟨⟨b, r⟩, -, hp⟩ := Option.map_eq_some_iff.1 h
      cases hp
      have hmem := List.mem_of_find?_eq_some hm
      simp only [quoteMarks, List.mem_cons, List.not_mem_nil, or_false] at hmem
      rcases hmem with rfl | rfl | rfl | rfl <;> simp
  have := List.length_pos_iff.2 hq
  rw [ht]
  simp
  omega

/-! ## Where a literal ends -/

/-- The size of the first character of a text, and one at the end of the text. -/
def firstSize : Text → Nat
  | [] => 1
  | c :: _ => c.utf8Size

/-- A step by the first character is a step forward. -/
theorem firstSize_pos (t : Text) : 0 < firstSize t := by
  cases t with
  | nil => exact Nat.one_pos
  | cons c t => exact c.utf8Size_pos

/-- Looks for the first unshielded copy of `mark` from byte offset `pos` on: the offset behind it.
The search fails at an offset that is inside of a character. -/
def endFrom (mark t : Text) (pos : Nat) : Except Nat (Option Nat) :=
  if pos < t.byteSize then
    match t.dropBytes? pos with
    | none => .error pos
    | some rest =>
      match after? ['\\'] rest with
      | some shielded => endFrom mark t (pos + 1 + firstSize shielded)
      | none =>
        if mark.isPrefixOf rest then .ok (some (pos + mark.byteSize))
        else endFrom mark t (pos + firstSize rest)
  else .ok none
termination_by t.byteSize - pos
decreasing_by
  · have := firstSize_pos shielded
    omega
  · have := firstSize_pos rest
    omega

/-- The byte offset behind the string literal at the front of a text. -/
def literalEnd (t : Text) : Except Nat (Option Nat) :=
  match quoteMark? t with
  | none => .ok none
  | some mark => endFrom mark t mark.byteSize

end TerseMarkup.Text
