import TerseMarkup.Proofs.Token
import TerseMarkup.Proofs.Wrapper

/-!
# Where string literals end

A text with a string literal at its front has four parts: a quote, a body, the same quote again,
and a rest (`Literal`). The body is a sequence of units. A unit is a backslash with the character
behind it, or another character at which no copy of the quote begins.

A literal is found in two ways. `Text.quoted?` walks over the characters and cuts the text.
`Text.literalEnd` steps through byte offsets, by the sizes of the characters it passes, and may
step over the end of a text that ends in a backslash. The second is compared with the first: from
an offset behind the characters `x`, it finds what the first finds behind `x`.

* `Literal.quoted?_text` and `exists_literal_of_quoted?`: what is cut off is the quote, the body and
  the quote.
* `literalEnd_eq`: the search by offsets never comes to an offset inside of a character, and gives
  the size of what is cut off.
* `literalEnd_eq_ok_iff`: where a literal ends, and what the cuts at its two ends leave.
-/

namespace TerseMarkup

namespace Text

/-! ## The parts of a literal -/

/-- `body` is a sequence of units with `after` behind it. A unit is a backslash with the character
behind it, or another character at which no `mark` begins. -/
inductive Units (mark : Text) : Text → Text → Prop
  | done (after : Text) : Units mark [] after
  | shielded (c : Char) {body after : Text} (h : Units mark body after) :
      Units mark ('\\' :: c :: body) after
  | plain {c : Char} {body after : Text} (hc : c ≠ '\\') (hmark : ¬ mark <+: c :: (body ++ after))
      (h : Units mark body after) : Units mark (c :: body) after

/-- A text with a string literal at its front, in its parts. -/
structure Literal where
  /-- The quote on both sides. -/
  mark : Text
  /-- What is between the quotes. -/
  body : Text
  /-- What is behind the literal. -/
  rest : Text
  opens : OpensQuote (mark ++ body ++ mark ++ rest) mark
  units : Units mark body (mark ++ rest)

variable {mark t q rest : Text}

/-- A literal is closed by the first quote behind its units. -/
theorem closes_iff : Closes mark t q rest ↔
    ∃ body, t = body ++ mark ++ rest ∧ q = body ++ mark ∧ Units mark body (mark ++ rest) := by
  constructor
  · intro h
    induction h with
    | quote rest => exact ⟨[], rfl, rfl, .done _⟩
    | shield c _ ih =>
      obtain ⟨body, rfl, rfl, hunits⟩ := ih
      exact ⟨'\\' :: c :: body, rfl, rfl, .shielded c hunits⟩
    | @char c _ _ _ hc hmark _ ih =>
      obtain ⟨body, rfl, rfl, hunits⟩ := ih
      refine ⟨c :: body, rfl, rfl, .plain hc ?_ hunits⟩
      rwa [← List.append_assoc]
  · rintro ⟨body, rfl, rfl, hunits⟩
    generalize hafter : mark ++ rest = after at hunits
    induction hunits with
    | done after => exact .quote rest
    | shielded c _ ih => exact .shield c (ih hafter)
    | @plain c body _ hc hmark _ ih =>
      have hmark' : ¬ mark <+: c :: (body ++ mark ++ rest) := by
        rwa [List.append_assoc, hafter]
      exact .char hc hmark' (ih hafter)

namespace Literal

/-- The literal itself, its quotes included. -/
def quoted (x : Literal) : Text :=
  x.mark ++ x.body ++ x.mark

/-- The whole text. -/
def text (x : Literal) : Text :=
  x.quoted ++ x.rest

/-- The literal is what is cut off. -/
theorem quoted?_text (x : Literal) : quoted? x.text = some (x.quoted, x.rest) := by
  apply quoted?_eq_some_iff.2
  have hcloses := closes_iff.2 ⟨x.body, rfl, rfl, x.units⟩
  refine ⟨x.mark, _, _, x.opens, ?_, hcloses, ?_⟩
  · simp only [text, quoted, List.append_assoc]
  · exact List.append_assoc _ _ _

/-- The cut behind the literal. -/
theorem takeBytes?_text (x : Literal) : x.text.takeBytes? x.quoted.byteSize = some x.quoted :=
  takeBytes?_eq_some_iff.2 ⟨x.rest, rfl, rfl⟩

/-- Cutting off the bytes of the literal leaves the rest. -/
theorem dropBytes?_text (x : Literal) : x.text.dropBytes? x.quoted.byteSize = some x.rest :=
  dropBytes?_eq_some_iff.2 ⟨x.quoted, rfl, rfl⟩

/-- Both quotes are part of the literal. -/
theorem two_mul_byteSize_mark_le (x : Literal) : 2 * x.mark.byteSize ≤ x.quoted.byteSize := by
  simp only [quoted, byteSize_append]
  omega

/-- The literal is part of the text. -/
theorem byteSize_quoted_le (x : Literal) : x.quoted.byteSize ≤ x.text.byteSize := by
  rw [text, byteSize_append]
  exact Nat.le_add_right _ _

/-- Without the size of the quote at both ends, the body is left. -/
theorem sliceBytes?_text (x : Literal) :
    x.text.sliceBytes? x.mark.byteSize (x.quoted.byteSize - x.mark.byteSize) = some x.body := by
  apply sliceBytes?_eq_some_iff.2
  refine ⟨x.mark, x.mark ++ x.rest, ?_, rfl, ?_⟩
  · simp only [text, quoted, List.append_assoc]
  · rw [quoted, byteSize_append (x.mark ++ x.body), Nat.add_sub_cancel]

end Literal

/-- A literal that is read has these parts. -/
theorem exists_literal_of_quoted? (h : quoted? t = some (q, rest)) :
    ∃ x : Literal, x.text = t ∧ x.quoted = q ∧ x.rest = rest := by
  obtain ⟨mark, after, q', hopens, rfl, hcloses, rfl⟩ := quoted?_eq_some_iff.1 h
  obtain ⟨body, rfl, rfl, hunits⟩ := closes_iff.1 hcloses
  rw [← List.append_assoc, ← List.append_assoc] at hopens
  refine ⟨⟨mark, body, rest, hopens, hunits⟩, ?_, ?_, rfl⟩
  · simp only [Literal.text, Literal.quoted, List.append_assoc]
  · exact List.append_assoc _ _ _

/-- A text from which nothing is cut off has no literal at its front. -/
theorem quoted?_eq_none_iff_literal : quoted? t = none ↔ ∀ x : Literal, x.text ≠ t := by
  constructor
  · rintro hnone x rfl
    rw [x.quoted?_text] at hnone
    cases hnone
  · intro hno
    cases hcut : quoted? t with
    | none => rfl
    | some found =>
      obtain ⟨x, hx, -⟩ := exists_literal_of_quoted? hcut
      exact absurd hx (hno x)

/-! ## The search by offsets -/

/-- One step of the search, at the offset of the character `c`. -/
theorem endFrom_append_cons (mark x : Text) (c : Char) (y : Text) :
    endFrom mark (x ++ c :: y) x.byteSize =
      if c = '\\' then endFrom mark (x ++ c :: y) (x.byteSize + 1 + firstSize y)
      else if mark.isPrefixOf (c :: y) then .ok (some (x.byteSize + mark.byteSize))
      else endFrom mark (x ++ c :: y) (x.byteSize + c.utf8Size) := by
  have hlt : x.byteSize < byteSize (x ++ c :: y) := by
    have hc := c.utf8Size_pos
    rw [byteSize_append, byteSize_cons]
    omega
  have hdrop : dropBytes? x.byteSize (x ++ c :: y) = some (c :: y) :=
    dropBytes?_eq_some_iff.2 ⟨x, rfl, rfl⟩
  rw [endFrom, if_pos hlt, hdrop]
  by_cases hc : c = '\\'
  · subst hc
    simp only [after?, if_true]
  · simp only [after?, if_neg hc, if_neg (Ne.symm hc), firstSize]

/-- The search stops at the end of the text and behind it. -/
theorem endFrom_of_le {pos : Nat} (h : t.byteSize ≤ pos) : endFrom mark t pos = .ok none := by
  rw [endFrom, if_neg (Nat.not_lt.2 h)]

/-- The search from the offset behind `x` on finds what is found behind `x` character by
character. -/
theorem endFrom_append (mark x y : Text) :
    endFrom mark (x ++ y) x.byteSize =
      .ok ((closing? mark y).map fun found => x.byteSize + found.1.byteSize) := by
  fun_induction closing? mark y generalizing x with
  | case1 =>
    rw [List.append_nil]
    exact endFrom_of_le (Nat.le_refl _)
  | case2 =>
    -- A backslash at the end of the text: the search steps over the end.
    have hover : byteSize ['\\'] ≤ 1 + firstSize [] := by decide
    rw [endFrom_append_cons, if_pos rfl]
    apply endFrom_of_le
    rw [byteSize_append, Nat.add_assoc]
    exact Nat.add_le_add_left hover _
  | case3 e y ih =>
    have hnext : x.byteSize + 1 + firstSize (e :: y) = byteSize (x ++ ['\\', e]) := by
      rw [byteSize_append, Nat.add_assoc]
      rfl
    have hsearch := ih (x ++ ['\\', e])
    rw [List.append_assoc] at hsearch
    rw [endFrom_append_cons, if_pos rfl, hnext]
    refine hsearch.trans ?_
    simp [Function.comp_def, Nat.add_assoc]
  | case4 c y hc rest hafter =>
    have hmark : mark.isPrefixOf (c :: y) = true :=
      List.isPrefixOf_iff_prefix.2 ⟨rest, (after?_eq_some_iff.1 hafter).symm⟩
    rw [endFrom_append_cons, if_neg hc, if_pos hmark]
    rfl
  | case5 c y hc hafter ih =>
    have hmark : mark.isPrefixOf (c :: y) ≠ true := by
      intro hfits
      obtain ⟨u, hu⟩ := List.isPrefixOf_iff_prefix.1 hfits
      rw [after?_eq_some_iff.2 hu.symm] at hafter
      cases hafter
    have hnext : x.byteSize + c.utf8Size = byteSize (x ++ [c]) := by
      rw [byteSize_append]
      rfl
    have hsearch := ih (x ++ [c])
    rw [List.append_assoc] at hsearch
    rw [endFrom_append_cons, if_neg hc, if_neg hmark, hnext]
    refine hsearch.trans ?_
    simp [Function.comp_def, Nat.add_assoc]

/-- The search never fails, and gives the size of the literal that is cut off. -/
theorem literalEnd_eq (t : Text) :
    t.literalEnd = .ok (t.quoted?.map fun found => found.1.byteSize) := by
  unfold literalEnd quoted?
  cases hopen : quoteMark? t with
  | none => rfl
  | some mark =>
    obtain ⟨after, rfl⟩ := (opensQuote_of_quoteMark? hopen).isPrefix
    simp only [endFrom_append, List.drop_left, Option.map_map, Function.comp_def, byteSize_append]

end Text

/-! ## Values -/

/-- The value of a literal is its decoded body. -/
theorem quotedValue?_text (x : Text.Literal) :
    quotedValue? x.text = some (Text.unescape x.body, x.rest) := by
  have hopen : Text.quoteMark? x.text = some x.mark := Text.quoteMark?_eq_some_iff.2 x.opens
  have hcut : Text.quoted? x.text = some (x.mark ++ (x.body ++ x.mark), x.rest) := by
    rw [x.quoted?_text, Text.Literal.quoted, List.append_assoc]
  exact quotedValue?_of_quoted? hopen hcut

namespace Text

/-- The end of a literal. The search finds the byte offset `e` exactly if the text is a quote (the
longest that it starts with), a sequence of units, the quote and a rest, and `e` is the size of all
but the rest; and it finds none exactly if there is no such division. The offset is at least twice
the size of the quote and at most that of the text, and it is between characters: a cut there
leaves the literal and the rest, which is also what is cut off character by character. A cut by
the size of the quote at both ends leaves the body, whose decoded text is the value. -/
theorem literalEnd_eq_ok_iff (t : Text) :
    (∀ e, t.literalEnd = .ok (some e) ↔ ∃ x : Literal, x.text = t ∧ e = x.quoted.byteSize) ∧
    (t.literalEnd = .ok none ↔ ∀ x : Literal, x.text ≠ t) ∧
    ∀ (x : Literal) (e : Nat), x.text = t → t.literalEnd = .ok (some e) →
      2 * x.mark.byteSize ≤ e ∧ e ≤ t.byteSize ∧
      t.takeBytes? e = some x.quoted ∧ t.dropBytes? e = some x.rest ∧
      t.quoted? = some (x.quoted, x.rest) ∧
      t.sliceBytes? x.mark.byteSize (e - x.mark.byteSize) = some x.body ∧
      quotedValue? t = some (unescape x.body, x.rest) := by
  have hend (x : Literal) : x.text.literalEnd = .ok (some x.quoted.byteSize) := by
    rw [literalEnd_eq, x.quoted?_text]
    rfl
  refine ⟨?_, ?_, ?_⟩
  · intro e
    constructor
    · intro h
      rw [literalEnd_eq] at h
      obtain ⟨⟨q, rest⟩, hcut, rfl⟩ := Option.map_eq_some_iff.1 (Except.ok.inj h)
      obtain ⟨x, hx, rfl, -⟩ := exists_literal_of_quoted? hcut
      exact ⟨x, hx, rfl⟩
    · rintro ⟨x, rfl, rfl⟩
      exact hend x
  · rw [literalEnd_eq, Except.ok.injEq, Option.map_eq_none_iff, quoted?_eq_none_iff_literal]
  · rintro x e rfl h
    obtain rfl : x.quoted.byteSize = e := Option.some.inj (Except.ok.inj ((hend x).symm.trans h))
    exact ⟨x.two_mul_byteSize_mark_le, x.byteSize_quoted_le, x.takeBytes?_text, x.dropBytes?_text,
      x.quoted?_text, x.sliceBytes?_text, quotedValue?_text x⟩

/-- A body with a quote sign, a shielded one and a character of two bytes, between three quote
signs. -/
theorem literalEnd_eq_ok_iff_triple :
    literalEnd "'''é'\\'b''' c".toList = .ok (some 12) ∧
      takeBytes? 12 "'''é'\\'b''' c".toList = some "'''é'\\'b'''".toList ∧
      sliceBytes? 3 (12 - 3) "'''é'\\'b''' c".toList = some "é'\\'b".toList := by
  have hunits : Units "'''".toList "é'\\'b".toList "''' c".toList :=
    .plain (by decide) (by decide) <| .plain (by decide) (by decide) <| .shielded '\'' <|
      .plain (by decide) (by decide) <| .done _
  have hopens : OpensQuote "'''é'\\'b''' c".toList "'''".toList :=
    opensQuote_of_quoteMark? (by decide)
  let x : Literal := ⟨"'''".toList, "é'\\'b".toList, " c".toList, hopens, hunits⟩
  have hsize : 12 = byteSize "'''é'\\'b'''".toList := by decide
  have hend := ((literalEnd_eq_ok_iff "'''é'\\'b''' c".toList).1 12).2 ⟨x, rfl, hsize⟩
  obtain ⟨-, -, htake, -, -, hslice, -⟩ := (literalEnd_eq_ok_iff _).2.2 x 12 rfl hend
  exact ⟨hend, htake, hslice⟩

end Text

end TerseMarkup
