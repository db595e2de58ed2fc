import TerseMarkup.Scan.Token
import TerseMarkup.Text.Escape

/-!
# Attributes

An attribute is a name with a quoted, numeric or dynamic value, or a bare name that stands for a
switch. A dynamic value with a question mark behind it is a switch as well: the attribute is
written only if the value holds. Two asterisks in front of an expression spread a mapping into
attributes. Attributes are read bare or inside parentheses, where they may span lines.
-/

namespace TerseMarkup

/-! ## Where names and values end -/

/-- What ends an attribute name. -/
def nameStops (parens : Bool) : List Text :=
  if parens then [['='], [' '], [')'], ['\n']] else [['='], [' '], [':'], ['|'], [',']]

/-- What ends a dynamic value. -/
def valueStops (parens : Bool) : List Text :=
  [[' '], [':'], ['|'], [','], ['='], ['?']] ++ if parens then [[')'], ['\n']] else []

/-- What ends the expression of a mapping. -/
def splatStops (parens : Bool) : List Text :=
  [[' '], ['\n'], ['|'], [','], ['*'], [':'], ['\\']] ++ if parens then [[')']] else []

/-! ## How attributes are written -/

/-- An attribute with its value in double quotes. -/
def attributePair (name value : Text) : Text :=
  name ++ "=\"".toList ++ value ++ ['"']

namespace Delimiters

/-- An attribute that is written only if `value` holds. -/
def switch (d : Delimiters) (name value : Text) : Text :=
  d.variableStart ++ ['('] ++ value ++ ") and '".toList ++ attributePair name name ++
    "' or ''|".toList ++ d.noEscape ++ d.variableEnd

/-- A loop that writes an attribute for each item of a mapping. -/
def spread (d : Delimiters) (mapping : Text) : Text :=
  ['\n'] ++
    d.statement ("for __plim_key__, __plim_value__ in ".toList ++ mapping ++ ".items()".toList) ++
    ['\n'] ++
    attributePair (d.value "__plim_key__".toList) (d.value "__plim_value__".toList) ++
    ['\n'] ++ d.statementEnd "for".toList ++ ['\n']

end Delimiters

/-! ## Values -/

/-- The decoded text of a string literal at the front of a text, and what follows it. -/
def quotedValue? (t : Text) : Option (Text × Text) :=
  match t.quoteMark?, t.quoted? with
  | some mark, some (literal, rest) =>
    some (Text.unescape ((literal.drop mark.length).take (literal.length - 2 * mark.length)), rest)
  | _, _ => none

/-- The value of a literal is what is between its quotes, decoded. -/
theorem quotedValue?_of_quoted? {t mark body rest : Text} (hmark : t.quoteMark? = some mark)
    (hquoted : t.quoted? = some (mark ++ (body ++ mark), rest)) :
    quotedValue? t = some (Text.unescape body, rest) := by
  have hlength : (mark ++ (body ++ mark)).length - 2 * mark.length = body.length := by
    simp only [List.length_append]
    omega
  unfold quotedValue?
  simp only [hmark, hquoted, hlength, List.drop_left, List.take_left]

/-- Whether a character is a decimal digit. -/
def isDigit (c : Char) : Bool :=
  '0' ≤ c && c ≤ '9'

/-- A sign at the front of a text, and what follows it. -/
def splitSign : Text → Text × Text
  | [] => ([], [])
  | c :: t => if c = '-' ∨ c = '+' then ([c], t) else ([], c :: t)

/-- A decimal fraction, or a whole number with an optional percent sign, at the front of a text,
and what follows it. -/
def numericValue? (t : Text) : Option (Text × Text) :=
  let (sign, unsigned) := splitSign t
  let whole := unsigned.takeWhile isDigit
  let rest := unsigned.dropWhile isDigit
  let places := (rest.drop 1).takeWhile isDigit
  if rest.head? = some '.' ∧ places ≠ [] then
    some (sign ++ whole ++ ['.'] ++ places, (rest.drop 1).dropWhile isDigit)
  else if whole.isEmpty then none
  else if rest.head? = some '%' then some (sign ++ whole ++ ['%'], rest.drop 1)
  else some (sign ++ whole, rest)

/-- A dynamic value without its wrapper: a token read off a text that starts with a placeholder
loses as many bytes as the delimiters have at its two ends, and one read off a text that starts
with a parenthesis its two outer characters. -/
def unwrapValue (d : Delimiters) (t token : Text) : Text :=
  if d.variableStart ≠ [] ∧ d.variableStart.isPrefixOf t then
    (token.sliceBytes? d.variableStart.byteSize (token.byteSize - d.variableEnd.byteSize)).getD []
  else if t.head? = some '(' then (token.drop 1).dropLast
  else token

/-! ## Reading attributes -/

/-- Expands a mapping with two asterisks in front of it. -/
def splat? (d : Delimiters) (parens : Bool) (line : Text) (cur : Cursor) :
    Except Diagnostic (Option (Text × Text)) × Cursor :=
  match Text.after? "**".toList line with
  | none => (.ok none, cur)
  | some t =>
    match token? d.placeholder [] (splatStops parens) t cur with
    | (.error e, cur') => (.error e, cur')
    | (.ok none, cur') => (.ok none, cur')
    | (.ok (some (mapping, rest)), cur') =>
      if mapping.isEmpty then (.ok none, cur') else (.ok (some (d.spread mapping, rest)), cur')

/-- The attribute with the given name whose value starts with `t`. -/
def assignment? (d : Delimiters) (parens : Bool) (name t : Text) (cur : Cursor) :
    Except Diagnostic (Option (Text × Text)) × Cursor :=
  match quotedValue? t with
  | some (value, rest) => (.ok (some (attributePair name value.trimEnd, rest)), cur)
  | none =>
    match numericValue? t with
    | some (value, rest) => (.ok (some (attributePair name value, rest)), cur)
    | none =>
      match token? d.placeholder [] (valueStops parens) t cur with
      | (.error e, cur') => (.error e, cur')
      | (.ok none, cur') => (.ok none, cur')
      | (.ok (some (token, rest)), cur') =>
        let value := (unwrapValue d t token).trimEnd
        match Text.after? ['?'] rest with
        | some rest => (.ok (some (d.switch name value, rest)), cur')
        | none => (.ok (some (attributePair name (d.value value), rest)), cur')

/-- Whether a bare name is a switch, by what follows it. -/
def isSwitch (parens : Bool) (rest : Text) : Bool :=
  if parens then
    match rest with
    | [] => true
    | c :: _ => c == ' ' || c == '\n' || c == ')'
  else rest.head? == some ')'

/-- One attribute at the front of a text, as it is written, and what follows it. -/
def attribute? (d : Delimiters) (parens : Bool) (line : Text) (cur : Cursor) :
    Except Diagnostic (Option (Text × Text)) × Cursor :=
  match token? d.placeholder [] (nameStops parens) line cur with
  | (.error e, cur') => (.error e, cur')
  | (.ok none, cur') => (.ok none, cur')
  | (.ok (some (name, rest)), cur') =>
    if name.isEmpty then (.ok none, cur')
    else
      match Text.after? ['='] rest with
      | some t => assignment? d parens name t cur'
      | none =>
        if isSwitch parens rest then (.ok (some (attributePair name name, rest)), cur')
        else (.ok none, cur')

/-! ## Progress -/

/-- Looking for a mapping never moves the cursor back. -/
theorem size_splat?_le (d : Delimiters) (parens : Bool) (line : Text) (cur : Cursor) :
    (splat? d parens line cur).2.size ≤ cur.size := by
  unfold splat?
  split
  · exact Nat.le_refl _
  · rename_i t _
    have h := size_token?_le d.placeholder [] (splatStops parens) t cur
    split
    · rename_i heq
      rw [heq] at h
      exact h
    · rename_i heq
      rw [heq] at h
      exact h
    · rename_i heq
      rw [heq] at h
      split <;> exact h

/-- A mapping leaves less to read than there was. -/
theorem splat?_progress {d : Delimiters} {parens : Bool} {line v rest : Text} {cur cur' : Cursor}
    (h : splat? d parens line cur = (.ok (some (v, rest)), cur')) :
    cur'.size + rest.length < cur.size + line.length := by
  unfold splat? at h
  split at h
  · simp at h
  · rename_i t ht
    have hline := congrArg List.length (Text.after?_eq_some_iff.1 ht)
    have hstars : "**".toList.length = 2 := rfl
    rw [List.length_append, hstars] at hline
    split at h
    · simp at h
    · simp at h
    · rename_i mapping r curr heq
      split at h
      · simp at h
      · simp only [Prod.mk.injEq, Except.ok.injEq, Option.some.injEq] at h
        obtain ⟨⟨-, rfl⟩, rfl⟩ := h
        have := token?_le heq
        omega

/-- What follows a quoted value is no longer than the text. -/
theorem length_le_of_quotedValue? {t v rest : Text} (h : quotedValue? t = some (v, rest)) :
    rest.length ≤ t.length := by
  unfold quotedValue? at h
  split at h
  · rename_i mark literal r hm hq
    cases h
    exact Nat.le_of_lt (Text.length_lt_of_quoted? hq)
  · simp at h

/-- What follows a sign is no longer than the text. -/
theorem length_splitSign_le (t : Text) : (splitSign t).2.length ≤ t.length := by
  unfold splitSign
  split
  · exact Nat.le_refl _
  · split <;> simp

/-- What follows a number is no longer than the text. -/
theorem length_le_of_numericValue? {t v rest : Text} (h : numericValue? t = some (v, rest)) :
    rest.length ≤ t.length := by
  have hsign := length_splitSign_le t
  have hwhole : ((splitSign t).2.dropWhile isDigit).length ≤ (splitSign t).2.length :=
    (List.dropWhile_sublist isDigit).length_le
  have hdrop := List.length_drop (i := 1) (l := (splitSign t).2.dropWhile isDigit)
  have hplaces : ((((splitSign t).2.dropWhile isDigit).drop 1).dropWhile isDigit).length ≤
      (((splitSign t).2.dropWhile isDigit).drop 1).length :=
    (List.dropWhile_sublist isDigit).length_le
  simp only [numericValue?] at h
  split at h
  · cases h
    omega
  · split at h
    · simp at h
    · split at h <;> cases h <;> omega

/-- Reading a value does not add to what is to come. -/
theorem size_assignment?_le (d : Delimiters) (parens : Bool) (name t : Text) (cur : Cursor) :
    (assignment? d parens name t cur).2.size ≤ cur.size := by
  have h := size_token?_le d.placeholder [] (valueStops parens) t cur
  unfold assignment?
  split
  · exact Nat.le_refl _
  · split
    · exact Nat.le_refl _
    · split
      · rename_i heq
        rw [heq] at h
        exact h
      · rename_i heq
        rw [heq] at h
        exact h
      · rename_i heq
        rw [heq] at h
        simp only
        split <;> exact h

/-- What follows a value, on its line and below, is no more than there was. -/
theorem assignment?_le {d : Delimiters} {parens : Bool} {name t v rest : Text}
    {cur cur' : Cursor} (h : assignment? d parens name t cur = (.ok (some (v, rest)), cur')) :
    cur'.size + rest.length ≤ cur.size + t.length := by
  unfold assignment? at h
  split at h
  · rename_i hq
    simp only [Prod.mk.injEq, Except.ok.injEq, Option.some.injEq] at h
    obtain ⟨⟨-, rfl⟩, rfl⟩ := h
    exact Nat.add_le_add_left (length_le_of_quotedValue? hq) _
  · split at h
    · rename_i hn
      simp only [Prod.mk.injEq, Except.ok.injEq, Option.some.injEq] at h
      obtain ⟨⟨-, rfl⟩, rfl⟩ := h
      exact Nat.add_le_add_left (length_le_of_numericValue? hn) _
    · split at h
      · simp at h
      · simp at h
      · rename_i token r curr heq
        have hle := token?_le heq
        simp only at h
        split at h
        · rename_i r' hr
          have hlen := congrArg List.length (Text.after?_eq_some_iff.1 hr)
          rw [List.length_append] at hlen
          simp only [Prod.mk.injEq, Except.ok.injEq, Option.some.injEq] at h
          obtain ⟨⟨-, rfl⟩, rfl⟩ := h
          omega
        · simp only [Prod.mk.injEq, Except.ok.injEq, Option.some.injEq] at h
          obtain ⟨⟨-, rfl⟩, rfl⟩ := h
          exact hle

/-- Looking for an attribute never moves the cursor back. -/
theorem size_attribute?_le (d : Delimiters) (parens : Bool) (line : Text) (cur : Cursor) :
    (attribute? d parens line cur).2.size ≤ cur.size := by
  have h := size_token?_le d.placeholder [] (nameStops parens) line cur
  unfold attribute?
  split
  · rename_i heq
    rw [heq] at h
    exact h
  · rename_i heq
    rw [heq] at h
    exact h
  · rename_i name rest curr heq
    rw [heq] at h
    split
    · exact h
    · split
      · exact Nat.le_trans (size_assignment?_le ..) h
      · split <;> exact h

/-- An attribute leaves less to read than there was. -/
theorem attribute?_progress {d : Delimiters} {parens : Bool} {line v rest : Text}
    {cur cur' : Cursor} (h : attribute? d parens line cur = (.ok (some (v, rest)), cur')) :
    cur'.size + rest.length < cur.size + line.length := by
  unfold attribute? at h
  split at h
  · simp at h
  · simp at h
  · rename_i name r curr heq
    split at h
    · simp at h
    · rename_i hne
      have hlt := token?_progress heq (.inr (by simpa using hne))
      split at h
      · rename_i t ht
        have hlen := congrArg List.length (Text.after?_eq_some_iff.1 ht)
        rw [List.length_append] at hlen
        have := assignment?_le h
        omega
      · split at h
        · simp only [Prod.mk.injEq, Except.ok.injEq, Option.some.injEq] at h
          obtain ⟨⟨-, rfl⟩, rfl⟩ := h
          exact hlt
        · simp at h

end TerseMarkup
