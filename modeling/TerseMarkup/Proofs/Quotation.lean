import TerseMarkup.Proofs.Tag
import TerseMarkup.Proofs.Trimming

/-!
# Quoted values

Every text can be the value of an attribute. `Text.escape` shields it, with a backslash in front of
each backslash and of each copy of the quote sign it is to stand between. Two readers then go over
the literal, one after the other: `Text.closing?` looks for its end, and `Text.unescape` decodes
what is inside. They agree on which characters a backslash shields, so the text comes back.

* `Text.unescape_escape`: a shielded text is decoded to the text itself.
* `Text.closing?_escape`: nothing inside a shielded text closes the literal.
* `quotedValue?_escape`: a literal is read back, whatever follows it but another quote sign.
* `attribute?_quoted`: so is an attribute, bare or in parentheses; all it loses are the blanks at
  the end of its value.
-/

namespace TerseMarkup

/-! ## Shielded texts -/

namespace Text

/-- A text with a backslash in front of each backslash and of each `quote`. -/
def escape (quote : Char) (v : Text) : Text :=
  v.flatMap fun c => if c = '\\' ∨ c = quote then ['\\', c] else [c]

variable {quote : Char} {mark : Text}

/-- A backslash or a quote gets a backslash in front. -/
theorem escape_cons_shielded {c : Char} (hc : c = '\\' ∨ c = quote) (v : Text) :
    escape quote (c :: v) = '\\' :: c :: escape quote v := by
  rw [escape, List.flatMap_cons, if_pos hc]
  rfl

/-- Any other character is left alone. -/
theorem escape_cons_plain {c : Char} (hc : ¬ (c = '\\' ∨ c = quote)) (v : Text) :
    escape quote (c :: v) = c :: escape quote v := by
  rw [escape, List.flatMap_cons, if_neg hc]
  rfl

/-- A text with nothing to shield is left as it is. -/
theorem escape_eq_self {v : Text} (h : ∀ c ∈ v, c ≠ '\\' ∧ c ≠ quote) : escape quote v = v := by
  induction v with
  | nil => rfl
  | cons c v ih =>
    obtain ⟨hc, hv⟩ := List.forall_mem_cons.1 h
    rw [escape_cons_plain (not_or.2 hc), ih hv]

/-- A shielded text does not start with a quote sign. -/
theorem head?_escape_ne (hquote : quote ≠ '\\') (v : Text) :
    (escape quote v).head? ≠ some quote := by
  cases v with
  | nil => simp [escape]
  | cons c v =>
    by_cases hc : c = '\\' ∨ c = quote
    · rw [escape_cons_shielded hc]
      simpa using hquote.symm
    · rw [escape_cons_plain hc]
      simpa using fun heq => hc (.inr heq)

/-- A shielded text is decoded to the text itself. -/
theorem unescape_escape (hquote : quote = '"' ∨ quote = '\'') (v : Text) :
    unescape (escape quote v) = v := by
  induction v with
  | nil =>
    rw [unescape.eq_def]
    rfl
  | cons c v ih =>
    by_cases hc : c = '\\' ∨ c = quote
    · have hsingle : singleEscape? c = some [c] := by
        rcases hc with rfl | rfl
        · rfl
        · rcases hquote with rfl | rfl <;> rfl
      rw [escape_cons_shielded hc, unescape.eq_def]
      simp only [if_true, hsingle, ih, List.singleton_append]
    · rw [escape_cons_plain hc, unescape.eq_def]
      simp only [if_neg (not_or.1 hc).1, ih]

/-- Nothing inside a shielded text closes the literal. -/
theorem closing?_escape (hquote : quote ≠ '\\') (hmark : mark.head? = some quote) (v rest : Text) :
    closing? mark (escape quote v ++ (mark ++ rest)) = some (escape quote v ++ mark, rest) := by
  induction v with
  | nil =>
    have hafter : after? mark (mark ++ rest) = some rest := after?_eq_some_iff.2 rfl
    obtain ⟨more, rfl⟩ := List.head?_eq_some_iff.1 hmark
    rw [List.cons_append] at hafter
    rw [escape, List.flatMap_nil, List.nil_append, List.cons_append, closing?.eq_def]
    simp only [if_neg hquote, hafter, List.nil_append]
  | cons c v ih =>
    by_cases hc : c = '\\' ∨ c = quote
    · rw [escape_cons_shielded hc, List.cons_append, List.cons_append, closing?.eq_def]
      simp only [if_true, ih, Option.map_some, List.cons_append]
    · obtain ⟨hslash, hne⟩ := not_or.1 hc
      have hafter (u : Text) : after? mark (c :: u) = none := by
        obtain ⟨more, rfl⟩ := List.head?_eq_some_iff.1 hmark
        simp [after?, Ne.symm hne]
      rw [escape_cons_plain hc, List.cons_append, closing?.eq_def]
      simp only [if_neg hslash, hafter, ih, Option.map_some, List.cons_append]

/-! ## Literals -/

/-- A literal opens with a single quote sign unless three of them follow each other. -/
theorem quoteMark?_single (hquote : quote = '"' ∨ quote = '\'') {t : Text}
    (ht : ¬ [quote, quote] <+: t) : quoteMark? (quote :: t) = some [quote] := by
  have hlong : [quote, quote].isPrefixOf t = false :=
    Bool.eq_false_iff.2 fun hlead => ht (List.isPrefixOf_iff_prefix.1 hlead)
  rcases hquote with rfl | rfl <;>
    simp [quoteMark?, quoteMarks, List.isPrefixOf, hlong]

/-- Three quotes in a row are one mark. -/
theorem quoteMark?_triple (hquote : quote = '"' ∨ quote = '\'') (t : Text) :
    quoteMark? (quote :: quote :: quote :: t) = some [quote, quote, quote] := by
  rcases hquote with rfl | rfl <;> simp [quoteMark?, quoteMarks, List.isPrefixOf]

/-- The mark that is written in front of an escaped text is the one that is found. -/
theorem quoteMark?_escape (hquote : quote = '"' ∨ quote = '\'')
    (hmark : mark = [quote] ∨ mark = [quote, quote, quote]) (v : Text) {rest : Text}
    (hrest : rest.head? ≠ some quote) :
    quoteMark? (mark ++ (escape quote v ++ (mark ++ rest))) = some mark := by
  have hslash : quote ≠ '\\' := by
    rcases hquote with rfl | rfl <;> decide
  rcases hmark with rfl | rfl
  · refine quoteMark?_single hquote ?_
    rintro ⟨u, hu⟩
    have hhead := head?_escape_ne hslash v
    -- Two more quote signs would be the one that closes an empty literal and the start of `rest`.
    cases hescape : escape quote v with
    | nil =>
      rw [hescape] at hu
      have hstart : quote :: u = rest := (List.cons.inj hu).2
      exact hrest (by rw [← hstart]; rfl)
    | cons c w =>
      rw [hescape] at hu hhead
      exact hhead (congrArg some (List.cons.inj hu).1.symm)
  · exact quoteMark?_triple hquote _

end Text

section

variable {quote : Char} {mark : Text}

/-- A literal is read back, whatever follows it but another quote sign. -/
theorem quotedValue?_escape (hquote : quote = '"' ∨ quote = '\'')
    (hmark : mark = [quote] ∨ mark = [quote, quote, quote]) (v : Text) {rest : Text}
    (hrest : rest.head? ≠ some quote) :
    quotedValue? (mark ++ (Text.escape quote v ++ (mark ++ rest))) = some (v, rest) := by
  have hslash : quote ≠ '\\' := by
    rcases hquote with rfl | rfl <;> decide
  have hhead : mark.head? = some quote := by
    rcases hmark with rfl | rfl <;> rfl
  have hopen := Text.quoteMark?_escape hquote hmark v hrest
  have hquoted : Text.quoted? (mark ++ (Text.escape quote v ++ (mark ++ rest))) =
      some (mark ++ (Text.escape quote v ++ mark), rest) := by
    unfold Text.quoted?
    simp only [hopen, List.drop_left, Text.closing?_escape hslash hhead, Option.map_some]
  rw [quotedValue?_of_quoted? hopen hquoted, Text.unescape_escape hquote]

end

/-! ## Names -/

/-- Whether a character may stand in a name: it is not blank, ends no name, and opens no value, no
literal and no group. Letters, digits, dashes and underscores are such characters. -/
def isNameChar (c : Char) : Bool :=
  !isBlank c && !("=:|,)([\x7b$\"'".toList.contains c)

/-- A character of a name is not one that names do not have. -/
theorem ne_of_isNameChar {b c : Char} (hc : isNameChar c = true) (hb : isNameChar b = false) :
    c ≠ b := by
  rintro rfl
  rw [hc] at hb
  cases hb

section

variable {d : Delimiters} {name : Text}

/-- Values do not start with a character of a name. -/
theorem Delimiters.head?_variableStart_ne (hd : d = .mako ∨ d = .django) {c : Char}
    (hc : isNameChar c = true) : d.variableStart.head? ≠ some c := by
  intro hhead
  rcases hd with rfl | rfl <;> cases hhead <;> cases hc

/-- A character of a name is an atom by itself. -/
theorem atom_of_isNameChar {c : Char} (hstart : d.variableStart.head? ≠ some c)
    (hc : isNameChar c = true) (t : Text) (cur : Cursor) :
    atom (some d.placeholder) c t cur = (.ok ([c], t), cur) := by
  have hne {b : Char} (hb : isNameChar b = false) : c ≠ b := ne_of_isNameChar hc hb
  exact atom_single hstart ⟨hne (by decide), hne (by decide)⟩
    ⟨hne (by decide), hne (by decide), hne (by decide)⟩ t cur

/-- A name is read up to the equals sign behind it, bare or in parentheses. -/
theorem token?_equals (hd : ∀ c ∈ name, d.variableStart.head? ≠ some c)
    (hname : ∀ c ∈ name, isNameChar c = true) (parens : Bool) (t : Text) (cur : Cursor) :
    token? d.placeholder [] (nameStops parens) (name ++ '=' :: t) cur =
      (.ok (some (name, '=' :: t)), cur) := by
  have hword : ∀ c ∈ name, (∀ t, atom (some d.placeholder) c t cur = (.ok ([c], t), cur)) ∧
      [c] ∉ nameStops parens := by
    intro c hc
    refine ⟨fun t => atom_of_isNameChar (hd c hc) (hname c hc) t cur, fun hmem => ?_⟩
    have hstop : ∀ stop ∈ nameStops parens, stop.all isNameChar = false := by
      cases parens <;> decide
    have hall := hstop [c] hmem
    simp [hname c hc] at hall
  have hstops : ∀ stop ∈ nameStops parens, stop.length = 1 := by
    cases parens <;> decide
  have hequals : ∀ c, ('=' :: t).head? = some c → [c] ∈ nameStops parens := by
    intro c hc
    cases hc
    cases parens <;> decide
  have htrim : Text.trimEnd name = name := by
    refine Text.trimEnd_eq_self fun c hc => ?_
    have hvisible := hname c (List.mem_of_getLast? hc)
    simp only [isNameChar, Bool.and_eq_true, Bool.not_eq_true'] at hvisible
    exact hvisible.1
  have hempty : (name ++ '=' :: t).isEmpty = false := by simp
  simp only [token?, hempty, Bool.false_eq_true, if_false, Text.after?,
    atoms_singles hstops hword hequals, List.nil_append, htrim]

end

/-! ## Attributes -/

/-- An attribute with a literal behind its equals sign has the value of the literal, without the
blanks at its end. Nothing else is read. -/
theorem attribute?_literal {d : Delimiters} {parens : Bool} {name t v rest : Text} {cur : Cursor}
    (hne : name ≠ []) (htoken : token? d.placeholder [] (nameStops parens) (name ++ '=' :: t) cur =
      (.ok (some (name, '=' :: t)), cur)) (hvalue : quotedValue? t = some (v, rest)) :
    attribute? d parens (name ++ '=' :: t) cur =
      (.ok (some (attributePair name v.trimEnd, rest)), cur) := by
  have hempty : name.isEmpty = false := by simpa using hne
  simp only [attribute?, htoken, hempty, Bool.false_eq_true, if_false, Text.after?, if_true,
    assignment?, hvalue]

/-- Every text can be the value of an attribute, in each of the four styles of quotes, bare or in
parentheses. It comes back without the blanks at its end, what follows the literal is left as it is,
and no line is pulled. -/
theorem attribute?_quoted {d : Delimiters} (hd : d = .mako ∨ d = .django) (parens : Bool)
    {name : Text} (hne : name ≠ []) (hname : ∀ c ∈ name, isNameChar c = true) {quote : Char}
    (hquote : quote = '"' ∨ quote = '\'') {mark : Text}
    (hmark : mark = [quote] ∨ mark = [quote, quote, quote]) (v : Text) {rest : Text}
    (hrest : rest.head? ≠ some quote) (cur : Cursor) :
    attribute? d parens (name ++ ['='] ++ mark ++ Text.escape quote v ++ mark ++ rest) cur =
      (.ok (some (attributePair name v.trimEnd, rest)), cur) := by
  have htoken := token?_equals (fun c hc => Delimiters.head?_variableStart_ne hd (hname c hc))
    hname parens (mark ++ (Text.escape quote v ++ (mark ++ rest))) cur
  have hread := attribute?_literal hne htoken (quotedValue?_escape hquote hmark v hrest)
  simpa only [List.append_assoc, List.cons_append, List.nil_append] using hread

/-- A value with quote signs in it that ends in a backslash and blanks, between three quote
signs. -/
theorem attribute?_quoted_triple :
    attribute? .django true
        ("data-é".toList ++ ['='] ++ "'''".toList ++ Text.escape '\'' "'''\\u0041\\ \n".toList ++
          "'''".toList ++ "\")\n".toList) ⟨["b\n".toList], 3⟩ =
      (.ok (some ("data-é=\"'''\\u0041\\\"".toList, "\")\n".toList)), ⟨["b\n".toList], 3⟩) :=
  attribute?_quoted (.inr rfl) true (by decide) (Text.forall_mem_of_all (by decide)) (.inr rfl)
    (.inr rfl) _ (by decide) _

end TerseMarkup
