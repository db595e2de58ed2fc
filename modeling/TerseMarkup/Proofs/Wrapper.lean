import TerseMarkup.Proofs.Bytes
import TerseMarkup.Proofs.Decline

/-!
# Wrappers of dynamic values

A dynamic value may stand in a placeholder or in parentheses, and is written without them. Which of
the two it is, is seen at the front of the text, but what is taken off is counted from both ends of
the token. So the value is right if the wrapper encloses the whole token, or if there is none. If
the token goes on behind the wrapper, the end of something else is taken off.

* `Delimiters.IsValue`: the value of a token, by the group at its front.
* `Delimiters.isValue_unwrapValue_iff`: when the value is the value of the token. Otherwise
  something of the token is lost.
* `Delimiters.unwrapValue_drops_text`: what is behind a wrapper may lose its last character.
-/

namespace TerseMarkup

/-! ## What a token begins with -/

section

variable {t rest : Text} {cur cur' : Cursor}

/-- A group starts with the character that it is read at. -/
theorem Nesting.head?_of_group? {n : Nesting} {c : Char} {g : Text}
    (h : n.group? (c :: t) cur = (.ok (some (g, rest)), cur')) : g.head? = some c := by
  obtain ⟨pulled, -, start, depth, after, ps, hopen, heq, -, -, rfl⟩ := group?_eq_some_iff.1 h
  rw [List.head?_append, Text.head?_of_append heq hopen.ne_nil rfl]
  rfl

/-- An atom begins with the character it is read for. -/
theorem head?_of_atom {n : Option Nesting} {c : Char} {a : Text}
    (h : atom n c t cur = (.ok (a, rest), cur')) : a.head? = some c := by
  rcases atom_cases h with hg | ⟨-, ⟨hq, -⟩ | ⟨-, hg | ⟨-, rfl, -, -⟩⟩⟩
  · cases n with
    | none => cases hg
    | some n => exact Nesting.head?_of_group? hg
  · have heq := Text.eq_append_of_quoted? hq
    refine Text.head?_of_append heq ?_ rfl
    rintro rfl
    have hlt := Text.length_lt_of_quoted? hq
    rw [heq] at hlt
    exact Nat.lt_irrefl _ hlt
  · exact Nesting.head?_of_group? hg
  · rfl

/-- Atoms that do not stop at once begin with what the text begins with. -/
theorem head?_of_atoms {n : Nesting} {stops : List Text} {c : Char} {read : Text}
    (hstop : stops.any (·.isPrefixOf (c :: t)) = false)
    (h : atoms n stops (c :: t) cur = (.ok (read, rest), cur')) : read.head? = some c := by
  rw [atoms, if_neg (by rw [hstop]; exact Bool.false_ne_true)] at h
  split at h
  · cases h
  · rename_i a rest₁ cur₁ hatom
    split at h
    · cases h
    · cases h
      rw [List.head?_append, head?_of_atom hatom]
      rfl

end

/-! ## Values -/

namespace Delimiters

/-- The token is one placeholder, with `inner` between the delimiters. -/
def OnePlaceholder (d : Delimiters) (t : Text) (cur : Cursor) (token inner : Text) : Prop :=
  token = d.variableStart ++ inner ++ d.variableEnd ∧
    ∃ rest cur', d.placeholder.group? t cur = (.ok (some (token, rest)), cur')

/-- The token is one group in parentheses, with `inner` between them. -/
def OneParenthesised (t : Text) (cur : Cursor) (token inner : Text) : Prop :=
  token = ['('] ++ inner ++ [')'] ∧
    ∃ rest cur', Nesting.brackets.group? t cur = (.ok (some (token, rest)), cur')

/-- The value of a token that is read off the front of `t`: a wrapper that encloses the whole token
is not part of it. -/
inductive IsValue (d : Delimiters) (t : Text) (cur : Cursor) (token : Text) : Text → Prop
  | placeholder {inner : Text} (h : d.OnePlaceholder t cur token inner) :
      d.IsValue t cur token inner
  | parenthesised {inner : Text} (hnone : ∀ x, ¬ d.OnePlaceholder t cur token x)
      (h : OneParenthesised t cur token inner) : d.IsValue t cur token inner
  | plain (hnone : ∀ x, ¬ d.OnePlaceholder t cur token x)
      (hnone' : ∀ x, ¬ OneParenthesised t cur token x) : d.IsValue t cur token token

variable {d : Delimiters} {t token inner value rest : Text} {cur cur' : Cursor}

/-- A value other than the token itself comes out of a wrapper. -/
theorem IsValue.wrapped (h : d.IsValue t cur token value) (hne : value ≠ token) :
    (∃ inner, d.OnePlaceholder t cur token inner) ∨
      ∃ inner, OneParenthesised t cur token inner := by
  cases h with
  | placeholder hone => exact .inl ⟨value, hone⟩
  | parenthesised _ hone => exact .inr ⟨value, hone⟩
  | plain => exact absurd rfl hne

/-- A token that is not the group at its front is its own value. -/
theorem not_isValue {found found' : Option (Text × Text)} {cur₁ cur₂ : Cursor}
    (hplaceholder : d.placeholder.group? t cur = (.ok found, cur₁))
    (hbrackets : Nesting.brackets.group? t cur = (.ok found', cur₂))
    (hfound : found.map Prod.fst ≠ some token) (hfound' : found'.map Prod.fst ≠ some token)
    (hne : value ≠ token) : ¬ d.IsValue t cur token value := by
  intro h
  rcases h.wrapped hne with ⟨inner, -, rest, cur', hgroup⟩ | ⟨inner, -, rest, cur', hgroup⟩
  · rw [hplaceholder] at hgroup
    cases hgroup
    exact hfound rfl
  · rw [hbrackets] at hgroup
    cases hgroup
    exact hfound' rfl

/-- A token that is one placeholder starts with the opening delimiter. -/
theorem OnePlaceholder.opens (h : d.OnePlaceholder t cur token inner) :
    d.variableStart ≠ [] ∧ d.variableStart <+: t := by
  obtain ⟨-, rest, cur', hgroup⟩ := h
  obtain ⟨pulled, -, start, depth, after, ps, hopen, rfl, -⟩ := Nesting.group?_eq_some_iff.1 hgroup
  have hne := hopen.ne_nil
  cases hopen with
  | curly => exact ⟨hne, List.prefix_append _ _⟩
  | sequence => exact ⟨hne, List.prefix_append _ _⟩

/-- A token that is one group in parentheses starts with one. -/
theorem OneParenthesised.opens (h : OneParenthesised t cur token inner) : t.head? = some '(' := by
  obtain ⟨htoken, rest, cur', hgroup⟩ := h
  obtain ⟨pulled, -, start, depth, after, ps, hopen, rfl, -, -, hg⟩ :=
    Nesting.group?_eq_some_iff.1 hgroup
  cases hopen with
  | bracket =>
    rw [hg] at htoken
    rw [(List.cons.inj htoken).1]
    rfl

/-! ## Unwrapping -/

/-- A token at a placeholder loses the bytes of both delimiters. -/
theorem unwrapValue_of_placeholder (hne : d.variableStart ≠ []) (hstart : d.variableStart <+: t) :
    unwrapValue d t token =
      (token.sliceBytes? d.variableStart.byteSize
        (token.byteSize - d.variableEnd.byteSize)).getD [] := by
  rw [unwrapValue, if_pos ⟨hne, List.isPrefixOf_iff_prefix.2 hstart⟩]

/-- Any other token loses its parentheses, if it starts with one. -/
theorem unwrapValue_of_not_placeholder (hstart : ¬ d.variableStart <+: t) :
    unwrapValue d t token = if t.head? = some '(' then (token.drop 1).dropLast else token := by
  rw [unwrapValue, if_neg fun h => hstart (List.isPrefixOf_iff_prefix.1 h.2)]

/-- A placeholder loses its delimiters. -/
theorem OnePlaceholder.unwrapValue_eq (h : d.OnePlaceholder t cur token inner) :
    unwrapValue d t token = inner := by
  obtain ⟨hne, hstart⟩ := h.opens
  have hslice : token.sliceBytes? d.variableStart.byteSize
      (token.byteSize - d.variableEnd.byteSize) = some inner := by
    refine Text.sliceBytes?_eq_some_iff.2 ⟨d.variableStart, d.variableEnd, h.1, rfl, ?_⟩
    rw [h.1, Text.byteSize_append (_ ++ _), Nat.add_sub_cancel]
  rw [unwrapValue_of_placeholder hne hstart, hslice]
  rfl

/-- A group in parentheses loses them. -/
theorem OneParenthesised.unwrapValue_eq (h : OneParenthesised t cur token inner)
    (hstart : ¬ d.variableStart <+: t) : unwrapValue d t token = inner := by
  rw [unwrapValue_of_not_placeholder hstart, if_pos h.opens, h.1]
  simp

/-- Something is lost of a token with a wrapper at its front. -/
theorem length_unwrapValue_lt (hne : d.variableStart ≠ [])
    (hopen : d.variableStart <+: t ∨ t.head? = some '(') (htoken : token ≠ []) :
    (unwrapValue d t token).length < token.length := by
  have hpos := List.length_pos_iff.2 htoken
  by_cases hstart : d.variableStart <+: t
  · rw [unwrapValue_of_placeholder hne hstart]
    cases hslice : token.sliceBytes? d.variableStart.byteSize
        (token.byteSize - d.variableEnd.byteSize) with
    | none => exact hpos
    | some mid =>
      obtain ⟨x, y, rfl, hsize, -⟩ := Text.sliceBytes?_eq_some_iff.1 hslice
      have hx : x ≠ [] := by
        rintro rfl
        exact hne (Text.eq_nil_of_byteSize_eq_zero hsize.symm)
      have hlt := List.length_pos_iff.2 hx
      rw [Option.getD_some, List.length_append, List.length_append]
      omega
  · rw [unwrapValue_of_not_placeholder hstart, if_pos (hopen.resolve_left hstart),
      List.length_dropLast, List.length_drop]
    omega

/-! ## Tokens with a wrapper at the front -/

/-- The delimiters of values open with a dollar sign or a curly bracket. -/
theorem exists_variableStart (hd : d = .mako ∨ d = .django) :
    ∃ c u, d.variableStart = c :: u ∧ (c = '$' ∨ c = '\x7b') := by
  rcases hd with rfl | rfl
  · exact ⟨_, _, rfl, .inl rfl⟩
  · exact ⟨_, _, rfl, .inr rfl⟩

/-- A token that opens with a wrapper is not empty. -/
theorem token?_ne_nil {parens : Bool} {c : Char} (hc : c = '$' ∨ c = '\x7b' ∨ c = '(')
    (hhead : t.head? = some c)
    (h : token? d.placeholder [] (valueStops parens) t cur = (.ok (some (token, rest)), cur')) :
    token ≠ [] := by
  have hstop (u : Text) : (valueStops parens).any (·.isPrefixOf (c :: u)) = false := by
    cases parens <;> rcases hc with rfl | rfl | rfl <;> rfl
  have hblank : isBlank c = false := by rcases hc with rfl | rfl | rfl <;> decide
  cases t with
  | nil => cases hhead
  | cons c' t =>
    cases hhead
    simp only [token?, List.isEmpty_cons, Bool.false_eq_true, if_false, Text.after?,
      List.nil_append] at h
    split at h
    · cases h
    · rename_i read rest₁ cur₁ hatoms
      cases h
      obtain ⟨c, hc, -⟩ := (Text.solid_of_head? (head?_of_atoms (hstop t) hatoms) hblank).trimEnd
      exact List.ne_nil_of_mem hc

/-- A parenthesis does not start a placeholder. -/
theorem not_variableStart_of_head? (hd : d = .mako ∨ d = .django) (h : t.head? = some '(') :
    ¬ d.variableStart <+: t := by
  obtain ⟨c, u, hstart, hc⟩ := exists_variableStart hd
  rintro ⟨after, rfl⟩
  rw [hstart] at h
  cases h
  rcases hc with hc | hc <;> cases hc

/-- The value is shorter than the token where a wrapper is seen at the front. -/
theorem length_unwrapValue_lt_of_token? (hd : d = .mako ∨ d = .django) {parens : Bool}
    (h : token? d.placeholder [] (valueStops parens) t cur = (.ok (some (token, rest)), cur'))
    (hopen : d.variableStart <+: t ∨ t.head? = some '(') :
    (unwrapValue d t token).length < token.length := by
  obtain ⟨c, u, hstart, hc⟩ := exists_variableStart hd
  have htoken : token ≠ [] := by
    rcases hopen with ⟨after, rfl⟩ | hhead
    · refine token?_ne_nil (hc.imp_right .inl) ?_ h
      rw [hstart]
      rfl
    · exact token?_ne_nil (.inr (.inr rfl)) hhead h
  refine length_unwrapValue_lt ?_ hopen htoken
  rw [hstart]
  exact List.cons_ne_nil c u

/-- The value of a token that is not wrapped, or wrapped as a whole. -/
theorem isValue_unwrapValue (hd : d = .mako ∨ d = .django)
    (h : (¬ d.variableStart <+: t ∧ t.head? ≠ some '(') ∨
      (∃ inner, d.OnePlaceholder t cur token inner) ∨
      ∃ inner, OneParenthesised t cur token inner) :
    d.IsValue t cur token (unwrapValue d t token) := by
  rcases h with ⟨hstart, hhead⟩ | ⟨inner, hone⟩ | ⟨inner, hone⟩
  · rw [unwrapValue_of_not_placeholder hstart, if_neg hhead]
    exact .plain (fun x hx => hstart hx.opens.2) fun x hx => hhead hx.opens
  · rw [hone.unwrapValue_eq]
    exact .placeholder hone
  · have hstart : ¬ d.variableStart <+: t := not_variableStart_of_head? hd hone.opens
    rw [hone.unwrapValue_eq hstart]
    exact .parenthesised (fun x hx => hstart hx.opens.2) hone

/-- The value is the value of its token if nothing is wrapped, or if the wrapper encloses the whole
token, and only then. Otherwise something of the token is lost. -/
theorem isValue_unwrapValue_iff (hd : d = .mako ∨ d = .django) {parens : Bool}
    (h : token? d.placeholder [] (valueStops parens) t cur = (.ok (some (token, rest)), cur')) :
    (d.IsValue t cur token (unwrapValue d t token) ↔
      (¬ d.variableStart <+: t ∧ t.head? ≠ some '(') ∨
      (∃ inner, d.OnePlaceholder t cur token inner) ∨
      ∃ inner, OneParenthesised t cur token inner) ∧
    (¬ d.IsValue t cur token (unwrapValue d t token) →
      (unwrapValue d t token).length < token.length) := by
  have hcases : (¬ d.variableStart <+: t ∧ t.head? ≠ some '(') ∨
      (unwrapValue d t token).length < token.length := by
    by_cases hopen : d.variableStart <+: t ∨ t.head? = some '('
    · exact .inr (length_unwrapValue_lt_of_token? hd h hopen)
    · exact .inl (not_or.1 hopen)
  refine ⟨⟨fun hvalue => ?_, isValue_unwrapValue hd⟩, fun hnot => ?_⟩
  · rcases hcases with hplain | hlt
    · exact .inl hplain
    · -- A token that is its own value has lost nothing.
      refine .inr (hvalue.wrapped fun heq => ?_)
      rw [heq] at hlt
      exact Nat.lt_irrefl _ hlt
  · exact hcases.resolve_left fun hplain => hnot (isValue_unwrapValue hd (.inl hplain))

/-- A placeholder over two lines, with a closing delimiter in a literal, is unwrapped. -/
theorem isValue_unwrapValue_two_lines :
    token? Delimiters.mako.placeholder [] (valueStops true) "$\x7ba +\n".toList
        ⟨["  '\x7d' \x7d)\n".toList], 0⟩ =
      (.ok (some ("$\x7ba +'\x7d' \x7d".toList, ")\n".toList)), ⟨[], 1⟩) ∧
    unwrapValue .mako "$\x7ba +\n".toList "$\x7ba +'\x7d' \x7d".toList = "a +'\x7d' ".toList ∧
    Delimiters.mako.IsValue "$\x7ba +\n".toList ⟨["  '\x7d' \x7d)\n".toList], 0⟩
      "$\x7ba +'\x7d' \x7d".toList "a +'\x7d' ".toList := by
  have htoken : token? Delimiters.mako.placeholder [] (valueStops true) "$\x7ba +\n".toList
        ⟨["  '\x7d' \x7d)\n".toList], 0⟩ =
      (.ok (some ("$\x7ba +'\x7d' \x7d".toList, ")\n".toList)), ⟨[], 1⟩) := by decide +kernel
  have hvalue : unwrapValue .mako "$\x7ba +\n".toList "$\x7ba +'\x7d' \x7d".toList =
      "a +'\x7d' ".toList := by decide +kernel
  have hgroup : Delimiters.mako.placeholder.group? "$\x7ba +\n".toList
        ⟨["  '\x7d' \x7d)\n".toList], 0⟩ =
      (.ok (some ("$\x7ba +'\x7d' \x7d".toList, ")\n".toList)), ⟨[], 1⟩) := by decide +kernel
  refine ⟨htoken, hvalue, ?_⟩
  rw [← hvalue]
  exact (isValue_unwrapValue_iff (.inl rfl) htoken).1.2
    (.inr (.inl ⟨"a +'\x7d' ".toList, rfl, _, _, hgroup⟩))

/-- A token that goes on behind a placeholder or a group in parentheses loses its last character
together with the front of the wrapper. -/
theorem unwrapValue_drops_text :
    (attribute? .mako false "a=$\x7bbase\x7d/path".toList ⟨[], 0⟩ =
        (.ok (some ("a=\"$\x7bbase\x7d/pat\x7d\"".toList, [])), ⟨[], 0⟩) ∧
      ¬ Delimiters.mako.IsValue "$\x7bbase\x7d/path".toList ⟨[], 0⟩ "$\x7bbase\x7d/path".toList
        (unwrapValue .mako "$\x7bbase\x7d/path".toList "$\x7bbase\x7d/path".toList)) ∧
    (attribute? .mako false "a=(a)+(b)".toList ⟨[], 0⟩ =
        (.ok (some ("a=\"$\x7ba)+(b\x7d\"".toList, [])), ⟨[], 0⟩) ∧
      ¬ Delimiters.mako.IsValue "(a)+(b)".toList ⟨[], 0⟩ "(a)+(b)".toList
        (unwrapValue .mako "(a)+(b)".toList "(a)+(b)".toList)) := by
  constructor
  · have hgroup : Delimiters.mako.placeholder.group? "$\x7bbase\x7d/path".toList ⟨[], 0⟩ =
        (.ok (some ("$\x7bbase\x7d".toList, "/path".toList)), ⟨[], 0⟩) := by decide +kernel
    have hnone : Nesting.brackets.group? "$\x7bbase\x7d/path".toList ⟨[], 0⟩ =
        (.ok none, ⟨[], 0⟩) := by decide +kernel
    refine ⟨by decide +kernel, not_isValue hgroup hnone ?_ ?_ ?_⟩
    · decide
    · decide
    · decide +kernel
  · have hgroup : Nesting.brackets.group? "(a)+(b)".toList ⟨[], 0⟩ =
        (.ok (some ("(a)".toList, "+(b)".toList)), ⟨[], 0⟩) := by decide +kernel
    have hnone : Delimiters.mako.placeholder.group? "(a)+(b)".toList ⟨[], 0⟩ =
        (.ok none, ⟨[], 0⟩) := by decide +kernel
    refine ⟨by decide +kernel, not_isValue hnone hgroup ?_ ?_ ?_⟩
    · decide
    · decide
    · decide +kernel

end Delimiters

end TerseMarkup
