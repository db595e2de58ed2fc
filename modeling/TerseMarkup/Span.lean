import TerseMarkup.Diagnostic

/-!
# Embedded markup

Text may hold spans of markup between backticks. A span closes at the next single backtick, which
takes a following underscore with it; a doubled backtick is a literal one, inside a span and
outside. `renderSpans` puts the compiled markup in place of each span. What does not read as
markup at all is kept as it is written.
-/

namespace TerseMarkup

/-- A backtick span. -/
structure Span where
  /-- The markup inside, with each doubled backtick made single. -/
  markup : Text
  /-- The span exactly as it stands in the text, backticks included. -/
  written : Text
  deriving DecidableEq, Repr

/-- Reads on inside a span until it closes: the markup, the span as written from here on, and the
rest of the text. -/
def closeSpan? : Text → Option (Text × Text × Text)
  | [] => none
  | c :: t =>
    if c = '\x60' then
      match t with
      | [] => some ([], [c], [])
      | e :: u =>
        if e = '\x60' then
          (closeSpan? u).map fun (markup, written, rest) => (c :: markup, c :: e :: written, rest)
        else if e = '_' then some ([], [c, e], u)
        else some ([], [c], t)
    else (closeSpan? t).map fun (markup, written, rest) => (c :: markup, c :: written, rest)

/-- The fault of a span that never closes. -/
def unclosedSpan (content : Text) (line : Nat) : Diagnostic :=
  .malformed ("Embedding quote is not closed: \"".toList ++ content ++ ['"']) content line

/-- The span at the front of a text, and what follows it. -/
def Span.read? (content : Text) (line : Nat) : Except Diagnostic (Option (Span × Text)) :=
  match content with
  | [] => .ok none
  | c :: t =>
    if c = '\x60' then
      match closeSpan? t with
      | some (markup, written, rest) => .ok (some (⟨markup, c :: written⟩, rest))
      | none => .error (unclosedSpan content line)
    else .ok none

/-- A span as written and what follows it make up the text. -/
theorem eq_append_of_closeSpan? {t markup written rest : Text}
    (h : closeSpan? t = some (markup, written, rest)) : t = written ++ rest := by
  fun_induction closeSpan? t generalizing markup written rest with
  | case1 => simp at h
  | case2 =>
    cases h
    rfl
  | case3 u ih =>
    obtain ⟨⟨m, w, r⟩, hm, hp⟩ := Option.map_eq_some_iff.1 h
    cases hp
    simp [ih hm]
  | case4 =>
    cases h
    rfl
  | case5 =>
    cases h
    rfl
  | case6 c t hc ih =>
    obtain ⟨⟨m, w, r⟩, hm, hp⟩ := Option.map_eq_some_iff.1 h
    cases hp
    simp [ih hm]

/-- What follows a span is shorter than the text that the span opens. -/
theorem length_lt_of_closeSpan? {c : Char} {t markup written rest : Text}
    (h : closeSpan? t = some (markup, written, rest)) : rest.length < (c :: t).length := by
  rw [eq_append_of_closeSpan? h, List.length_cons, List.length_append]
  omega

/-- Puts compiled markup in place of each span. `line` is the number of the line that the text
starts on; a fault inside a span is reported at the line where the span starts. -/
def renderSpans (compile : Text → Except Diagnostic Text) (line : Nat) (content : Text) :
    Except Diagnostic Text :=
  match content with
  | [] => .ok []
  | c :: t =>
    if c = '\x60' then
      match t with
      | [] => .error (unclosedSpan [c] line)
      | e :: u =>
        if e = '\x60' then (renderSpans compile line u).map (c :: ·)
        else
          match _h : closeSpan? (e :: u) with
          | none => .error (unclosedSpan (c :: e :: u) line)
          | some (markup, written, rest) =>
            let after := line + written.count '\n'
            if markup.trim.isEmpty then renderSpans compile after rest
            else
              match compile markup.trim with
              | .ok out => (renderSpans compile after rest).map (out ++ ·)
              | .error (.unrecognised _ _) =>
                (renderSpans compile after rest).map (c :: written ++ ·)
              | .error d => .error (d.atLine line)
    else (renderSpans compile (if c = '\n' then line + 1 else line) t).map (c :: ·)
termination_by content.length
decreasing_by
  · simp only [List.length_cons]
    omega
  · exact length_lt_of_closeSpan? _h
  · exact length_lt_of_closeSpan? _h
  · exact length_lt_of_closeSpan? _h
  · simp

end TerseMarkup
