import TerseMarkup.Markdown.Marks
import TerseMarkup.Markdown.Reference
import TerseMarkup.Markdown.Row
import TerseMarkup.Markdown.Tag

/-!
# The inline text of Markdown

Code spans, links, HTML, character references, backslash escapes and line breaks are read from left
to right. A closing bracket with a link target behind it makes a link or an image of the nearest
opening bracket, and no link goes inside another. What is left of asterisks, underscores and tildes
is paired afterwards.
-/

namespace TerseMarkup.Markdown

/-! ## Code spans -/

/-- Cuts a text behind the next run of exactly `n` backticks. -/
def closeCode? (n : Nat) : (fuel : Nat) → Text → Option (Text × Text)
  | 0, _ => none
  | _, [] => none
  | fuel + 1, c :: t =>
    if c = '\x60' then
      let run := c :: t.takeWhile (· == c)
      let rest := t.dropWhile (· == c)
      if run.length = n then some ([], rest)
      else (closeCode? n fuel rest).map fun (code, rest) => (run ++ code, rest)
    else (closeCode? n fuel t).map fun (code, rest) => (c :: code, rest)

/-- The text of a code span: each character of a line end is a space, and one space at either end is
dropped. -/
def codeText (t : Text) : Text :=
  let t := t.map fun c => if c = '\n' || c = '\r' then ' ' else c
  if t.head? = some ' ' && t.getLast? = some ' ' && t.any (· != ' ') then (t.drop 1).dropLast
  else t

/-! ## Links -/

/-- The first character of the text `c :: t`, whether a backslash shields it, and what follows. -/
def unshield (c : Char) (t : Text) : Char × Bool × Text :=
  match t with
  | [] => (c, false, [])
  | e :: u => if c = '\\' && isEscapable e then (e, true, u) else (c, false, e :: u)

/-- What follows a shielded character is no longer than the text. -/
theorem length_unshield_le (c : Char) (t : Text) : (unshield c t).2.2.length ≤ t.length := by
  unfold unshield
  split
  · exact Nat.le_refl _
  · split
    · exact Nat.le_succ _
    · exact Nat.le_refl _

/-- A character as it was written. -/
def shielded (e : Char) (isShielded : Bool) : Text :=
  if isShielded then ['\\', e] else [e]

/-- Cuts a text behind the first `stop` that no backslash shields. It is nothing if one of `bars`
comes first, or no stop at all. -/
def shieldedUntil? (stop : Char) (bars : List Char) : Text → Option (Text × Text)
  | [] => none
  | c :: t =>
    match _h : unshield c t with
    | (e, isShielded, rest) =>
      if !isShielded && e = stop then some ([], rest)
      else if !isShielded && bars.contains e then none
      else (shieldedUntil? stop bars rest).map fun (inside, rest) =>
        (shielded e isShielded ++ inside, rest)
termination_by t => t.length
decreasing_by
  have := length_unshield_le c t
  rw [_h] at this
  exact Nat.lt_succ_of_le this

/-- A bare link target, up to a space or the parenthesis that closes the link, and what follows
it. Parentheses nest, and the target holds both of a pair. -/
def bareTarget? (depth : Nat) : Text → Option (Text × Text)
  | [] => if depth = 0 then some ([], []) else none
  | c :: t =>
    match _h : unshield c t with
    | (e, isShielded, rest) =>
      if !isShielded && (e ≤ ' ' || (e = ')' && depth = 0)) then
        if depth = 0 then some ([], c :: t) else none
      else
        let depth := if isShielded then depth else if e = '(' then depth + 1
          else if e = ')' then depth - 1 else depth
        if 33 < depth then none
        else (bareTarget? depth rest).map fun (inside, rest) =>
          (shielded e isShielded ++ inside, rest)
termination_by t => t.length
decreasing_by
  have := length_unshield_le c t
  rw [_h] at this
  exact Nat.lt_succ_of_le this

/-- The text without the backslashes that shield something, and with what its character references
stand for. The fuel bounds the number of characters. -/
def unescape : (fuel : Nat) → Text → Text
  | 0, _ => []
  | _, [] => []
  | fuel + 1, c :: t =>
    match if c = '&' then reference? t else none with
    | some (value, rest) => value ++ unescape fuel rest
    | none =>
      let (e, _, rest) := unshield c t
      e :: unescape fuel rest

/-- The text that was meant by a written one. -/
def unescaped (t : Text) : Text :=
  unescape t.length t

/-- A link target, bare or in angle brackets, and what follows it. -/
def linkTarget? (t : Text) : Option (Text × Text) :=
  match Text.after? ['<'] t with
  | some t => shieldedUntil? '>' ['<', '\n', '\r'] t
  | none => bareTarget? 0 t

/-- A title without the blanks at the start of its lines. A carriage return alone becomes a line
feed. -/
def withoutMargins : (atStart : Bool) → Text → Text
  | _, [] => []
  | _, '\r' :: '\n' :: t => '\r' :: '\n' :: withoutMargins true t
  | atStart, c :: t =>
    if atStart && isGap c then withoutMargins true t
    else if c = '\n' || c = '\r' then '\n' :: withoutMargins true t
    else c :: withoutMargins false t

/-- A title in quotes or parentheses, empty if there is none, and what follows it. -/
def linkTitle (t : Text) : Text × Text :=
  let found := match t with
    | '"' :: u => shieldedUntil? '"' [] u
    | '\'' :: u => shieldedUntil? '\'' [] u
    | '(' :: u => shieldedUntil? ')' ['('] u
    | _ => none
  match found with
  | some (title, rest) => (withoutMargins false title, dropSpaces rest)
  | none => ([], t)

/-- The target and the title behind the brackets of a link, and what follows them. -/
def linkRest? (t : Text) : Option (Text × Text × Text) := do
  let t ← Text.after? ['('] t
  let (target, t) ← linkTarget? (dropSpaces t)
  let (title, t) := linkTitle (dropSpaces t)
  let rest ← Text.after? [')'] t
  return (unescaped target, unescaped title, rest)

/-- The pieces down to the nearest opening bracket, in order, whether that bracket is one of an
image and whether it is active, and the pieces below it. -/
def bracket? : (stack inside : List Piece) → Option (List Piece × Bool × Bool × List Piece)
  | [], _ => none
  | .bracket image active :: below, inside => some (inside, image, active, below)
  | piece :: below, inside => bracket? below (piece :: inside)

/-- Makes the brackets of links inactive. -/
def withoutLinks (stack : List Piece) : List Piece :=
  stack.map fun piece =>
    match piece with
    | .bracket image active => .bracket image (image && active)
    | piece => piece

/-- A closing bracket on a stack, with the text behind it: the new stack and the text to go on
with. -/
def closeBracket (stack : List Piece) (t : Text) : List Piece × Option Text :=
  match bracket? stack [] with
  | none => (.done (.text [']']) :: stack, none)
  | some (inside, image, active, below) =>
    match if active then linkRest? t else none with
    | some (target, title, rest) =>
      let content := pairMarks inside []
      if image then (.done (.image target title content) :: below, some rest)
      else (.done (.link target title content) :: withoutLinks below, some rest)
    | none =>
      (.done (.text [']']) ::
        (inside.reverse ++ .done (Piece.bracket image active).plain :: below), none)

/-- What stands in angle brackets, and what follows it. `t` is the text behind the opening
bracket. -/
def angled? (t : Text) : Option (Inline × Text) :=
  match address? t with
  | some (address, rest) => some (.link address [] [.text address], rest)
  | none =>
    match mailAddress? t with
    | some (address, rest) => some (.link ("mailto:".toList ++ address) [] [.text address], rest)
    | none => (rawHtml? t).map fun rest => (.html ('<' :: t.take (t.length - rest.length)), rest)

/-! ## Reading -/

/-- Reads inline text onto a stack of pieces, the newest first. `before` is the character in front
of the text, and `front` gives the one in front of a further line. -/
def readPieces (front : Text → Char) :
    (fuel : Nat) → (before : Option Char) → List Piece → Text → List Piece
  | 0, _, stack, _ => stack
  | _, _, stack, [] => stack
  | fuel + 1, before, stack, c :: t =>
    if c = '\\' then
      match t with
      | [] => .done (.text [c]) :: stack
      | e :: rest =>
        if isEscapable e then readPieces front fuel (some e) (.done (.text [e]) :: stack) rest
        else
          match pastEnding? t with
          | some rest =>
            readPieces front fuel (some (front rest)) (.done .hardBreak :: stack)
              (rest.dropWhile isGap)
          | none => readPieces front fuel (some c) (.done (.text [c]) :: stack) t
    else if c = '\x60' then
      let run := c :: t.takeWhile (· == c)
      let rest := t.dropWhile (· == c)
      match closeCode? run.length (rest.length + 1) rest with
      | some (code, rest) =>
        readPieces front fuel (some c) (.done (.code (codeText code)) :: stack) rest
      | none => readPieces front fuel (some c) (.done (.text run) :: stack) rest
    else if c = '*' || c = '_' || c = '~' then
      let length := (t.takeWhile (· == c)).length + 1
      let rest := t.dropWhile (· == c)
      readPieces front fuel (some c) (.run (.between c length before rest.head?) :: stack) rest
    else if isSpace c then
      let spaces := (c :: t).takeWhile isLineSpace
      let rest := (c :: t).dropWhile isLineSpace
      match pastEnding? rest with
      | some rest =>
        let lineBreak := if 2 ≤ spaces.length then Inline.hardBreak else .softBreak
        readPieces front fuel (some (front rest)) (.done lineBreak :: stack) (rest.dropWhile isGap)
      | none => readPieces front fuel (some ' ') (.done (.text spaces) :: stack) rest
    else if c = '&' then
      match reference? t with
      | some (value, rest) => readPieces front fuel (some ';') (.done (.text value) :: stack) rest
      | none => readPieces front fuel (some c) (.done (.text [c]) :: stack) t
    else if c = '<' then
      match angled? t with
      | some (inline, rest) => readPieces front fuel (some '>') (.done inline :: stack) rest
      | none => readPieces front fuel (some c) (.done (.text [c]) :: stack) t
    else if c = '!' && t.head? = some '[' then
      readPieces front fuel (some '[') (.bracket true true :: stack) (t.drop 1)
    else if c = '[' then readPieces front fuel (some c) (.bracket false true :: stack) t
    else if c = ']' then
      match closeBracket stack t with
      | (stack, some rest) => readPieces front fuel (some ')') stack rest
      | (stack, none) => readPieces front fuel (some c) stack t
    else readPieces front fuel (some c) (.done (.text [c]) :: stack) t

/-- Reads the text of a block. `fronts` are the characters in front of its lines, where they are
known to matter: a mark at the start of a line looks at them. -/
def inlinesBehind (fronts : List Char) (t : Text) : List Inline :=
  let front (rest : Text) : Char :=
    if (rest.head?.map isGap).getD false then ' '
    else (fronts.reverse[(rows rest).length - 1]?).getD '\n'
  pairMarks (readPieces front (t.length + 1) fronts.head? [] t).reverse []

/-- Reads the text of a block that starts a line. -/
def inlines (t : Text) : List Inline :=
  inlinesBehind [] t

end TerseMarkup.Markdown
