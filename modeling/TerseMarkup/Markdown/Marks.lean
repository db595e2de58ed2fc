import TerseMarkup.Markdown.Document
import TerseMarkup.Markdown.Punctuation

/-!
# Emphasis marks

Asterisks, underscores and tildes stand in runs. The characters around a run decide whether it may
open, close or do both. Runs are paired from left to right with a stack: a run that closes looks
for the nearest run that pairs with it, and the two use up as many marks as they both have left.
What decides whether two runs pair is their full length, not what is left of them.
-/

namespace TerseMarkup.Markdown

/-! ## Runs -/

/-- A run of equal marks. -/
structure Run where
  mark : Char
  /-- The length of the whole run. -/
  length : Nat
  /-- How many of its marks are not used yet. -/
  count : Nat
  opens : Bool
  closes : Bool
  deriving DecidableEq, Repr

namespace Run

/-- Whether a run works inside words, if no punctuation is in the way. -/
def isFree (mark : Char) (length : Nat) : Bool :=
  mark == '*' || (mark == '~' && 2 ≤ length)

/-- Whether a run between two characters may open. -/
def canOpen (mark : Char) (length : Nat) (before behind : Option Char) : Bool :=
  match behind with
  | none => false
  | some b =>
    !isBlank b &&
      match before with
      | none => true
      | some a =>
        (mark == '~' && 2 ≤ length) || (isFree mark length && !isPunctuation b) || isBlank a ||
          isPunctuation a

/-- Whether a run between two characters may close. -/
def canClose (mark : Char) (length : Nat) (before behind : Option Char) : Bool :=
  match before with
  | none => false
  | some a =>
    !isBlank a &&
      match behind with
      | none => true
      | some b =>
        (isFree mark length && !isPunctuation a) || (mark == '~' && a == '~') || isBlank b ||
          isPunctuation b

/-- A run of marks between two characters. More than two tildes are plain text. -/
def between (mark : Char) (length : Nat) (before behind : Option Char) : Run :=
  let valid := mark != '~' || length ≤ 2
  ⟨mark, length, length, valid && canOpen mark length before behind,
    valid && canClose mark length before behind⟩

/-- Whether a run could do both. -/
def both (r : Run) : Bool :=
  r.opens && r.closes

/-- A run as plain text. -/
def plain (r : Run) : Inline :=
  .text (Text.copies r.count r.mark)

/-- Whether a run that opens and a run that closes belong together. Where one of them could do
both, their lengths must not add up to a multiple of three, unless both are multiples. Runs of
tildes are of one length. -/
def pairs (opener closer : Run) : Bool :=
  opener.mark == closer.mark && (closer.mark != '~' || opener.length == closer.length) &&
    ((!opener.both && !closer.both) || (opener.length + closer.length) % 3 != 0 ||
      closer.length % 3 == 0)

end Run

/-! ## Pairing -/

/-- A piece of inline text before marks are paired. -/
inductive Piece where
  | done (content : Inline)
  | run (r : Run)
  /-- An opening bracket, of an image or a link; one that is not active cannot start a link any
  more. -/
  | bracket (image active : Bool)

/-- A piece as it stands if nothing pairs with it. -/
def Piece.plain : Piece → Inline
  | .done content => content
  | .run r => r.plain
  | .bracket image _ => .text (if image then ['!', '['] else ['['])

/-- Content inside `n` pairs of marks: two marks at a time from the inside out, and a single one
outside. -/
def emphasise (mark : Char) : (n : Nat) → List Inline → List Inline
  | 0, content => content
  | 1, content => [if mark = '~' then .deleted content else .emphasis content]
  | n + 2, content =>
    emphasise mark n [if mark = '~' then .deleted content else .strong content]

/-- The pieces down to the nearest run that pairs with `closer`, in order, with that run and the
pieces below it. The stack has the newest piece first, and its runs may all open. -/
def opener? (closer : Run) : List Piece → List Inline → Option (List Inline × Run × List Piece)
  | [], _ => none
  | .run r :: below, inside =>
    if r.pairs closer then some (inside, r, below) else opener? closer below (r.plain :: inside)
  | piece :: below, inside => opener? closer below (piece.plain :: inside)

/-- Makes runs of tildes plain text. -/
def withoutTildes (stack : List Piece) : List Piece :=
  stack.map fun piece =>
    match piece with
    | .run r => if r.mark = '~' then .done r.plain else .run r
    | piece => piece

/-- Puts a run on the stack, after it has closed what it can. Tildes that could close and find no
partner leave the tildes before them without one as well. -/
def putRun : (fuel : Nat) → Run → List Piece → List Piece
  | 0, _, stack => stack
  | fuel + 1, r, stack =>
    if r.count = 0 then stack
    else
      match if r.closes then opener? r stack [] else none with
      | none =>
        let stack := if r.closes && r.mark == '~' then withoutTildes stack else stack
        (if r.opens then .run r else .done r.plain) :: stack
      | some (inside, opener, below) =>
        let used := min opener.count r.count
        let below := if opener.count = used then below
          else .run { opener with count := opener.count - used } :: below
        putRun fuel { r with count := r.count - used }
          ((emphasise r.mark used inside).reverse.map .done ++ below)

/-- Pairs the marks of a text. -/
def pairMarks : List Piece → (stack : List Piece) → List Inline
  | [], stack => stack.reverse.map Piece.plain
  | .run r :: pieces, stack => pairMarks pieces (putRun (r.count + 1) r stack)
  | piece :: pieces, stack => pairMarks pieces (piece :: stack)

end TerseMarkup.Markdown
