import TerseMarkup.Markdown.Punctuation

/-!
# Rows and columns

The lines of a document, and how the blanks at their start are counted. A tab reaches to the next
column that is a multiple of four, so that a part of it may be used by one container and the rest
by the next.
-/

namespace TerseMarkup.Markdown

/-- A line of a document. -/
structure Row where
  text : Text
  /-- The line end behind it, empty at the end of the document. -/
  ending : Text
  deriving DecidableEq, Repr

/-- The text behind a line end: a line feed, a carriage return or both. -/
def pastEnding? : Text → Option Text
  | '\r' :: '\n' :: t => some t
  | c :: t => if c = '\n' || c = '\r' then some t else none
  | [] => none

/-- The lines of a document. -/
def rows : Text → List Row
  | [] => []
  | '\r' :: '\n' :: t => ⟨[], ['\r', '\n']⟩ :: rows t
  | c :: t =>
    if c = '\n' || c = '\r' then ⟨[], [c]⟩ :: rows t
    else match rows t with
      | [] => [⟨[c], []⟩]
      | row :: rest => ⟨c :: row.text, row.ending⟩ :: rest

/-- The text of lines as it was written, without the line end of the last one. -/
def rowsText : List Row → Text
  | [] => []
  | [row] => row.text
  | row :: rest => row.text ++ row.ending ++ rowsText rest

/-- Whether a character is a space or a tab. -/
def isGap (c : Char) : Bool :=
  c == ' ' || c == '\t'

/-- What is left of a line while its start is read. -/
structure Tail where
  /-- The columns of a tab in front of the text that are not used yet. -/
  pending : Nat := 0
  /-- The column at which the text starts. -/
  column : Nat := 0
  text : Text
  deriving DecidableEq, Repr

/-- Uses up to `n` columns of spaces and tabs at the start of a text. Gives the number of columns
that were not there. -/
def skipColumns (n pending column : Nat) : Text → Nat × Tail
  | [] => (n, ⟨pending, column, []⟩)
  | c :: t =>
    if n = 0 then (0, ⟨pending, column, c :: t⟩)
    else if c = ' ' then skipColumns (n - 1) pending (column + 1) t
    else if c = '\t' then
      let width := 4 - column % 4
      skipColumns (n - width) (width - n) (column + width) t
    else (n, ⟨pending, column, c :: t⟩)

namespace Tail

/-- Uses up to `n` columns of blanks. Gives the number of columns that were not there. -/
def skip (n : Nat) (t : Tail) : Nat × Tail :=
  let used := min t.pending n
  skipColumns (n - used) (t.pending - used) t.column t.text

/-- The columns of blanks in front of a line; four of them count as any number. -/
def indent (t : Tail) : Nat :=
  4 - (t.skip 4).1

/-- The text behind the indentation. -/
def body (t : Tail) : Text :=
  (t.skip 4).2.text

/-- The text with the columns of a tab that are left. -/
def spaced (t : Tail) : Text :=
  Text.copies t.pending ' ' ++ t.text

/-- A line from its start. -/
def ofRow (row : Row) : Tail :=
  { text := row.text }

end Tail

end TerseMarkup.Markdown
