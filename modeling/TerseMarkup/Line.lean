import TerseMarkup.Text

/-!
# Lines

A raw line of a template is an indentation and a body. Columns are counted in characters: a tab is
one column. A blank line has an empty body.
-/

namespace TerseMarkup

/-- A measured line. -/
structure Line where
  /-- The number of blank characters in front. -/
  indent : Nat
  /-- What follows the indentation, without the line terminator. -/
  body : Text
  deriving DecidableEq, Repr

namespace Line

/-- The width of a line of blanks, not counting the line feeds and carriage returns at its end. -/
def blankWidth (raw : Text) : Nat :=
  (raw.reverse.dropWhile fun c => c == '\n' || c == '\r').length

/-- Measures a raw line. -/
def ofRaw (raw : Text) : Line :=
  let body := Text.trimStart raw
  if body.isEmpty then ⟨blankWidth raw, []⟩
  else ⟨raw.length - body.length, Text.dropTerminator body⟩

/-- A body is no longer than the raw line. -/
theorem length_body_ofRaw_le (raw : Text) : (ofRaw raw).body.length ≤ raw.length := by
  unfold ofRaw
  simp only
  split
  · simp
  · exact Nat.le_trans (Text.length_dropTerminator_le _) (Text.length_trimStart_le raw)

end Line

end TerseMarkup
