import TerseMarkup.Scan
import TerseMarkup.Setting
import TerseMarkup.Span

/-!
# Blocks of raw lines

Below some headlines the deeper lines are not headlines themselves but raw text: literals, code,
style sheets, comments. Such a block runs up to the first line that is neither blank nor deeper
than its headline. That line ends the block and is handed back.

`literalBlock` aligns the lines of a block on the smallest indentation seen so far.
-/

namespace TerseMarkup

/-- The line handed back when the template has ended. -/
def Line.none : Line :=
  ⟨0, []⟩

/-- The raw lines of a block below a headline at `level`, the line that ends it, and the cursor
after that line. -/
def blockOver (level : Nat) : List Text → Nat → List Text × Line × Cursor
  | [], n => ([], .none, ⟨[], n⟩)
  | raw :: ahead, n =>
    let line := Line.ofRaw raw
    if line.body ≠ [] ∧ line.indent ≤ level then ([], line, ⟨ahead, n + 1⟩)
    else
      let (block, stop, cur) := blockOver level ahead (n + 1)
      (raw :: block, stop, cur)

/-- Pulls a block of raw lines. -/
def rawBlock (level : Nat) : Scan (List Text × Line) := fun cur =>
  let (block, stop, cur') := blockOver level cur.ahead cur.number
  (.ok (block, stop), cur')

/-- The lines of a block, each cut at the smallest indentation so far and without trailing blanks.
Blank lines stay as empty lines. -/
def alignLines : Option Nat → List Text → Text
  | _, [] => []
  | margin, raw :: rest =>
    let line := Line.ofRaw raw
    if line.body.isEmpty then '\n' :: alignLines margin rest
    else
      let margin := (margin.map (min line.indent)).getD line.indent
      Text.trimEnd (raw.drop margin) ++ '\n' :: alignLines (some margin) rest

/-- A literal block with the mark `|` or `,` in front of its headline: the text after the mark and
the aligned lines of the block, without trailing blanks. The mark `,` puts a space behind the
text. With `embedded`, the markup inside the text is rendered. -/
def literalBlock (s : Setting) (level : Nat) (headline : Text) (embedded : Bool) :
    Scan (Text × Line) := do
  let n ← Scan.lineNumber
  let (block, stop) ← rawBlock level
  let first := Text.trim (headline.drop 1)
  let aligned := alignLines .none block
  let text := Text.trimEnd (if first.isEmpty then aligned else first ++ '\n' :: aligned)
  let text := if headline.head? = some ',' then text ++ [' '] else text
  if embedded then
    let rendered ← Scan.ofExcept
      (renderSpans s.embedded (if first.isEmpty then n + 1 else n) text)
    return (rendered, stop)
  else return (text, stop)

/-- A literal block with nothing on its headline, copied as it is. -/
def verbatimBlock (s : Setting) (level : Nat) : Scan (Text × Line) :=
  literalBlock s level ['|'] false

end TerseMarkup
