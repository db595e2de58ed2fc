import TerseMarkup.Delimiters
import TerseMarkup.Diagnostic

/-!
# The setting of a compilation

What the reading of a headline may consult besides the lines: the dialect's delimiters, the
transpilers for blocks in other markup languages, and the compiler for markup embedded in text.
-/

namespace TerseMarkup

/-- Turns the body of a block in another markup language into output. -/
abbrev Transpiler := Text → Text

/-- What the reading of a headline may consult. -/
structure Setting where
  /-- The strings of the target dialect. -/
  delimiters : Delimiters
  /-- The transpiler for a language, if there is one. -/
  transpiler? : Text → Option Transpiler
  /-- Compiles markup that stands inside text, one level deeper. -/
  embedded : Text → Except Diagnostic Text

end TerseMarkup
