import TerseMarkup.Diagnostic
import TerseMarkup.Json

/-!
# Reporting diagnostics

A diagnostic is shown with the file, its message, the line of the template it points to and a row
of carets under it, and a hint. It can also be written as a JSON object.
-/

namespace TerseMarkup

/-- The marks that colour a report. -/
structure Palette where
  red : Text
  dim : Text
  cyan : Text
  reset : Text
  deriving DecidableEq, Repr

namespace Palette

/-- No colours. -/
def plain : Palette :=
  ⟨[], [], [], []⟩

/-- The colours of a terminal. -/
def terminal : Palette :=
  ⟨"\x1b[1;31m".toList, "\x1b[2m".toList, "\x1b[1;38;5;73m".toList, "\x1b[0m".toList⟩

end Palette

namespace Diagnostic

/-- A text at the right of a field of the given width. -/
def padLeft (width : Nat) (t : Text) : Text :=
  Text.copies (width - t.length) ' ' ++ t

/-- The line of a source with the given number, without its terminator. -/
def sourceLine? (source : Text) (n : Nat) : Option Text :=
  (source.lines[n - 1]?).map Text.dropTerminator

/-- The width of the column of line numbers. -/
def gutterWidth (n : Nat) : Nat :=
  max 2 (Text.ofNat n).length

/-- The column of line numbers with `t` in it. -/
def gutter (p : Palette) (n : Nat) (t : Text) : Text :=
  p.dim ++ padLeft (gutterWidth n) t ++ " |".toList ++ p.reset

/-- Carets under the text of a line. They stand as far to the right as the line's leading blanks
have bytes, and there is one for each character of the trimmed line. -/
def carets (p : Palette) (line : Text) : Text :=
  Text.copies (line.byteSize - line.trimStart.byteSize) ' ' ++ p.red ++
    Text.copies (max 1 line.trim.length) '^' ++ p.reset

/-- The line of the source that a diagnostic points to, with carets under it. -/
def excerpt (p : Palette) (source : Text) (n : Nat) : Text :=
  match sourceLine? source n with
  | none => []
  | some line =>
    gutter p n [] ++ ['\n'] ++
      (gutter p n (Text.ofNat n) ++ [' '] ++ line ++ ['\n']) ++
      (gutter p n [] ++ [' '] ++ carets p line ++ ['\n'])

/-- The report of a diagnostic in a file. -/
def report (p : Palette) (source file : Text) (e : Diagnostic) : Text :=
  let place := match e.line? with
    | some n => file ++ [':'] ++ Text.ofNat n
    | none => file
  let shown := (e.line?.map (excerpt p source)).getD []
  let advice := match e.hint? with
    | some hint => "\n ".toList ++ p.cyan ++ "help:".toList ++ p.reset ++ [' '] ++ hint ++ ['\n']
    | none => []
  ['\n'] ++
    ([' '] ++ p.dim ++ "file:".toList ++ p.reset ++ [' '] ++ place ++ ['\n']) ++
    (p.red ++ "error:".toList ++ p.reset ++ [' '] ++ e.message ++ ['\n']) ++
    shown ++ advice ++ ['\n']

/-- The texts and numbers of a diagnostic by name. -/
def fields : Diagnostic → List (String × Json)
  | malformed message locus n =>
    [("message", .string message), ("locus", .string locus), ("lineno", .ofNat n)]
  | unrecognised n body => [("lineno", .ofNat n), ("line", .string body)]
  | unterminated n read => [("lineno", .ofNat n), ("expr", .string read)]
  | tooDeep limit => [("limit", .ofNat limit)]
  | noTranspiler language n => [("lang", .string language), ("lineno", .ofNat n)]
  | unknownProfile name => [("name", .string name)]

/-- A diagnostic as a JSON object, its kind first. -/
def toJson (e : Diagnostic) : Json :=
  .object ((("kind", .string e.kind.toList) :: e.fields).map fun (key, value) =>
    (key.toList, value))

end Diagnostic

end TerseMarkup
