import TerseMarkup.Outline
import TerseMarkup.Profile

/-!
# Compilation

`Profile.compile` turns a template into a template of the target dialect. Markup embedded in text
is compiled by the same profile one level deeper, up to a limit.
-/

namespace TerseMarkup

/-- How to compile. -/
structure Options where
  /-- Whether outer blanks of the result are dropped. -/
  strip : Bool := true
  /-- How deep embedded markup may nest. -/
  depth : Nat := 64
  deriving DecidableEq, Repr

namespace Profile

/-- Compiles a text, with a given compiler for the markup embedded in it. -/
def compileWith (p : Profile) (embedded : Text → Except Diagnostic Text) (text : Text) :
    Except Diagnostic Text :=
  ((Outline.ofDocument text).run p.recognise (p.setting embedded)).1.map Passage.written

/-- Compiles embedded markup when `levels` of the allowed `limit` are left. -/
def compileEmbedded (p : Profile) (limit : Nat) : (levels : Nat) → Text → Except Diagnostic Text
  | 0, _ => .error (.tooDeep limit)
  | levels + 1, text => p.compileWith (p.compileEmbedded limit levels) text

/-- Compiles a template. -/
def compile (p : Profile) (options : Options) (source : Text) : Except Diagnostic Text :=
  (p.compileWith (p.compileEmbedded options.depth options.depth) source).map fun out =>
    if options.strip then out.trim else out

end Profile

end TerseMarkup
