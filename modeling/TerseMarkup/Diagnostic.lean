import TerseMarkup.Text

/-!
# Diagnostics

What can be wrong with a template. A diagnostic is a cause with the texts it is about; its wording
is in `Diagnostic.message` and its advice in `Diagnostic.hint?`, and nowhere else.
-/

namespace TerseMarkup

/-- Why a template cannot be compiled. -/
inductive Diagnostic where
  /-- An ill-formed construct. -/
  | malformed (message locus : Text) (line : Nat)
  /-- A line that no rule of the profile recognises. -/
  | unrecognised (line : Nat) (body : Text)
  /-- The template ends inside a bracket group. -/
  | unterminated (line : Nat) (read : Text)
  /-- Embedded markup inside embedded markup, past the limit. -/
  | tooDeep (limit : Nat)
  /-- A markup block in a language that nothing is registered for. -/
  | noTranspiler (language : Text) (line : Nat)
  /-- A profile name that means nothing. -/
  | unknownProfile (name : Text)
  deriving DecidableEq, Repr

namespace Diagnostic

/-- The same diagnostic at another line, if it is about a line at all. -/
def atLine (n : Nat) : Diagnostic → Diagnostic
  | malformed message locus _ => malformed message locus n
  | unrecognised _ body => unrecognised n body
  | unterminated _ read => unterminated n read
  | noTranspiler language _ => noTranspiler language n
  | tooDeep limit => tooDeep limit
  | unknownProfile name => unknownProfile name

/-- The line a diagnostic points to; lines are numbered from one. -/
def line? : Diagnostic → Option Nat
  | malformed _ _ n | unrecognised n _ | unterminated n _ | noTranspiler _ n =>
    if n = 0 then none else some n
  | tooDeep _ | unknownProfile _ => none

/-- The wording of a diagnostic. -/
def message : Diagnostic → Text
  | malformed message locus n =>
    message ++ " | at line ".toList ++ Text.ofNat n ++ " \"".toList ++ locus ++ "\"".toList
  | unrecognised n body =>
    "Invalid syntax at line ".toList ++ Text.ofNat n ++ ": ".toList ++ body
  | unterminated n read =>
    "Unterminated expression at line ".toList ++ Text.ofNat n ++ ": ".toList ++ read
  | tooDeep limit =>
    "Embedded markup is nested deeper than ".toList ++ Text.ofNat limit ++ " levels".toList
  | noTranspiler language n =>
    "No transpiler registered for '-".toList ++ language ++ "' at line ".toList ++ Text.ofNat n
  | unknownProfile name =>
    "Unknown syntax profile '".toList ++ name ++ "'".toList

/-- Advice on how to mend the template. -/
def hint? : Diagnostic → Option Text
  | malformed message _ _ =>
    if Text.hasPart "two \"id\"".toList message then
      some "Use either the #id shortcut or an id=\"...\" attribute, not both".toList
    else if Text.hasPart "Embedding quote".toList message then
      some "Close the embedded markup with ` or `_, or write `` for a literal backtick".toList
    else none
  | unrecognised _ _ =>
    some "Tag names are lowercase; start literal text with | or an uppercase letter".toList
  | unterminated _ _ => some "Check for a missing ), ] or \x7d".toList
  | tooDeep _ | noTranspiler _ _ | unknownProfile _ => none

/-- The word that names the kind of a diagnostic in structured output. -/
def kind : Diagnostic → String
  | malformed .. => "syntax"
  | unrecognised .. => "no_parser"
  | unterminated .. => "unterminated_brace"
  | tooDeep .. => "recursion_limit"
  | noTranspiler .. => "missing_transpiler"
  | unknownProfile .. => "unknown_profile"

end Diagnostic

end TerseMarkup
