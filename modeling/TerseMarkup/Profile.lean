import TerseMarkup.Rule.Standard

/-!
# Profiles

A profile is a target dialect: its delimiters, its table of rules, and the transpilers for blocks
in other markup languages. Rules are tried in order, and rules that are added go first. Every
profile has a transpiler for Markdown; which one is up to the program.
-/

namespace TerseMarkup

/-- A target dialect. -/
structure Profile where
  /-- The name of the dialect. -/
  name : Text
  /-- The strings of the dialect. -/
  delimiters : Delimiters
  /-- The table of rules; the first one that recognises a line decides. -/
  rules : List Rule
  /-- The registered transpilers by language; the first entry for a language counts. -/
  transpilers : List (Text × Transpiler)
  /-- What turns Markdown into HTML, unless another transpiler is registered for it. -/
  markdown : Transpiler

namespace Profile

/-- The profile of Mako templates. -/
def mako (markdown : Transpiler) : Profile where
  name := "mako".toList
  delimiters := .mako
  rules := Rule.standard
  transpilers := []
  markdown := markdown

/-- The profile without the rules of a certain name. -/
def dropRule (p : Profile) (name : String) : Profile :=
  { p with rules := p.rules.filter (·.name ≠ name) }

/-- The profile of Django templates, which has no rules for Mako's own tags. -/
def django (markdown : Transpiler) : Profile :=
  let base := { mako markdown with name := "django".toList, delimiters := .django }
  ((base.dropRule "mako_one_liners").dropRule "mako_text").dropRule "call"

/-- The profile with a rule in front of all others. -/
def addRule (p : Profile) (rule : Rule) : Profile :=
  { p with rules := rule :: p.rules }

/-- The profile with a transpiler for a language, in place of any that was there. -/
def register (p : Profile) (language : Text) (transpile : Transpiler) : Profile :=
  { p with transpilers := (language, transpile) :: p.transpilers }

/-- The transpiler that a profile has for a language without any being registered. -/
def builtinTranspiler? (p : Profile) (language : Text) : Option Transpiler :=
  if language = "md".toList ∨ language = "markdown".toList then some p.markdown else none

/-- The transpiler for a language; registered ones come before the built-in one. -/
def transpiler? (p : Profile) (language : Text) : Option Transpiler :=
  (p.transpilers.lookup language).or (p.builtinTranspiler? language)

/-- The rule for a line, and what it sees in it. -/
def lookUp (p : Profile) (line : Text) : Option (Rule × Recognition) :=
  p.rules.findSome? fun rule => (rule.recognise line).map fun found => (rule, found)

/-- What the profile sees in a line. -/
def recognise (p : Profile) (line : Text) : Option Recognition :=
  (p.lookUp line).map Prod.snd

/-- The profile with the given name, with extra rules in front of its own. -/
def named? (markdown : Transpiler) (name : Text) (extra : List Rule) :
    Except Diagnostic Profile :=
  let withExtra (p : Profile) : Profile := { p with rules := extra ++ p.rules }
  if name = "mako".toList then .ok (withExtra (mako markdown))
  else if name = "django".toList then .ok (withExtra (django markdown))
  else .error (.unknownProfile name)

/-- The setting in which the profile reads headlines. -/
def setting (p : Profile) (embedded : Text → Except Diagnostic Text) : Setting where
  delimiters := p.delimiters
  transpiler? := p.transpiler?
  embedded := embedded

end Profile

end TerseMarkup
