import TerseMarkup.Text

/-!
# Delimiters

The strings that a target dialect wraps around values, statements and code. Two dialects are
built in; `Delimiters.fields` lists the ten strings with the names they have outside.
-/

namespace TerseMarkup

/-- The strings that set a dialect's values, statements and code apart from its text. -/
structure Delimiters where
  /-- Opens a value. -/
  variableStart : Text
  /-- Closes a value. -/
  variableEnd : Text
  /-- Opens a statement line. -/
  statementStart : Text
  /-- Closes a statement line. -/
  statementStartEnd : Text
  /-- Opens the line that ends a statement. -/
  statementEndStart : Text
  /-- Closes the line that ends a statement. -/
  statementEndEnd : Text
  /-- Opens a piece of code. -/
  codeStart : Text
  /-- Closes a piece of code. -/
  codeEnd : Text
  /-- The filter that switches escaping off. -/
  noEscape : Text
  /-- Stands between the no-escape filter and filters that are already there. -/
  filterSeparator : Text
  deriving DecidableEq, Repr

namespace Delimiters

/-- The delimiters of Mako templates. -/
def mako : Delimiters where
  variableStart := "$\x7b".toList
  variableEnd := "\x7d".toList
  statementStart := "%".toList
  statementStartEnd := ":".toList
  statementEndStart := "%".toList
  statementEndEnd := []
  codeStart := "<%".toList
  codeEnd := "%>".toList
  noEscape := "n".toList
  filterSeparator := ",".toList

/-- The delimiters of Django templates. -/
def django : Delimiters where
  variableStart := "\x7b\x7b".toList
  variableEnd := "\x7d\x7d".toList
  statementStart := "\x7b% ".toList
  statementStartEnd := " %\x7d".toList
  statementEndStart := "\x7b% ".toList
  statementEndEnd := " %\x7d".toList
  codeStart := "\x7b%".toList
  codeEnd := "%\x7d".toList
  noEscape := "safe".toList
  filterSeparator := "|".toList

/-- The ten strings with their outside names. -/
def fields (d : Delimiters) : List (String × Text) :=
  [("variable_start", d.variableStart), ("variable_end", d.variableEnd),
    ("statement_start", d.statementStart), ("statement_start_end", d.statementStartEnd),
    ("statement_end_start", d.statementEndStart), ("statement_end_end", d.statementEndEnd),
    ("code_start", d.codeStart), ("code_end", d.codeEnd), ("no_escape", d.noEscape),
    ("filter_separator", d.filterSeparator)]

/-- The delimiters in which a string is replaced where `given` has one under its outside name. -/
def override (d : Delimiters) (given : String → Option Text) : Delimiters where
  variableStart := (given "variable_start").getD d.variableStart
  variableEnd := (given "variable_end").getD d.variableEnd
  statementStart := (given "statement_start").getD d.statementStart
  statementStartEnd := (given "statement_start_end").getD d.statementStartEnd
  statementEndStart := (given "statement_end_start").getD d.statementEndStart
  statementEndEnd := (given "statement_end_end").getD d.statementEndEnd
  codeStart := (given "code_start").getD d.codeStart
  codeEnd := (given "code_end").getD d.codeEnd
  noEscape := (given "no_escape").getD d.noEscape
  filterSeparator := (given "filter_separator").getD d.filterSeparator

/-- A value between the delimiters. -/
def value (d : Delimiters) (expr : Text) : Text :=
  d.variableStart ++ expr ++ d.variableEnd

/-- A statement line. -/
def statement (d : Delimiters) (content : Text) : Text :=
  d.statementStart ++ content ++ d.statementStartEnd

/-- The line that ends a statement. -/
def statementEnd (d : Delimiters) (keyword : Text) : Text :=
  d.statementEndStart ++ "end".toList ++ keyword ++ d.statementEndEnd

end Delimiters

end TerseMarkup
