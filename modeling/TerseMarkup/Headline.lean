import TerseMarkup.Line
import TerseMarkup.Scan
import TerseMarkup.Setting

/-!
# Headlines

A headline announces what it and the lines below it are. Reading one gives an `Opening`: the text
to write at once, and where the content comes from, which may be deeper lines, the rest of the
same line, or nothing more.
-/

namespace TerseMarkup

/-- What a headline leads to. -/
inductive Opening where
  /-- All is written; the line that was read but not used is handed back. -/
  | leaf (written : Text) (next : Line)
  /-- The deeper lines are the content, and `close` is written behind them. -/
  | block (written close : Text)
  /-- The rest of the line is a headline of its own, and `close` is written behind its content. -/
  | inline (written close rest : Text)
  /-- A statement, whose content is the rest of the line (if any), the deeper lines, and the
  clauses that go on the statement. -/
  | statement (written keyword rest : Text)
  deriving DecidableEq, Repr

/-- What a line announces. -/
inductive Headline where
  /-- An element whose deeper lines are copied as they are. -/
  | verbatimElement
  /-- A document type, by name. -/
  | doctype (name : Text)
  /-- A script element that holds a client-side template. -/
  | scriptTemplate
  /-- An element with markup inside. -/
  | element
  /-- Text, with its mark in front. -/
  | literal (text : Text)
  /-- A line of HTML. -/
  | html
  /-- A value. -/
  | value (unescaped spaced : Bool) (expr : Text)
  /-- A comment, which is dropped with the lines below it. -/
  | comment
  /-- A control statement. -/
  | statement (keyword expr : Text)
  /-- A control statement whose condition is negated. -/
  | negated (keyword expr : Text)
  /-- Code behind a fence of dashes. -/
  | fencedCode (moduleLevel : Bool) (expr : Option Text)
  /-- Code behind a keyword. -/
  | code (moduleLevel : Bool) (expr : Option Text)
  /-- A named piece of template. -/
  | definition (line : Text)
  /-- A tag of the template engine that has no content. -/
  | directive (line : Text)
  /-- A tag of the template engine whose content is copied as it is. -/
  | shielded (line : Text)
  /-- A call of a named piece of template, with content. -/
  | call (line : Text)
  /-- A jump out of the code. -/
  | jump (keyword : Text)
  /-- A block in another markup language. -/
  | markup (language : Text)
  /-- A construct given by its reading, which sees the indentation and the line. -/
  | custom (read : Setting → Nat → Text → Scan Opening)

end TerseMarkup
