import TerseMarkup.Headline.Opening
import TerseMarkup.Rule

/-!
# Clauses

Some statements go on at their own indentation: a conditional with further conditions and an
alternative, a guarded block with handlers. `Clause.next?` recognises the line of a clause that
may still follow; `Clause.read` reads it.
-/

namespace TerseMarkup

/-- A line that goes on a statement. -/
inductive Clause where
  | elif
  | otherwise
  | except
  | lastly
  deriving DecidableEq, Repr

namespace Clause

/-- The word that starts a clause. -/
def word : Clause → String
  | elif => "elif"
  | otherwise => "else"
  | except => "except"
  | lastly => "finally"

/-- Whether a statement has had its last clause; `taken` are its clauses, the newest first. -/
def ended (keyword : Text) : List Clause → Bool
  | [] => false
  | otherwise :: _ => keyword == "if".toList
  | lastly :: _ => true
  | _ => false

/-- The clauses that may go on a statement. -/
def admitted (keyword : Text) : List Clause :=
  if keyword = "if".toList then [elif, otherwise]
  else if keyword = "try".toList then [except, otherwise, lastly]
  else []

/-- The clause that a line starts, if it may still follow, and the rest of the line. -/
def next? (keyword : Text) (taken : List Clause) (line : Text) : Option (Clause × Text) :=
  if ended keyword taken then none
  else (admitted keyword).findSome? fun clause =>
    (Rule.dashWord? [clause.word] line).map fun (_, _, rest) => (clause, rest.firstLine)

/-- Reads a clause: the line to write, and the rest of the line behind the colon. Only the clauses
with a condition keep what stands in front of the colon. -/
def read (d : Delimiters) (clause : Clause) (t : Text) : Scan (Text × Text) := do
  let word := clause.word.toList
  match clause with
  | elif | except =>
    let (expr, rest) ← splitStatement d t
    return (statementLine d (if expr.isEmpty then word else word ++ [' '] ++ expr), rest)
  | otherwise | lastly =>
    let rest ← restAfterColon d t
    return (statementLine d word, rest)

end Clause

end TerseMarkup
