import TerseMarkup.Cursor
import TerseMarkup.Diagnostic

/-!
# Scans

A scan reads from a line cursor. It ends with a value or with a diagnostic, and in both cases with
the cursor where it stopped: what a failed scan has pulled stays pulled.
-/

namespace TerseMarkup

/-- A reading step over a line cursor. -/
def Scan (α : Type) : Type :=
  Cursor → Except Diagnostic α × Cursor

namespace Scan

variable {α β : Type}

/-- Goes on with the value of a scan; a diagnostic ends the reading. -/
def andThen (x : Scan α) (f : α → Scan β) : Scan β := fun cur =>
  match x cur with
  | (.ok a, cur') => f a cur'
  | (.error e, cur') => (.error e, cur')

instance : Monad Scan where
  pure a := fun cur => (.ok a, cur)
  bind := andThen

/-- Ends the reading with a diagnostic. -/
def fail (e : Diagnostic) : Scan α := fun cur =>
  (.error e, cur)

/-- The number of the line that is being worked on. -/
def lineNumber : Scan Nat := fun cur =>
  (.ok cur.number, cur)

/-- A result that needs no reading. -/
def ofExcept (r : Except Diagnostic α) : Scan α := fun cur =>
  (r, cur)

theorem pure_apply (a : α) (cur : Cursor) : (pure a : Scan α) cur = (.ok a, cur) := rfl

theorem bind_apply (x : Scan α) (f : α → Scan β) (cur : Cursor) :
    (x >>= f) cur =
      match x cur with
      | (.ok a, cur') => f a cur'
      | (.error e, cur') => (.error e, cur') := rfl

end Scan

end TerseMarkup
