import TerseMarkup.Line

/-!
# The line cursor

Lines are handed out one by one and never taken back. A `Cursor` holds the lines still to come and
the number of lines handed out, which is also the number of the line that is being worked on.
`Cursor.size` counts what is left to read; every pull makes it smaller.
-/

namespace TerseMarkup

/-- A position between two lines of a template. -/
structure Cursor where
  /-- The raw lines still to come. -/
  ahead : List Text
  /-- How many lines have been handed out. -/
  number : Nat
  deriving DecidableEq, Repr

namespace Cursor

/-- The start of a template. -/
def ofText (t : Text) : Cursor :=
  ⟨t.lines, 0⟩

/-- Hands out the next raw line. -/
def next? : Cursor → Option (Text × Cursor)
  | ⟨[], _⟩ => none
  | ⟨raw :: rest, n⟩ => some (raw, ⟨rest, n + 1⟩)

/-- The characters still to come, where the end of a line counts as one more. -/
def size (cur : Cursor) : Nat :=
  cur.ahead.foldr (fun raw n => raw.length + 1 + n) 0

@[simp] theorem next?_nil (n : Nat) : next? ⟨[], n⟩ = none := rfl

@[simp] theorem next?_cons (raw : Text) (rest : List Text) (n : Nat) :
    next? ⟨raw :: rest, n⟩ = some (raw, ⟨rest, n + 1⟩) := rfl

@[simp] theorem size_nil (n : Nat) : size ⟨[], n⟩ = 0 := rfl

@[simp] theorem size_cons (raw : Text) (rest : List Text) (n m : Nat) :
    size ⟨raw :: rest, n⟩ = raw.length + 1 + size ⟨rest, m⟩ := rfl

/-- A pull takes exactly one line off what is left. -/
theorem size_of_next? {cur cur' : Cursor} {raw : Text} (h : cur.next? = some (raw, cur')) :
    cur.size = raw.length + 1 + cur'.size := by
  obtain ⟨ahead, n⟩ := cur
  cases ahead with
  | nil => simp at h
  | cons r rest =>
    simp only [next?_cons, Option.some.injEq, Prod.mk.injEq] at h
    obtain ⟨rfl, rfl⟩ := h
    exact size_cons ..

end Cursor

end TerseMarkup
