import TerseMarkup.Scan.Token

/-!
# Expressions over several lines

A line that is a single backslash stands for the line after it. An expression runs to the end of
its line, and on over following lines through open brackets and through backslashes.
-/

namespace TerseMarkup

/-! ## Backslash continuations -/

/-- Whether a text is a lone backslash with blanks after it. -/
def isBreak : Text → Bool
  | [] => false
  | c :: t => c == '\\' && t.all isBlank

/-- As long as `tail` is a lone backslash, puts the next of `ahead` in its place. -/
def followBreaksOver (tail : Text) : List Text → Nat → Bool × Text × Cursor
  | [], n => if isBreak tail then (true, [], ⟨[], n⟩) else (false, tail, ⟨[], n⟩)
  | raw :: ahead, n =>
    if isBreak tail then (true, (followBreaksOver raw.trimStart ahead (n + 1)).2)
    else (false, tail, ⟨raw :: ahead, n⟩)

/-- Follows backslash continuations: whether there were any, and the text to go on with. -/
def followBreaks (tail : Text) (cur : Cursor) : Bool × Text × Cursor :=
  followBreaksOver tail cur.ahead cur.number

/-- Continuations do not add to what is to come. -/
theorem followBreaksOver_le (tail : Text) (ahead : List Text) (n : Nat) :
    (followBreaksOver tail ahead n).2.2.size ≤ Cursor.size ⟨ahead, n⟩ ∧
      (followBreaksOver tail ahead n).2.2.size + (followBreaksOver tail ahead n).2.1.length ≤
        Cursor.size ⟨ahead, n⟩ + tail.length := by
  induction ahead generalizing tail n with
  | nil =>
    unfold followBreaksOver
    split <;> simp
  | cons raw ahead ih =>
    unfold followBreaksOver
    split
    · have h := ih raw.trimStart (n + 1)
      have := Text.length_trimStart_le raw
      rw [Cursor.size_cons raw ahead n (n + 1)]
      constructor
      · exact Nat.le_trans h.1 (Nat.le_add_left ..)
      · have := h.2
        simp only
        omega
    · simp

/-- Following continuations never moves the cursor back. -/
theorem size_followBreaks_le (tail : Text) (cur : Cursor) :
    (followBreaks tail cur).2.2.size ≤ cur.size :=
  (followBreaksOver_le tail cur.ahead cur.number).1

/-- What is left after following continuations is no more than there was. -/
theorem followBreaks_le (tail : Text) (cur : Cursor) :
    (followBreaks tail cur).2.2.size + (followBreaks tail cur).2.1.length ≤
      cur.size + tail.length :=
  (followBreaksOver_le tail cur.ahead cur.number).2

/-! ## Expressions -/

/-- What a continuation reads as. -/
def breakText (found : Bool) : Text :=
  if found then [' '] else []

/-- Reads atoms and continuations to the end of the text. A continuation reads as a space. -/
def expressionAtoms (tail : Text) (cur : Cursor) : Except Diagnostic Text × Cursor :=
  if tail.isEmpty then (.ok [], cur)
  else
    match _hs : followBreaks tail cur with
    | (found, [], cur') => (.ok (breakText found), cur')
    | (found, c :: t, cur') =>
      match _ha : atom none c t cur' with
      | (.error e, cur'') => (.error e, cur'')
      | (.ok (a, rest), cur'') =>
        match expressionAtoms rest cur'' with
        | (.error e, cur₃) => (.error e, cur₃)
        | (.ok more, cur₃) => (.ok (breakText found ++ a ++ more), cur₃)
termination_by cur.size + tail.length
decreasing_by
  have hle := followBreaks_le tail cur
  have hlt := atom_progress _ha
  rw [_hs] at hle
  exact Nat.lt_of_lt_of_le hlt hle

/-- The expression that starts with `t`, trimmed. -/
def expression (t : Text) (cur : Cursor) : Except Diagnostic Text × Cursor :=
  match expressionAtoms (t.trim ++ ['\n']) cur with
  | (.ok read, cur') => (.ok read.trim, cur')
  | (.error e, cur') => (.error e, cur')

/-- Reading an expression never moves the cursor back. -/
theorem size_expressionAtoms_le (tail : Text) (cur : Cursor) :
    (expressionAtoms tail cur).2.size ≤ cur.size := by
  fun_induction expressionAtoms tail cur with
  | case1 => exact Nat.le_refl _
  | case2 tail cur h found cur' hs =>
    have := size_followBreaks_le tail cur
    rw [hs] at this
    exact this
  | case3 tail cur h found c t cur' hs e cur'' ha =>
    have hb := size_followBreaks_le tail cur
    have := size_atom_le none c t cur'
    rw [hs] at hb
    rw [ha] at this
    exact Nat.le_trans this hb
  | case4 tail cur h found c t cur' hs a rest cur'' ha e cur₃ hm ih =>
    have hb := size_followBreaks_le tail cur
    have := size_atom_le none c t cur'
    rw [hs] at hb
    rw [ha] at this
    rw [hm] at ih
    exact Nat.le_trans ih (Nat.le_trans this hb)
  | case5 tail cur h found c t cur' hs a rest cur'' ha more cur₃ hm ih =>
    have hb := size_followBreaks_le tail cur
    have := size_atom_le none c t cur'
    rw [hs] at hb
    rw [ha] at this
    rw [hm] at ih
    exact Nat.le_trans ih (Nat.le_trans this hb)

end TerseMarkup
