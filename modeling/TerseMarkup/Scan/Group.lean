import TerseMarkup.Delimiters
import TerseMarkup.Scan
import TerseMarkup.Text.Quoted

/-!
# Bracket groups

A group runs from an opening sequence to the mark that brings the nesting depth back to zero. It
may span lines: the next line is pulled, without its indentation, whenever the current one ends
inside the group. String literals are copied whole, so brackets inside them do not count.
Running out of lines inside a group is a fault.

`Nesting.group?_progress` says that a group leaves less to read than there was.
-/

namespace TerseMarkup

/-- Which sequences open and close a group. -/
inductive Nesting where
  /-- Round, square and curly brackets, which nest in each other. -/
  | brackets
  /-- A value between its delimiters. If the two hold curly brackets, single curly brackets are
  counted; otherwise whole delimiters are. -/
  | placeholder (start stop : Text)
  deriving DecidableEq, Repr

/-- What a mark does to the depth. -/
inductive Turn where
  | deeper
  | back
  deriving DecidableEq, Repr

namespace Nesting

/-- Whether a placeholder counts single curly brackets. -/
def countsCurly (start stop : Text) : Bool :=
  start.contains '\x7b' && stop.contains '\x7d'

/-- The opening sequence at the front of a text, what follows it, and the depth it leads to. -/
def opening? : Nesting → Text → Option (Text × Text × Nat)
  | brackets, [] => none
  | brackets, c :: t => if c = '(' ∨ c = '[' ∨ c = '\x7b' then some ([c], t, 1) else none
  | placeholder start stop, t =>
    if start.isEmpty then none
    else (Text.after? start t).map fun rest =>
      (start, rest, if countsCurly start stop then start.count '\x7b' else 1)

/-- A non-empty sequence at the front of a text, and what follows it. -/
def sequence? (mark t : Text) : Option (Text × Text) :=
  if mark.isEmpty then none else (Text.after? mark t).map fun rest => (mark, rest)

/-- The mark at the front of a text, and what follows it. Closing sequences go first. -/
def mark? : Nesting → Text → Option (Turn × Text × Text)
  | brackets, [] => none
  | brackets, c :: t =>
    if c = '(' ∨ c = '[' ∨ c = '\x7b' then some (.deeper, [c], t)
    else if c = ')' ∨ c = ']' ∨ c = '\x7d' then some (.back, [c], t)
    else none
  | placeholder start stop, t =>
    if countsCurly start stop then
      match t with
      | [] => none
      | c :: t =>
        if c = '\x7b' then some (.deeper, [c], t)
        else if c = '\x7d' then some (.back, [c], t)
        else none
    else
      match sequence? stop t with
      | some (mark, rest) => some (.back, mark, rest)
      | none => (sequence? start t).map fun (mark, rest) => (.deeper, mark, rest)

/-- A mark takes something off the text. -/
theorem sequence?_progress {mark t m rest : Text} (h : sequence? mark t = some (m, rest)) :
    rest.length < t.length := by
  unfold sequence? at h
  split at h
  · simp at h
  · rename_i hne
    obtain ⟨r, hr, hp⟩ := Option.map_eq_some_iff.1 h
    cases hp
    rw [Text.after?_eq_some_iff.1 hr]
    have : 0 < mark.length := List.length_pos_iff.2 (by simpa using hne)
    simp
    omega

/-- What follows a mark is shorter than the text. -/
theorem mark?_progress {n : Nesting} {t m rest : Text} {turn : Turn}
    (h : n.mark? t = some (turn, m, rest)) : rest.length < t.length := by
  unfold mark? at h
  split at h
  · simp at h
  · split at h
    · cases h
      simp
    · split at h
      · cases h
        simp
      · simp at h
  · split at h
    · split at h
      · simp at h
      · split at h
        · cases h
          simp
        · split at h
          · cases h
            simp
          · simp at h
    · split at h
      · rename_i hs
        cases h
        exact sequence?_progress hs
      · obtain ⟨⟨m', r⟩, hr, hp⟩ := Option.map_eq_some_iff.1 h
        cases hp
        exact sequence?_progress hr

/-- Whether a text has come to the end of its line. -/
def atLineEnd : Text → Bool
  | [] => true
  | '\n' :: _ => true
  | '\r' :: '\n' :: _ => true
  | _ => false

/-- Reads on inside a group of the given depth until it is closed. `read` is what has been read of
the group so far and `tail` the rest of the current line. -/
def close (n : Nesting) (depth : Nat) (read tail : Text) (cur : Cursor) :
    Except Diagnostic (Text × Text) × Cursor :=
  match _h : n.mark? tail with
  | some (.deeper, mark, rest) => n.close (depth + 1) (read ++ mark) rest cur
  | some (.back, mark, rest) =>
    if depth ≤ 1 then (.ok (read ++ mark, rest), cur)
    else n.close (depth - 1) (read ++ mark) rest cur
  | none =>
    if atLineEnd tail then
      match _hn : cur.next? with
      | none => (.error (.unterminated cur.number read), cur)
      | some (raw, cur') => n.close depth read raw.trimStart cur'
    else
      match _hq : tail.quoted? with
      | some (literal, rest) => n.close depth (read ++ literal) rest cur
      | none =>
        match tail with
        | [] => (.error (.unterminated cur.number read), cur)
        | c :: rest => n.close depth (read ++ [c]) rest cur
termination_by cur.size + tail.length
decreasing_by
  · have := mark?_progress _h
    omega
  · have := mark?_progress _h
    omega
  · have := Cursor.size_of_next? _hn
    have := Text.length_trimStart_le raw
    omega
  · have := Text.length_lt_of_quoted? _hq
    omega
  · simp

/-- The group at the front of a text, its outer marks included, and what follows it on the line
where it ends. -/
def group? (n : Nesting) (t : Text) (cur : Cursor) :
    Except Diagnostic (Option (Text × Text)) × Cursor :=
  match n.opening? t with
  | none => (.ok none, cur)
  | some (start, rest, depth) =>
    match n.close depth start rest cur with
    | (.ok found, cur') => (.ok (some found), cur')
    | (.error e, cur') => (.error e, cur')

/-! ## Progress -/

/-- Reading a group never moves the cursor back. -/
theorem size_close_le (n : Nesting) (depth : Nat) (read tail : Text) (cur : Cursor) :
    (n.close depth read tail cur).2.size ≤ cur.size := by
  fun_induction n.close depth read tail cur with
  | case1 => assumption
  | case2 => exact Nat.le_refl _
  | case3 => assumption
  | case4 => exact Nat.le_refl _
  | case5 depth read tail cur h hend raw cur' hn ih =>
    have := Cursor.size_of_next? hn
    omega
  | case6 => assumption
  | case7 => exact Nat.le_refl _
  | case8 => assumption

/-- A closed group leaves less to read. -/
theorem close_progress {n : Nesting} {depth : Nat} {read tail g rest : Text} {cur cur' : Cursor}
    (h : n.close depth read tail cur = (.ok (g, rest), cur')) :
    cur'.size + rest.length < cur.size + tail.length := by
  fun_induction n.close depth read tail cur with
  | case1 depth read tail cur mark r hm ih =>
    have := ih h
    have := mark?_progress hm
    omega
  | case2 depth read tail cur mark r hm hd =>
    cases h
    have := mark?_progress hm
    omega
  | case3 depth read tail cur mark r hm hd ih =>
    have := ih h
    have := mark?_progress hm
    omega
  | case4 => simp at h
  | case5 depth read tail cur hm hend raw cur'' hn ih =>
    have := ih h
    have := Cursor.size_of_next? hn
    have := Text.length_trimStart_le raw
    omega
  | case6 depth read tail cur hm hend literal r hq ih =>
    have := ih h
    have := Text.length_lt_of_quoted? hq
    omega
  | case7 => simp at h
  | case8 depth read cur c r hm hend hq ih =>
    have := ih h
    simp
    omega

/-- The opening of a group takes something off the text. -/
theorem opening?_progress {n : Nesting} {t start rest : Text} {depth : Nat}
    (h : n.opening? t = some (start, rest, depth)) : rest.length < t.length := by
  cases n with
  | brackets =>
    cases t with
    | nil => simp [opening?] at h
    | cons c t =>
      simp only [opening?] at h
      split at h
      · cases h
        simp
      · simp at h
  | placeholder lead stop =>
    simp only [opening?] at h
    split at h
    · simp at h
    · rename_i hne
      obtain ⟨r, hr, hp⟩ := Option.map_eq_some_iff.1 h
      cases hp
      rw [Text.after?_eq_some_iff.1 hr]
      have : 0 < start.length := List.length_pos_iff.2 (by simpa using hne)
      simp
      omega

/-- Looking for a group never moves the cursor back. -/
theorem size_group?_le (n : Nesting) (t : Text) (cur : Cursor) :
    (n.group? t cur).2.size ≤ cur.size := by
  unfold group?
  split
  · exact Nat.le_refl _
  · rename_i start rest depth _
    have h := size_close_le n depth start rest cur
    split <;> rename_i heq <;> rw [heq] at h <;> exact h

/-- A group leaves less to read than there was. -/
theorem group?_progress {n : Nesting} {t g rest : Text} {cur cur' : Cursor}
    (h : n.group? t cur = (.ok (some (g, rest)), cur')) :
    cur'.size + rest.length < cur.size + t.length := by
  unfold group? at h
  split at h
  · simp at h
  · rename_i start after depth ho
    have hlt := opening?_progress ho
    split at h
    · rename_i found cur'' hc
      simp only [Prod.mk.injEq, Except.ok.injEq, Option.some.injEq] at h
      obtain ⟨rfl, rfl⟩ := h
      have := close_progress hc
      omega
    · simp at h

end Nesting

/-- The groups that hold a value in this dialect. -/
def Delimiters.placeholder (d : Delimiters) : Nesting :=
  .placeholder d.variableStart d.variableEnd

end TerseMarkup
