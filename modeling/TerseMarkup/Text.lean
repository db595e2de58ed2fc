import TerseMarkup.Text.Blank

/-!
# Text

Templates, and every piece cut out of them, are lists of characters. This module holds the few
operations on text that the rest of the library is written in: trimming, cutting off a leading
word, the first line, and sizes in UTF-8.
-/

namespace TerseMarkup

/-- A piece of a template. -/
abbrev Text := List Char

namespace Text

/-! ## Trimming -/

/-- The text without its leading blanks. -/
def trimStart (t : Text) : Text :=
  t.dropWhile isBlank

/-- The text without its trailing blanks. -/
def trimEnd (t : Text) : Text :=
  (t.reverse.dropWhile isBlank).reverse

/-- The text without its outer blanks. -/
def trim (t : Text) : Text :=
  trimEnd (trimStart t)

/-- Trimming at the front makes a text no longer. -/
theorem length_trimStart_le (t : Text) : (trimStart t).length ≤ t.length :=
  (List.dropWhile_sublist isBlank).length_le

/-- Trimming at the end makes a text no longer. -/
theorem length_trimEnd_le (t : Text) : (trimEnd t).length ≤ t.length := by
  have h : (t.reverse.dropWhile isBlank).length ≤ t.reverse.length :=
    (List.dropWhile_sublist isBlank).length_le
  simpa [trimEnd] using h

/-- Trimming makes a text no longer. -/
theorem length_trim_le (t : Text) : (trim t).length ≤ t.length :=
  Nat.le_trans (length_trimEnd_le _) (length_trimStart_le t)

/-- Trimming the start moves blanks only: they stand in front of what is left. -/
theorem takeWhile_append_trimStart (t : Text) : t.takeWhile isBlank ++ trimStart t = t :=
  List.takeWhile_append_dropWhile

/-! ## Leading words -/

/-- What follows `lead`, if the text starts with it. -/
def after? : Text → Text → Option Text
  | [], t => some t
  | _ :: _, [] => none
  | a :: lead, c :: t => if a = c then after? lead t else none

/-- `after?` cuts a text at the end of its lead. -/
theorem after?_eq_some_iff {lead t rest : Text} : after? lead t = some rest ↔ t = lead ++ rest := by
  induction lead generalizing t with
  | nil => simp [after?]
  | cons a lead ih =>
    cases t with
    | nil => simp [after?]
    | cons c t =>
      by_cases h : a = c
      · subst h
        simp [after?, ih]
      · have h' : ¬ c = a := fun e => h e.symm
        simp [after?, h, h']

/-- The first of `words` that the text starts with, and what follows it. -/
def word? (words : List Text) (t : Text) : Option (Text × Text) :=
  words.findSome? fun w => (after? w t).map fun rest => (w, rest)

/-- Whether `part` occurs somewhere in the text. -/
def hasPart (part : Text) : Text → Bool
  | [] => part.isEmpty
  | c :: t => part.isPrefixOf (c :: t) || hasPart part t

/-! ## Lines -/

/-- The text up to its first line feed. -/
def firstLine (t : Text) : Text :=
  t.takeWhile (· != '\n')

/-- The text cut after every line feed, which stays with its line. -/
def lines : Text → List Text
  | [] => []
  | c :: t =>
    if c = '\n' then [c] :: lines t
    else match lines t with
      | [] => [[c]]
      | line :: rest => (c :: line) :: rest

/-- No character is lost by cutting a text into lines. -/
theorem flatten_lines (t : Text) : (lines t).flatten = t := by
  induction t with
  | nil => rfl
  | cons c t ih =>
    unfold lines
    split
    · simp [ih]
    · cases h : lines t with
      | nil =>
        rw [h] at ih
        simp at ih
        simp [ih]
      | cons line rest =>
        rw [h] at ih
        simpa using ih

/-- The line without its terminator: one line feed, and then one carriage return before it. -/
def dropTerminator (line : Text) : Text :=
  if line.getLast? = some '\n' then
    if line.dropLast.getLast? = some '\r' then line.dropLast.dropLast else line.dropLast
  else line

/-- Dropping its terminator makes a text no longer. -/
theorem length_dropTerminator_le (t : Text) : (dropTerminator t).length ≤ t.length := by
  unfold dropTerminator
  split
  · split
    · simp only [List.length_dropLast]
      omega
    · simp
  · exact Nat.le_refl _

/-! ## Sizes and numbers -/

/-- The size of the text in UTF-8. -/
def byteSize (t : Text) : Nat :=
  t.foldr (fun c n => c.utf8Size + n) 0

/-- The text from byte offset `n` on, if a character starts (or the text ends) there. -/
def dropBytes? : Nat → Text → Option Text
  | 0, t => some t
  | _ + 1, [] => none
  | n + 1, c :: t => if c.utf8Size ≤ n + 1 then dropBytes? (n + 1 - c.utf8Size) t else none

/-- The text up to byte offset `n`, if a character starts (or the text ends) there. -/
def takeBytes? : Nat → Text → Option Text
  | 0, _ => some []
  | _ + 1, [] => none
  | n + 1, c :: t =>
    if c.utf8Size ≤ n + 1 then (takeBytes? (n + 1 - c.utf8Size) t).map (c :: ·) else none

/-- The bytes from `lo` up to `hi`, if both lie between characters and in this order. -/
def sliceBytes? (lo hi : Nat) (t : Text) : Option Text :=
  if lo ≤ hi then (takeBytes? hi t).bind (dropBytes? lo) else none

/-- A number in decimal. -/
def ofNat (n : Nat) : Text :=
  Nat.toDigits 10 n

/-- `n` copies of a character. -/
def copies (n : Nat) (c : Char) : Text :=
  List.replicate n c

end Text

end TerseMarkup
