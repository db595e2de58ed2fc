import TerseMarkup.Text

/-!
# Escape sequences

The text between the quotes of a literal may hold backslash sequences: single letters, up to three
octal digits, and two, four or eight hexadecimal digits. `Text.unescape` decodes them once. A
sequence that stands for no character is kept as it is written.
-/

namespace TerseMarkup.Text

/-- What a backslash and a single character stand for; a line feed vanishes. -/
def singleEscape? (c : Char) : Option Text :=
  match c with
  | '\n' => some []
  | '\\' => some ['\\']
  | '\'' => some ['\'']
  | '"' => some ['"']
  | 'a' => some ['\x07']
  | 'b' => some ['\x08']
  | 'f' => some ['\x0c']
  | 'n' => some ['\n']
  | 'r' => some ['\r']
  | 't' => some ['\t']
  | 'v' => some ['\x0b']
  | _ => none

/-- Whether a character is an octal digit. -/
def isOctalDigit (c : Char) : Bool :=
  '0' ≤ c && c ≤ '7'

/-- The value of a hexadecimal digit. -/
def hexDigit? (c : Char) : Option Nat :=
  if '0' ≤ c && c ≤ '9' then some (c.toNat - '0'.toNat)
  else if 'a' ≤ c && c ≤ 'f' then some (c.toNat - 'a'.toNat + 10)
  else if 'A' ≤ c && c ≤ 'F' then some (c.toNat - 'A'.toNat + 10)
  else none

/-- The value of a run of hexadecimal digits. -/
def hexValue? (digits : Text) : Option Nat :=
  digits.foldlM (fun n c => (hexDigit? c).map (16 * n + ·)) 0

/-- The value of a run of octal digits. -/
def octalValue (digits : Text) : Nat :=
  digits.foldl (fun n c => 8 * n + (c.toNat - '0'.toNat)) 0

/-- The character with a given code point, if there is one. -/
def charOfCode? (n : Nat) : Option Char :=
  if n.isValidChar then some (Char.ofNat n) else none

/-- How many hexadecimal digits the letter after a backslash asks for. -/
def hexWidth? (c : Char) : Option Nat :=
  match c with
  | 'x' => some 2
  | 'u' => some 4
  | 'U' => some 8
  | _ => none

/-- The character that exactly `width` leading hexadecimal digits name. -/
def hexEscape? (width : Nat) (t : Text) : Option Char :=
  let digits := t.take width
  if digits.length = width then (hexValue? digits).bind charOfCode? else none

/-- Decodes the backslash sequences of a text, each once. -/
def unescape : Text → Text
  | [] => []
  | c :: t =>
    if c = '\\' then
      match t with
      | [] => ['\\']
      | e :: t =>
        match singleEscape? e with
        | some s => s ++ unescape t
        | none =>
          if isOctalDigit e then
            let more := (t.take 2).takeWhile isOctalDigit
            (charOfCode? (octalValue (e :: more))).toList ++ unescape (t.drop more.length)
          else
            match (hexWidth? e).bind fun width => (hexEscape? width t).map (·, width) with
            | some (d, width) => d :: unescape (t.drop width)
            | none => '\\' :: e :: unescape t
    else c :: unescape t
termination_by t => t.length
decreasing_by all_goals simp only [List.length_cons, List.length_drop]; omega

end TerseMarkup.Text
