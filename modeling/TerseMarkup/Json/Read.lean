import TerseMarkup.Json
import TerseMarkup.Text.Escape

/-!
# Reading JSON

A strict reader: no comments, no trailing commas, no unpaired surrogates, no number past the range
of a double, and no more than `Json.depthLimit` values inside each other. `Json.ofText?` reads a
whole text.
-/

namespace TerseMarkup.Json

/-- How many values may stand inside each other. -/
def depthLimit : Nat :=
  127

/-- The text without the blanks that JSON allows between its marks. -/
def skipBlanks (t : Text) : Text :=
  t.dropWhile fun c => c == ' ' || c == '\t' || c == '\n' || c == '\r'

/-! ## Numbers -/

/-- Whether a character is a decimal digit. -/
def isDecimal (c : Char) : Bool :=
  '0' ≤ c && c ≤ '9'

/-- The value of a run of decimal digits. -/
def decimalValue (digits : Text) : Nat :=
  digits.foldl (fun n c => 10 * n + (c.toNat - '0'.toNat)) 0

/-- The whole part of a number, which has no superfluous zero in front. -/
def wholePart? (t : Text) : Option (Text × Text) :=
  match t with
  | [] => none
  | c :: rest =>
    if c = '0' then some ([c], rest)
    else if isDecimal c then some (c :: rest.takeWhile isDecimal, rest.dropWhile isDecimal)
    else none

/-- The decimal places behind a point, if there is a point. -/
def places? (t : Text) : Option (Text × Text) :=
  match t with
  | '.' :: rest =>
    if rest.takeWhile isDecimal = [] then none
    else some (rest.takeWhile isDecimal, rest.dropWhile isDecimal)
  | _ => some ([], t)

/-- The exponent of a number as a sign and digits, if there is an exponent. -/
def exponent? (t : Text) : Option (Bool × Text × Text) :=
  match t with
  | c :: rest =>
    if c = 'e' ∨ c = 'E' then
      let (minus, rest) := match rest with
        | '-' :: rest => (true, rest)
        | '+' :: rest => (false, rest)
        | _ => (false, rest)
      if rest.takeWhile isDecimal = [] then none
      else some (minus, rest.takeWhile isDecimal, rest.dropWhile isDecimal)
    else some (false, [], t)
  | [] => some (false, [], [])

/-- What rounds to infinity as a double starts here. -/
def doubleBound : Nat :=
  Nat.pow 2 1024 - Nat.pow 2 970

/-- Whether digits, times ten to the power `up`, over ten to the power `down`, are in the range of
a double. Powers that settle the question by themselves need no arithmetic. -/
def inDoubleRange (digits : Text) (up down : Nat) : Bool :=
  let n := decimalValue digits
  if n = 0 || down > up + digits.length then true
  else if up > down + 400 then false
  else n * Nat.pow 10 (up - down) < doubleBound * Nat.pow 10 (down - up)

/-- A number. -/
def number? (t : Text) : Option (Json × Text) := do
  let (sign, t) := match t with
    | '-' :: t => (['-'], t)
    | _ => ([], t)
  let (whole, t₁) ← wholePart? t
  let (places, t₂) ← places? t₁
  let (minus, power, t₃) ← exponent? t₂
  let shift := decimalValue power
  if inDoubleRange (whole ++ places) (if minus then 0 else shift)
      (places.length + if minus then shift else 0) then
    some (.number (sign ++ t.take (t.length - t₃.length)), t₃)
  else none

/-! ## Strings -/

/-- What a backslash and a single character stand for. -/
def escape? (c : Char) : Option Char :=
  match c with
  | '"' => some '"'
  | '\\' => some '\\'
  | '/' => some '/'
  | 'b' => some '\x08'
  | 'f' => some '\x0c'
  | 'n' => some '\n'
  | 'r' => some '\r'
  | 't' => some '\t'
  | _ => none

/-- Four hexadecimal digits, and what follows them. -/
def unit? (t : Text) : Option (Nat × Text) :=
  if (t.take 4).length = 4 then (Text.hexValue? (t.take 4)).map fun n => (n, t.drop 4) else none

/-- The character that the digits behind a backslash and `u` name; a character outside the first
plane is written as two surrogates. -/
def unicodeEscape? (t : Text) : Option (Char × Text) := do
  let (high, t) ← unit? t
  if 0xD800 ≤ high ∧ high < 0xDC00 then
    let t ← Text.after? "\\u".toList t
    let (low, t) ← unit? t
    if 0xDC00 ≤ low ∧ low < 0xE000 then
      some (Char.ofNat (0x10000 + (high - 0xD800) * 0x400 + (low - 0xDC00)), t)
    else none
  else (Text.charOfCode? high).map fun c => (c, t)

/-- The rest of a string behind its opening quote. -/
def stringBody? (t : Text) : Option (Text × Text) :=
  match t with
  | [] => none
  | c :: rest =>
    if c = '"' then some ([], rest)
    else if c.toNat < 0x20 then none
    else if c = '\\' then
      match rest with
      | [] => none
      | e :: rest =>
        match escape? e with
        | some c => (stringBody? rest).map fun (body, t) => (c :: body, t)
        | none =>
          if e = 'u' then
            match unicodeEscape? rest with
            | none => none
            | some (c, rest') =>
              if rest'.length ≤ rest.length then
                (stringBody? rest').map fun (body, t) => (c :: body, t)
              else none
          else none
    else (stringBody? rest).map fun (body, t) => (c :: body, t)
termination_by t.length
decreasing_by all_goals simp only [List.length_cons] at *; omega

/-! ## Values -/

/-- One or more items with commas between them, up to the closing mark. -/
def items? {α : Type} (item? : Text → Option (α × Text)) (mark : Char) (t : Text) :
    Option (List α × Text) :=
  match item? t with
  | none => none
  | some (item, rest) =>
    match skipBlanks rest with
    | [] => none
    | c :: more =>
      if c = mark then some ([item], more)
      else if c = ',' ∧ more.length < t.length then
        (items? item? mark more).map fun (items, rest) => (item :: items, rest)
      else none
termination_by t.length
decreasing_by omega

/-- Items up to the closing mark, or the closing mark at once. -/
def list? {α : Type} (item? : Text → Option (α × Text)) (mark : Char) (t : Text) :
    Option (List α × Text) :=
  match Text.after? [mark] (skipBlanks t) with
  | some rest => some ([], rest)
  | none => items? item? mark t

/-- A member of an object, whose value is read by `value?`. -/
def member? (value? : Text → Option (Json × Text)) (t : Text) :
    Option ((Text × Json) × Text) := do
  let t ← Text.after? ['"'] (skipBlanks t)
  let (key, t) ← stringBody? t
  let t ← Text.after? [':'] (skipBlanks t)
  let (value, t) ← value? t
  some ((key, value), t)

/-- A value that needs no reader for values inside it. -/
def scalar? (t : Text) : Option (Json × Text) :=
  match Text.after? ['"'] t with
  | some rest => (stringBody? rest).map fun (body, rest) => (.string body, rest)
  | none =>
    match Text.word? ["null".toList, "true".toList, "false".toList] t with
    | some (word, rest) =>
      some (if word = "null".toList then .null else .bool (word = "true".toList), rest)
    | none => number? t

/-- A value with at most `levels` values inside each other. -/
def value? : (levels : Nat) → Text → Option (Json × Text)
  | 0, t =>
    match skipBlanks t with
    | [] => none
    | c :: rest => if c = '\x7b' ∨ c = '[' then none else scalar? (c :: rest)
  | levels + 1, t =>
    match skipBlanks t with
    | [] => none
    | c :: rest =>
      if c = '\x7b' then
        (list? (member? (value? levels)) '\x7d' rest).map fun (members, rest) =>
          (.object members, rest)
      else if c = '[' then
        (list? (value? levels) ']' rest).map fun (items, rest) => (.array items, rest)
      else scalar? (c :: rest)

/-- Reads a whole text as one value. -/
def ofText? (t : Text) : Option Json :=
  match value? depthLimit t with
  | some (value, rest) => if (skipBlanks rest).isEmpty then some value else none
  | none => none

/-- The member of an object with a given key; the last of several counts. -/
def member (key : Text) (members : List (Text × Json)) : Option Json :=
  members.reverse.lookup key

end TerseMarkup.Json
