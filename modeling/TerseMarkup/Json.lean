import TerseMarkup.Text

/-!
# JSON

JSON values and their compact text. A number is kept as it is written, since nothing here computes
with it.
-/

namespace TerseMarkup

/-- A JSON value. -/
inductive Json where
  | null
  | bool (b : Bool)
  | number (literal : Text)
  | string (t : Text)
  | array (items : List Json)
  | object (members : List (Text × Json))

namespace Json

/-- A digit in base sixteen. -/
def hexDigit (n : Nat) : Char :=
  Char.ofNat (if n < 10 then '0'.toNat + n else 'a'.toNat + n - 10)

/-- A character inside a string: quotes, backslashes and control characters are escaped. -/
def escapeChar (c : Char) : Text :=
  match c with
  | '"' => ['\\', '"']
  | '\\' => ['\\', '\\']
  | '\x08' => ['\\', 'b']
  | '\x0c' => ['\\', 'f']
  | '\n' => ['\\', 'n']
  | '\r' => ['\\', 'r']
  | '\t' => ['\\', 't']
  | c =>
    if c.toNat < 0x20 then
      "\\u00".toList ++ [hexDigit (c.toNat / 16), hexDigit (c.toNat % 16)]
    else [c]

/-- A string between quotes. -/
def quote (t : Text) : Text :=
  ['"'] ++ t.flatMap escapeChar ++ ['"']

/-- A natural number. -/
def ofNat (n : Nat) : Json :=
  .number (Text.ofNat n)

mutual

/-- The compact text of a value. -/
def render : Json → Text
  | null => "null".toList
  | bool b => (if b then "true" else "false").toList
  | number literal => literal
  | string t => quote t
  | array items => ['['] ++ renderItems items ++ [']']
  | object members => ['\x7b'] ++ renderMembers members ++ ['\x7d']

/-- Items with commas between them. -/
def renderItems : List Json → Text
  | [] => []
  | [item] => item.render
  | item :: items => item.render ++ [','] ++ renderItems items

/-- Members with commas between them. -/
def renderMembers : List (Text × Json) → Text
  | [] => []
  | [(key, value)] => quote key ++ [':'] ++ value.render
  | (key, value) :: members =>
    quote key ++ [':'] ++ value.render ++ [','] ++ renderMembers members

end

end Json

end TerseMarkup
