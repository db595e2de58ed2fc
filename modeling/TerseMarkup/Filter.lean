import TerseMarkup.Delimiters

/-!
# Filters of an expression

An expression may end in a bar and a list of filter names. `Delimiters.withoutEscaping` adds the
no-escape filter: in front of the filters that are there, or as the only one.
-/

namespace TerseMarkup

/-- Whether a character may start a filter name. -/
def isFilterStart (c : Char) : Bool :=
  ('a' ≤ c && c ≤ 'z') || ('A' ≤ c && c ≤ 'Z')

/-- Whether a character may go on a filter name. -/
def isFilterRest (c : Char) : Bool :=
  isFilterStart c || ('0' ≤ c && c ≤ '9') || c == '_' || c == '.'

/-- Whether a text is filter names with commas between them, and blanks at the end. With `inside`
the text goes on a name; otherwise a name is still to come, and blanks may stand in front of it. -/
def filterNames : (inside : Bool) → Text → Bool
  | false, [] => false
  | false, c :: t =>
    if isBlank c then filterNames false t else isFilterStart c && filterNames true t
  | true, [] => true
  | true, c :: t =>
    if isFilterRest c then filterNames true t
    else if c = ',' then filterNames false t
    else (c :: t).all isBlank

/-- Cuts an expression at the first bar that has only filter names behind it. -/
def splitFilters? : Text → Option (Text × Text)
  | [] => none
  | c :: t =>
    if c = '|' && filterNames false t then some ([], Text.trimStart t)
    else (splitFilters? t).map fun (base, names) => (c :: base, names)

/-- An expression with escaping switched off. -/
def Delimiters.withoutEscaping (d : Delimiters) (expr : Text) : Text :=
  match splitFilters? expr with
  | some (base, names) => base ++ ['|'] ++ d.noEscape ++ d.filterSeparator ++ names
  | none => expr ++ ['|'] ++ d.noEscape

end TerseMarkup
