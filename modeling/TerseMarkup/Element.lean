import TerseMarkup.Element.Attribute
import TerseMarkup.Filter
import TerseMarkup.Html
import TerseMarkup.Scan.Expression
import TerseMarkup.Setting
import TerseMarkup.Span

/-!
# Elements

The headline of an element is a name, an id and classes behind `#` and `.`, attributes bare or in
parentheses, and then either content on the same line or a colon with a line of its own behind it.
`Element.read` reads a headline; parentheses may spread it over several lines.
-/

namespace TerseMarkup

/-- The headline of an element. -/
structure Element where
  /-- The opening tag, followed by the content on the line. -/
  opened : Text
  /-- The closing tag; empty for an element without content of its own. -/
  closed : Text
  /-- The name of the element. -/
  name : Text
  /-- The attributes as written, with spaces between them. -/
  attributes : Text
  /-- The content on the line, as written. -/
  content : Text
  /-- What follows a colon: a headline of its own, inside this element. -/
  rest : Text
  deriving DecidableEq, Repr

/-- Another name for an element, and an attribute to go in front of its own. -/
structure Disguise where
  name : Text
  leading : Text
  deriving DecidableEq, Repr

/-! ## Name, id and classes -/

/-- Whether a character may start the name of an element. -/
def isElementStart (c : Char) : Bool :=
  'a' ≤ c && c ≤ 'z'

/-- Whether a character may go on the name of an element. -/
def isElementRest (c : Char) : Bool :=
  isElementStart c || isDigit c

/-- The name at the front of a headline, and what follows it. A headline without one is about a
`div`. -/
def elementName : Text → Text × Text
  | [] => ("div".toList, [])
  | c :: t =>
    if isElementStart c then (c :: t.takeWhile isElementRest, t.dropWhile isElementRest)
    else ("div".toList, c :: t)

/-- What ends an id or a class. -/
def shortcutStops : List Text :=
  [['.'], [' '], ['('], [':']]

/-- The id behind `#`, or nothing, and what follows it. -/
def idShortcut (d : Delimiters) (t : Text) : Scan (Text × Text) := do
  match ← token? d.placeholder ['#'] shortcutStops t with
  | some (id, rest) => return (Text.trimEnd (id.drop 1), rest)
  | none => return ([], t)

/-- The classes, each behind a dot, and what follows them. -/
def classShortcuts (d : Delimiters) (t : Text) (cur : Cursor) :
    Except Diagnostic (List Text × Text) × Cursor :=
  match _h : token? d.placeholder ['.'] shortcutStops t cur with
  | (.error e, cur') => (.error e, cur')
  | (.ok none, cur') => (.ok ([], t), cur')
  | (.ok (some (name, rest)), cur') =>
    match classShortcuts d rest cur' with
    | (.error e, cur'') => (.error e, cur'')
    | (.ok (classes, rest), cur'') => (.ok (Text.trimEnd (name.drop 1) :: classes, rest), cur'')
termination_by cur.size + t.length
decreasing_by
  exact token?_progress _h (.inl (by simp))

/-! ## Attributes -/

/-- The attributes of a headline as they are collected. -/
structure AttributeList where
  /-- The attributes as written, apart from classes. -/
  pairs : List Text
  /-- The classes, of whatever form. -/
  classes : List Text
  deriving DecidableEq, Repr

namespace AttributeList

/-- Adds an attribute; a class joins the other classes. -/
def add (list : AttributeList) (pair : Text) : AttributeList :=
  match Text.after? "class=\"".toList pair with
  | some value =>
    if value.getLast? = some '"' then ⟨list.pairs, list.classes ++ [value.dropLast]⟩
    else ⟨list.pairs ++ [pair], list.classes⟩
  | none => ⟨list.pairs ++ [pair], list.classes⟩

/-- All attributes with spaces between them: the id comes after the others and the classes last. -/
def written (list : AttributeList) (id : Text) : Text :=
  List.intercalate [' ']
    (list.pairs ++ (if id.isEmpty then [] else [attributePair "id".toList id]) ++
      (if list.classes.isEmpty then []
        else [attributePair "class".toList (List.intercalate [' '] list.classes)]))

end AttributeList

/-- The fault of a second id on the headline `line`. -/
def secondId (line : Text) (n : Nat) : Diagnostic :=
  .malformed "Your template has two \"id\" attribute definitions".toList line n

/-- The fault of a headline that ends inside its parentheses. -/
def unclosedParens (locus : Text) (n : Nat) : Diagnostic :=
  .malformed "Unexpected end of line".toList locus n

/-- Collects attributes as long as there are any. Inside parentheses the next line is pulled when
the current one is used up. `line` is the headline, for the report of faults. -/
def readAttributes (d : Delimiters) (parens : Bool) (line id : Text) (list : AttributeList)
    (tail : Text) (cur : Cursor) : Except Diagnostic (AttributeList × Text) × Cursor :=
  match _hb : followBreaks tail.trimStart cur with
  | (_, t, cur₁) =>
    match _hs : splat? d parens t cur₁ with
    | (.error e, cur₂) => (.error e, cur₂)
    | (.ok (some (text, rest)), cur₂) =>
      readAttributes d parens line id ⟨list.pairs ++ [text], list.classes⟩ rest cur₂
    | (.ok none, cur₂) =>
      match _ha : attribute? d parens t cur₂ with
      | (.error e, cur₃) => (.error e, cur₃)
      | (.ok (some (pair, rest)), cur₃) =>
        if "id=\"".toList.isPrefixOf pair ∧ id ≠ [] then (.error (secondId line cur₃.number), cur₃)
        else readAttributes d parens line id (list.add pair) rest cur₃
      | (.ok none, cur₃) =>
        if parens ∧ t = [] then
          match _hn : cur₃.next? with
          | none => (.error (unclosedParens line cur₃.number), cur₃)
          | some (raw, cur₄) => readAttributes d parens line id list raw cur₄
        else (.ok (list, t), cur₃)
termination_by cur.size + tail.length
decreasing_by
  all_goals
    have hb := followBreaks_le tail.trimStart cur
    have hc := size_followBreaks_le tail.trimStart cur
    rw [_hb] at hb hc
    simp only at hb hc
    have ht := Text.length_trimStart_le tail
  · have := splat?_progress _hs
    omega
  · have hs := size_splat?_le d parens t cur₁
    rw [_hs] at hs
    simp only at hs
    have := attribute?_progress _ha
    omega
  · have hs := size_splat?_le d parens t cur₁
    rw [_hs] at hs
    simp only at hs
    have ha := size_attribute?_le d parens t cur₂
    rw [_ha] at ha
    simp only at ha
    have := Cursor.size_of_next? _hn
    omega

/-! ## Content on the line -/

/-- Text on the line, with its embedded markup rendered. -/
def renderText (s : Setting) (t : Text) : Scan Text := do
  Scan.ofExcept (renderSpans s.embedded (← Scan.lineNumber) t)

/-- What follows an optional mark at the front of a text, and whether it was there. -/
def optionalMark (mark : Char) (t : Text) : Bool × Text :=
  match Text.after? [mark] t with
  | some rest => (true, rest)
  | none => (false, t)

/-- A value on the line, after its equals sign: a second one switches escaping off, and a comma
puts a space behind the value. -/
def inlineValue (d : Delimiters) (t : Text) : Scan Text := do
  let (unescaped, t) := optionalMark '=' t
  let (spaced, t) := optionalMark ',' t
  let expr ← expression t
  let expr := if unescaped then d.withoutEscaping expr else expr
  return d.value expr ++ if spaced then [' '] else []

/-- The content that follows the attributes. -/
def inlineContent (s : Setting) : Text → Scan Text
  | [] => return []
  | c :: t =>
    if c = '=' then inlineValue s.delimiters t
    else if c = '|' then renderText s (Text.trim t)
    else if c = ',' then return (← renderText s (Text.trim t)) ++ [' ']
    else renderText s (Text.trim (c :: t))

/-! ## Headlines -/

/-- Follows backslash continuations. -/
def continued (t : Text) : Scan Text := fun cur =>
  let (_, rest, cur') := followBreaks t cur
  (.ok rest, cur')

/-- What follows the closing parenthesis of the attributes, if they have one. -/
def closeParens (parens : Bool) (t : Text) : Scan Text :=
  if parens then
    match Text.after? [')'] t with
    | some rest => return rest.trimStart
    | none => do Scan.fail (unclosedParens t (← Scan.lineNumber))
  else return t

/-- The element with the given name and attributes, the rest of whose headline is `tail`: a colon
and what follows it, or content. -/
def Element.finish (s : Setting) (name attributes tail : Text) : Scan Element := do
  let start := ['<'] ++ name ++ if attributes.isEmpty then [] else [' '] ++ attributes
  let opened := start ++ if Html.isVoid name then "/>".toList else ['>']
  let closed := if Html.isVoid name then [] else "</".toList ++ name ++ ['>']
  match Text.after? [':'] tail with
  | some rest => return { opened, closed, name, attributes, content := [], rest := rest.trimStart }
  | none =>
    let content ← inlineContent s tail
    return { opened := opened ++ content, closed, name, attributes, content, rest := [] }

/-- Reads the headline of an element. -/
def Element.read (s : Setting) (disguise : Option Disguise) (line : Text) : Scan Element := do
  let d := s.delimiters
  let (ownName, tail) := elementName line
  let (id, tail) ← idShortcut d tail
  let (classes, tail) ← classShortcuts d tail
  let tail ← continued tail.trimStart
  let (parens, tail) := optionalMark '(' tail
  let lead := (disguise.map Disguise.leading).toList
  let (list, tail) ← readAttributes d parens line id ⟨lead, classes⟩ tail
  let tail ← closeParens parens tail
  Element.finish s ((disguise.map Disguise.name).getD ownName) (list.written id) tail

end TerseMarkup
