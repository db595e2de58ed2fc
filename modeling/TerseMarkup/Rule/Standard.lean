import TerseMarkup.Element
import TerseMarkup.Rule

/-!
# The standard rules

The table of rules that both built-in profiles start from. The order counts: the first rule that
recognises a line decides what it announces.
-/

namespace TerseMarkup.Rule

/-! ## Letters of either case -/

/-- Whether a character is the given small letter when case is ignored. The long s and the Kelvin
sign fold to `s` and `k`. -/
def isLetter (letter c : Char) : Bool :=
  c == letter || c == letter.toUpper || (letter == 's' && c == '\u017f') ||
    (letter == 'k' && c == '\u212a')

/-- Whether a text starts with a word of small letters when case is ignored, and what follows. -/
def caselessAfter? : Text → Text → Option (Text × Text)
  | [], t => some ([], t)
  | _ :: _, [] => none
  | letter :: word, c :: t =>
    if isLetter letter c then (caselessAfter? word t).map fun (lead, rest) => (c :: lead, rest)
    else none

/-- Whether a character may stand in the name of a document type. -/
def isDoctypeChar (c : Char) : Bool :=
  isDigit c || c == '.' || isElementStart c || ('A' ≤ c && c ≤ 'Z') || c == '\u017f' ||
    c == '\u212a'

/-- A character in lower case, as far as names of document types go. -/
def lowerCase (c : Char) : Char :=
  if c = '\u212a' then 'k' else c.toLower

/-! ## Elements -/

/-- Style sheets and scripts. -/
def verbatimElement : Rule :=
  byStart "style_script"
    (fun line =>
      (caselessAfter? "style".toList line).isSome || (caselessAfter? "script".toList line).isSome)
    fun _ => .verbatimElement

/-- Document types. -/
def doctype : Rule where
  name := "doctype"
  recognise line :=
    match caselessAfter? "doctype".toList line with
    | none => none
    | some (word, t) =>
      let gap := t.takeWhile isBlank
      let key := (t.dropWhile isBlank).takeWhile isDoctypeChar
      if gap.isEmpty || key.isEmpty then none
      else some
        { matched := word ++ gap ++ key
          parts := [("type", some key)]
          headline := .doctype (key.map lowerCase) }

/-- Client-side templates. -/
def scriptTemplate : Rule :=
  byStart "handlebars" ("handlebars".toList.isPrefixOf ·) fun _ => .scriptTemplate

/-- Elements: a name, an id or a class. -/
def element : Rule :=
  byStart "tag_tree"
    (fun line =>
      match line with
      | [] => false
      | c :: _ => c == '#' || c == '.' || isElementStart c)
    fun _ => .element

/-! ## Text -/

/-- Text behind a mark. -/
def explicitLiteral : Rule :=
  byStart "explicit_literal" (fun line => line.head? == some '|' || line.head? == some ',') .literal

/-- Whether a line starts like text: with a placeholder, a bracket, a character entity, a digit, a
capital letter or a character that is not printable ASCII. -/
def startsText (line : Text) : Bool :=
  match line with
  | [] => false
  | c :: t =>
    if c = '$' then t.head? == some '\x7b'
    else if c = '&' then ((Text.firstLine t).drop 1).contains ';'
    else c == '\x7b' || c == '(' || c == '[' || isDigit c || !('!' ≤ c && c ≤ '~') ||
      ('A' ≤ c && c ≤ 'Z')

/-- Text that starts with something no other line starts with. -/
def implicitLiteral : Rule where
  name := "implicit_literal"
  recognise line :=
    match line with
    | [] => none
    | c :: t =>
      if startsText (c :: t) then
        let text := c :: Text.firstLine t
        some { matched := text, parts := [("line", some text)], headline := .literal ('|' :: text) }
      else none

/-- Lines of HTML. -/
def html : Rule :=
  byStart "raw_html" (fun line => line.head? == some '<') fun _ => .html

/-- Comments. -/
def comment : Rule :=
  byStart "comment" (fun line => line.head? == some '/') fun _ => .comment

/-- Values. -/
def value : Rule where
  name := "variable"
  recognise line :=
    match line with
    | [] => none
    | c :: t =>
      if c = '=' then
        let (unescaped, t₁) := optionalMark '=' t
        let (spaced, t₂) := optionalMark ',' t₁
        let gap := t₂.takeWhile isBlank
        let expr := Text.firstLine (t₂.dropWhile isBlank)
        let escapeMark := if unescaped then ['='] else []
        let spaceMark := if spaced then [','] else []
        some
          { matched := c :: escapeMark ++ spaceMark ++ gap ++ expr
            parts := [("prevent_escape", if unescaped then some ['='] else none),
              ("explicit_space", if spaced then some [','] else none), ("line", some expr)]
            headline := .value unescaped spaced expr }
      else none

/-! ## Statements and code -/

/-- Control statements. -/
def statement : Rule :=
  byWord "statements" ["if", "for", "while", "with", "try"] "stmnt" .statement

/-- Control statements with a negated condition, which stand for plain ones. -/
def negated : Rule :=
  byWord "foreign_statements" ["unless", "until"] "stmnt" fun word expr =>
    .negated (if word = "unless".toList then "if".toList else "while".toList) expr

/-- Code behind a fence of three dashes or more. -/
def fencedCode : Rule where
  name := "python_new"
  recognise line :=
    match Text.after? "---".toList line with
    | none => none
    | some t =>
      let dashes := t.takeWhile (· == '-')
      let (moduleLevel, t₁) := optionalMark '!' (t.dropWhile (· == '-'))
      let gap := t₁.takeWhile isBlank
      let rest := t₁.dropWhile isBlank
      let expr := match rest with
        | [] => none
        | c :: u => if c = '-' then none else some (c :: Text.firstLine u)
      some
        { matched := "---".toList ++ dashes ++ (if moduleLevel then ['!'] else []) ++ gap ++
            expr.getD []
          parts := [("excl", if moduleLevel then some ['!'] else none), ("expr", expr)]
          headline := .fencedCode moduleLevel expr }

/-- Code behind a keyword, which has a short and a long form. -/
def code : Rule where
  name := "python"
  recognise line :=
    (dashWord? ["python", "py"] line).map fun (lead, word, rest) =>
      let (moduleLevel, t) := optionalMark '!' rest
      let mark := if moduleLevel then ['!'] else []
      let expr := if t.takeWhile isBlank = [] then none else some (spacedRest t)
      { matched := lead ++ word ++ mark ++ expr.getD []
        parts := [("python", some (word ++ mark)), ("excl", some mark), ("expr", expr)]
        headline := .code moduleLevel expr }

/-- Named pieces of template. -/
def definition : Rule :=
  bySpacedWord "def_block" ["def", "block"] .definition

/-- Tags of the template engine without content. -/
def directive : Rule :=
  bySpacedWord "mako_one_liners" ["include", "inherit", "page", "namespace"] .directive

/-- Content that is kept from the template engine. -/
def shielded : Rule :=
  bySpacedWord "mako_text" ["text"] .shielded

/-- Calls of named pieces of template. -/
def call : Rule :=
  bySpacedWord "call" ["call"] .call

/-- Jumps out of the code. -/
def jump : Rule :=
  byBareWord "early_return" ["return", "continue", "break"] "keyword" .jump

/-- Blocks in other markup languages. -/
def markup : Rule :=
  byBareWord "markup_languages"
    ["md", "markdown", "rst", "rest", "coffee", "scss", "sass", "stylus"] "lang" .markup

/-- The standard table. -/
def standard : List Rule :=
  [verbatimElement, doctype, scriptTemplate, element, explicitLiteral, implicitLiteral, html,
    value, comment, statement, negated, fencedCode, code, definition, directive, shielded, call,
    jump, markup]

end TerseMarkup.Rule
