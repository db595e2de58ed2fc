import TerseMarkup.Markdown.Inline
import TerseMarkup.Markdown.Row

/-!
# What a line of Markdown starts

A heading, a rule, a quote, a list item, a fence around code, HTML or an underline. Each of these
reads the text behind the indentation of a line; four columns of indentation take all this from it.
-/

namespace TerseMarkup.Markdown

/-- Whether a line has nothing but blanks. -/
def isEmptyLine (line : Text) : Bool :=
  line.all isSpace

/-! ## Headings and rules -/

/-- The level and the text of a heading. -/
def heading? (t : Text) : Option (Nat × Text) :=
  let level := (t.takeWhile (· == '#')).length
  let rest := t.drop level
  if 1 ≤ level && level ≤ 6 && (rest.head?.map isSpace).getD true then
    some (level, rest.dropWhile isLineSpace)
  else none

/-- The content of a heading. Spaces and then hash signs may close it, if a space is in front of
the hash signs. A tab is no such space; it belongs to the text in front of it. -/
def headingContent (t : Text) : List Inline :=
  let t := dropWhileEnd (· == ' ') t
  let bare := dropWhileEnd (· == '#') t
  let kept := dropWhileEnd (· == ' ') bare
  if bare.isEmpty then []
  else if kept.length < bare.length then inlines kept
  else
    let text := dropWhileEnd isLineSpace t
    let content := inlines text
    let blanks := t.drop text.length
    match content.getLast? with
    | some (.code _) | some (.emphasis _) | some (.strong _) | some (.deleted _) => content
    | _ => if blanks.isEmpty then content else content ++ [.text blanks]

/-- Whether a line is a rule: three marks or more, with nothing but blanks between them. -/
def isRule (t : Text) : Bool :=
  let marks := t.filter (!isGap ·)
  3 ≤ marks.length &&
    (marks.all (· == '-') || marks.all (· == '*') || marks.all (· == '_'))

/-- The level of the heading that the lines above this line are. -/
def underline? (t : Text) : Option Nat :=
  let t := dropSpacesEnd t
  if t.isEmpty then none
  else if t.all (· == '=') then some 1
  else if t.all (· == '-') then some 2
  else none

/-! ## Lists -/

/-- The start of a list item. -/
structure Marker where
  /-- The number of an ordered item. -/
  number : Option Nat
  /-- The bullet, or the mark behind the number. -/
  mark : Char
  /-- The number of characters. -/
  width : Nat
  deriving DecidableEq, Repr

/-- Whether two items belong to one list. -/
def Marker.joins (a b : Marker) : Bool :=
  a.mark == b.mark

/-- The marker of a list item, and the text behind it, which is empty or starts with a blank. -/
def marker? (t : Text) : Option (Marker × Text) :=
  let digits := t.takeWhile fun c => '0' ≤ c && c ≤ '9'
  match t.drop digits.length with
  | [] => none
  | c :: rest =>
    if !(rest.head?.map isGap).getD true || isRule t then none
    else if digits.isEmpty && (c = '-' || c = '+' || c = '*') then some (⟨none, c, 1⟩, rest)
    else if !digits.isEmpty && digits.length ≤ 9 && (c = '.' || c = ')') then
      let number := digits.foldl (fun n d => 10 * n + (d.toNat - '0'.toNat)) 0
      some (⟨some number, c, digits.length + 1⟩, rest)
    else none

/-- The list item that a line starts: its marker, how far its content is indented, and the content.
Up to four columns of blanks lie between marker and content; of more, all but one belong to the
content. -/
def Tail.item? (t : Tail) : Option (Marker × Nat × Tail) :=
  if 4 ≤ t.indent then none
  else
    (marker? t.body).map fun (m, rest) =>
      let start := t.indent + m.width + 1
      let content := ((⟨0, (t.skip 4).2.column + m.width, rest⟩ : Tail).skip 1).2
      if isEmptyLine rest || 4 ≤ content.indent then (m, start, content)
      else (m, start + content.indent, (content.skip 4).2)

/-! ## Quotes -/

/-- What is behind the mark of a quote. A column of blanks may follow the mark. -/
def Tail.pastMark? (t : Tail) : Option Tail :=
  (Text.after? ['>'] t.text).map fun rest => ((⟨t.pending, t.column + 1, rest⟩ : Tail).skip 1).2

/-- The content of the quote that a line starts. -/
def Tail.quote? (t : Tail) : Option Tail :=
  if 4 ≤ t.indent then none else (t.skip 4).2.pastMark?

/-! ## Code -/

/-- The line that opens a block of code. -/
structure Fence where
  /-- The character it is made of. -/
  mark : Char
  /-- How many there are. -/
  length : Nat
  /-- The language of the code; it may be empty. -/
  language : Text
  deriving DecidableEq, Repr

/-- The fence that a line opens: three marks or more. No back tick follows one of back ticks. -/
def fence? (t : Text) : Option Fence :=
  match t with
  | [] => none
  | c :: _ =>
    let length := (t.takeWhile (· == c)).length
    let info := t.drop length
    if 3 ≤ length && (c == '~' || c == '\x60' && !info.contains '\x60') then
      let info := unescaped (dropSpacesEnd (info.dropWhile isLineSpace))
      some ⟨c, length, info.takeWhile (· != ' ')⟩
    else none

/-- Whether a line closes a block of code. -/
def Fence.closedBy (fence : Fence) (t : Tail) : Bool :=
  let marks := t.body.takeWhile (· == fence.mark)
  t.indent ≤ 3 && fence.length ≤ marks.length && (t.body.drop marks.length).all (· == ' ')

/-! ## HTML -/

/-- The elements that start a block of HTML wherever their tags are at the start of a line. -/
def blockElements : List String :=
  ["address", "article", "aside", "base", "basefont", "blockquote", "body", "caption", "center",
   "col", "colgroup", "dd", "details", "dialog", "dir", "div", "dl", "dt", "fieldset",
   "figcaption", "figure", "footer", "form", "frame", "frameset", "h1", "h2", "h3", "h4", "h5",
   "h6", "head", "header", "hr", "html", "iframe", "legend", "li", "link", "main", "menu",
   "menuitem", "nav", "noframes", "ol", "optgroup", "option", "p", "param", "search", "section",
   "source", "summary", "table", "tbody", "td", "tfoot", "th", "thead", "title", "tr", "track",
   "ul"]

/-- The elements whose content goes on to their closing tag, blank lines included. -/
def verbatimElements : List String :=
  ["pre", "style", "script", "textarea"]

/-- Where a block of HTML ends. -/
inductive HtmlEnd where
  /-- With the line that has this text. -/
  | mark (t : Text)
  /-- Before a blank line. -/
  | blank
  deriving DecidableEq, Repr

/-- The end of the block of HTML that a line starts, which may also end a paragraph. -/
def htmlEnd? (t : Text) : Option HtmlEnd := do
  let t ← Text.after? ['<'] t
  let lower := t.map Char.toLower
  let verbatim := verbatimElements.find? fun name =>
    match Text.after? name.toList lower with
    | some rest => (rest.head?.map fun c => isSpace c || c == '>').getD true
    | none => false
  let closing := (Text.after? ['/'] lower).getD lower
  let name := closing.takeWhile Char.isAlphanum
  let rest := closing.drop name.length
  match verbatim with
  | some name => some (.mark ("</".toList ++ name.toList ++ ['>']))
  | none =>
    if (Text.after? "!--".toList t).isSome then some (.mark "-->".toList)
    else if t.head? = some '?' then some (.mark "?>".toList)
    else if (Text.after? "![CDATA[".toList t).isSome then some (.mark "]]>".toList)
    else if t.head? = some '!' && ((t.drop 1).head?.map Char.isAlpha).getD false then
      some (.mark ['>'])
    else if blockElements.contains (String.ofList name) &&
        ((rest.head?.map fun c => isGap c || c == '>').getD true ||
          (Text.after? "/>".toList rest).isSome) then some .blank
    else none

/-- Whether a line has nothing but a tag, which starts a block of HTML, but not in a paragraph. -/
def isTagLine (t : Text) : Bool :=
  (((Text.after? ['<'] t).bind tag?).map isEmptyLine).getD false

/-! ## Paragraphs -/

/-- Whether a line ends a paragraph above it. On a line of the paragraph's own containers a list
item ends it only with content, and an ordered one only at the number one; on any other line each
list item does. -/
def interrupts (inside : Bool) (t : Text) : Bool :=
  let item := match marker? t with
    | some (m, rest) => !inside || (m.number.map (· == 1)).getD true && !isEmptyLine rest
    | none => false
  isRule t || (heading? t).isSome || (fence? t).isSome || (htmlEnd? t).isSome ||
    t.head? == some '>' || item

end TerseMarkup.Markdown
