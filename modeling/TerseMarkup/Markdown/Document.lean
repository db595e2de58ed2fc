import TerseMarkup.Text

/-!
# Markdown documents

The blocks and the inline text of a Markdown document, and how they are written as HTML.
-/

namespace TerseMarkup.Markdown

/-- A piece of the text inside a block. -/
inductive Inline where
  | text (t : Text)
  | code (t : Text)
  | emphasis (content : List Inline)
  | strong (content : List Inline)
  | deleted (content : List Inline)
  /-- A link; the title may be empty. -/
  | link (target title : Text) (content : List Inline)
  /-- An image; the title may be empty. -/
  | image (target title : Text) (content : List Inline)
  /-- HTML that is kept as it is. -/
  | html (t : Text)
  | softBreak
  | hardBreak

/-- A block of a document. -/
inductive Block where
  | heading (level : Nat) (content : List Inline)
  | paragraph (content : List Inline)
  | rule
  /-- Code; the language may be empty. -/
  | code (language text : Text)
  /-- HTML that is kept as it is. -/
  | html (t : Text)
  | quote (content : List Block)
  /-- A list; an ordered one has the number it starts with. The paragraphs of a tight list are
  written without tags. -/
  | list (start : Option Nat) (tight : Bool) (items : List (List Block))

/-! ## Characters -/

/-- A character in the text of an HTML document. -/
def escapeText (c : Char) : Text :=
  match c with
  | '&' => "&amp;".toList
  | '<' => "&lt;".toList
  | '>' => "&gt;".toList
  | c => [c]

/-- A character in a quoted attribute. -/
def escapeAttribute (c : Char) : Text :=
  if c = '"' then "&quot;".toList else escapeText c

/-- Whether a character stands for itself in a link target. -/
def isTargetChar (c : Char) : Bool :=
  ('a' ≤ c && c ≤ 'z') || ('A' ≤ c && c ≤ 'Z') || ('0' ≤ c && c ≤ '9') ||
    "!#$%()*+,-./:;=?@_~".toList.contains c

/-- A byte behind a percent sign. -/
def percentByte (n : Nat) : Text :=
  let digit (k : Nat) : Char := Char.ofNat (if k < 10 then '0'.toNat + k else 'A'.toNat + k - 10)
  ['%', digit (n / 16), digit (n % 16)]

/-- A character in a link target. -/
def escapeTarget (c : Char) : Text :=
  if isTargetChar c then [c]
  else if c = '&' then "&amp;".toList
  else if c = '\'' then "&#x27;".toList
  else (String.singleton c).toUTF8.toList.flatMap fun b => percentByte b.toNat

/-! ## Writing -/

/-- Content between the tags of an element. -/
def wrapped (name : String) (content : Text) : Text :=
  ['<'] ++ name.toList ++ ['>'] ++ content ++ "</".toList ++ name.toList ++ ['>']

mutual

/-- A piece of text without its marks, as an attribute has it. -/
def Inline.label : Inline → Text
  | .text t | .code t | .html t => t.flatMap escapeAttribute
  | .emphasis content | .strong content | .deleted content | .link _ _ content
  | .image _ _ content => labels content
  | .softBreak | .hardBreak => [' ']

/-- Pieces of text without their marks. -/
def labels : List Inline → Text
  | [] => []
  | i :: is => i.label ++ labels is

end

/-- A title as an attribute, if there is one. -/
def titled (title : Text) : Text :=
  if title.isEmpty then [] else " title=\"".toList ++ title.flatMap escapeAttribute ++ ['"']

mutual

/-- A piece of text as HTML. -/
def Inline.render : Inline → Text
  | .text t => t.flatMap escapeText
  | .code t => wrapped "code" (t.flatMap escapeText)
  | .emphasis content => wrapped "em" (renderInlines content)
  | .strong content => wrapped "strong" (renderInlines content)
  | .deleted content => wrapped "del" (renderInlines content)
  | .link target title content =>
    "<a href=\"".toList ++ target.flatMap escapeTarget ++ ['"'] ++ titled title ++ ['>'] ++
      renderInlines content ++ "</a>".toList
  | .image target title content =>
    "<img src=\"".toList ++ target.flatMap escapeTarget ++ "\" alt=\"".toList ++ labels content ++
      ['"'] ++ titled title ++ " />".toList
  | .html t => t
  | .softBreak => ['\n']
  | .hardBreak => "<br />\n".toList

/-- Pieces of text as HTML. -/
def renderInlines : List Inline → Text
  | [] => []
  | i :: is => i.render ++ renderInlines is

end

mutual

/-- A block as HTML, at the start of a line. -/
def Block.render : Block → Text
  | .heading level content =>
    wrapped (toString "h" ++ toString level) (renderInlines content) ++ ['\n']
  | .paragraph content => wrapped "p" (renderInlines content) ++ ['\n']
  | .rule => "<hr />\n".toList
  | .code language text =>
    let named := if language.isEmpty then []
      else " class=\"language-".toList ++ language.flatMap escapeAttribute ++ ['"']
    "<pre><code".toList ++ named ++ ['>'] ++ text.flatMap escapeText ++ "</code></pre>\n".toList
  | .html t => t
  | .quote content =>
    "<blockquote>\n".toList ++ renderBlocks true content ++ "</blockquote>\n".toList
  | .list start tight items =>
    let name := if start.isSome then "ol".toList else "ul".toList
    let number := match start with
      | some n => if n = 1 then [] else " start=\"".toList ++ Text.ofNat n ++ ['"']
      | none => []
    ['<'] ++ name ++ number ++ ">\n".toList ++ renderItems tight items ++ "</".toList ++ name ++
      ">\n".toList

/-- Blocks as HTML, each on a line of its own; HTML itself stays where it is. `fresh` says whether a
line has just begun. -/
def renderBlocks (fresh : Bool) : List Block → Text
  | [] => []
  | .html t :: bs => t ++ renderBlocks true bs
  | b :: bs => (if fresh then [] else ['\n']) ++ b.render ++ renderBlocks true bs

/-- The blocks of a tight item, whose paragraphs have no tags. -/
def renderTight (fresh : Bool) : List Block → Text
  | [] => []
  | .paragraph content :: bs => renderInlines content ++ renderTight false bs
  | .html t :: bs => t ++ renderTight true bs
  | b :: bs => (if fresh then [] else ['\n']) ++ b.render ++ renderTight true bs

/-- The items of a list as HTML. -/
def renderItems (tight : Bool) : List (List Block) → Text
  | [] => []
  | item :: items =>
    "<li>".toList ++ (if tight then renderTight false item else renderBlocks false item) ++
      "</li>\n".toList ++ renderItems tight items

end

end TerseMarkup.Markdown
