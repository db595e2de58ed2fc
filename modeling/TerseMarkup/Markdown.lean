import TerseMarkup.Markdown.Container

/-!
# Markdown

Reads Markdown without its tables, footnotes and link definitions: headings, paragraphs, rules,
code, HTML, block quotes and lists, with emphasis, code spans, links and images in their text.
`Markdown.toHtml` gives the HTML of a document.
-/

namespace TerseMarkup.Markdown

/-! ## Blocks of several lines -/

/-- The part of a line inside its containers, as a line of a paragraph, with the character in front
of it. -/
def paragraphLine (text : Text) (row : Row) : Char × Row :=
  ((row.text.take (row.text.length - text.length)).getLast?.getD '\n', ⟨text, row.ending⟩)

/-- The further lines of a paragraph, the level if it turns out to be a heading, and the rest. Any
line with text goes on a paragraph, also outside its containers, unless it starts something else;
an underline counts only inside them. -/
def paragraphLines (containers : List Container) :
    List Row → List (Char × Row) × Option Nat × List Row
  | [] => ([], none, [])
  | row :: rest =>
    let r := reach (.ofRow row) containers
    let start := if r.rest.indent ≤ 3 then some r.rest.body else none
    match if r.isInside then start.bind underline? else none with
    | some level => ([], some level, rest)
    | none =>
      if r.rest.text.all isGap || start.any (interrupts r.isInside) then
        ([], none, row :: rest)
      else
        let (more, level, after) := paragraphLines containers rest
        (paragraphLine r.rest.text row :: more, level, after)

/-- The content of a paragraph. -/
def paragraphContent (lines : List (Char × Row)) : List Inline :=
  inlinesBehind (lines.map Prod.fst) (dropWhileEnd isLineSpace (rowsText (lines.map Prod.snd)))

/-- A line of code. A line feed ends it, if anything does. -/
def codeLine (t : Tail) (row : Row) : Text :=
  t.spaced ++ if row.ending.isEmpty then [] else ['\n']

/-- The further lines of indented code, and the rest. -/
def codeLines (containers : List Container) : List Row → List Text × List Row
  | [] => ([], [])
  | row :: rest =>
    let r := reach (.ofRow row) containers
    let (missing, content) := r.rest.skip 4
    if r.isInside && (missing = 0 || content.text.isEmpty) then
      let (more, after) := codeLines containers rest
      (codeLine content row :: more, after)
    else ([], row :: rest)

/-- The lines behind a fence up to the one that closes it, and the rest. As many columns as stand
in front of the fence are dropped from each line. -/
def fencedLines (containers : List Container) (fence : Fence) (indent : Nat) :
    List Row → List Text × List Row
  | [] => ([], [])
  | row :: rest =>
    let r := reach (.ofRow row) containers
    if !r.isInside then ([], row :: rest)
    else if fence.closedBy r.rest then ([], rest)
    else
      let (more, after) := fencedLines containers fence indent rest
      (codeLine (r.rest.skip indent).2 row :: more, after)

/-- The further lines of a block of HTML, and the rest. -/
def htmlLines (containers : List Container) : HtmlEnd → List Row → List Text × List Row
  | _, [] => ([], [])
  | ending, row :: rest =>
    let r := reach (.ofRow row) containers
    if !r.isInside then ([], row :: rest)
    else
      match ending with
      | .mark t =>
        if (past? t row.text).isSome then ([codeLine r.rest row], rest)
        else
          let (more, after) := htmlLines containers ending rest
          (codeLine r.rest row :: more, after)
      | .blank =>
        if isEmptyLine r.rest.text then ([], row :: rest)
        else
          let (more, after) := htmlLines containers ending rest
          (codeLine r.rest row :: more, after)

/-- A block of HTML that starts with the line `row`, and the rest. -/
def htmlBlock (containers : List Container) (ending : HtmlEnd) (t : Tail) (row : Row)
    (rest : List Row) : Block × List Row :=
  let first := Text.copies t.indent ' ' ++ codeLine (t.skip 4).2 row
  let isWhole := match ending with
    | .mark m => (past? m t.body).isSome
    | .blank => false
  let (more, after) := if isWhole then ([], rest) else htmlLines containers ending rest
  (.html (first ++ more.flatten), after)

/-! ## Documents -/

/-- Reads a block that starts with the line `row`, whose part inside the open containers is `t`.
Gives the lines after it. -/
def readBlock (t : Tail) (row : Row) (rest : List Row) (r : Reading) : Reading × List Row :=
  let containers := r.containers.reverse
  if 4 ≤ t.indent then
    let (more, after) := codeLines containers rest
    let lines := dropWhileEnd isEmptyLine (codeLine (t.skip 4).2 row :: more)
    ({ r.put (.code [] lines.flatten) with
        afterBlank := (more.getLast?.map isEmptyLine).getD false }, after)
  else if let some ending := (htmlEnd? t.body).orElse fun _ =>
      if isTagLine t.body then some .blank else none then
    let (block, after) := htmlBlock containers ending t row rest
    (r.put block, after)
  else if isRule t.body then (r.put .rule, rest)
  else
    match heading? t.body, fence? t.body with
    | some (level, text), _ => (r.put (.heading level (headingContent text)), rest)
    | none, some fence =>
      let (lines, after) := fencedLines containers fence t.indent rest
      (r.put (.code fence.language lines.flatten), after)
    | none, none =>
      let (more, level, after) := paragraphLines containers rest
      let content := paragraphContent (paragraphLine t.body row :: more)
      match level with
      | some level => (r.put (.heading level content), after)
      | none => (r.put (.paragraph content), after)

/-- Reads lines. Each block takes one line at least, so that their number is enough fuel. -/
def readLines : (fuel : Nat) → List Row → Reading → Reading
  | 0, _, r => r
  | _, [], r => r
  | fuel + 1, row :: rest, r =>
    let (r, t) := r.follow (.ofRow row)
    match r.enter (t.text.length + 1) t with
    | (r, none) => readLines fuel rest r
    | (r, some t) =>
      if isEmptyLine t.text then readLines fuel rest r.passBlank
      else
        let (r, after) := readBlock t row rest r.endList
        readLines fuel after r

/-- Reads a document. -/
def ofText (t : Text) : List Block :=
  (readLines (rows t).length (rows t) {}).finish

/-- The HTML of a document. -/
def toHtml (t : Text) : Text :=
  renderBlocks true (ofText t)

end TerseMarkup.Markdown
