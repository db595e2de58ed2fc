import TerseMarkup.Block
import TerseMarkup.Element
import TerseMarkup.Headline

/-!
# Reading headlines

`Headline.opening` reads a headline at a given indentation, with the blocks of raw lines that
belong to it, and says what to write and where its content comes from.
-/

namespace TerseMarkup

/-! ## Elements -/

/-- A headline that is an element: its content is the rest of the line or the deeper lines. -/
def openElement (s : Setting) (disguise : Option Disguise) (line : Text) : Scan Opening := do
  let e ← Element.read s disguise line.trim
  if e.rest.isEmpty then return .block e.opened e.closed
  else return .inline e.opened e.closed e.rest

/-- A client-side template is a script element of its own type. -/
def scriptTemplate : Disguise :=
  ⟨"script".toList, "type=\"text/x-handlebars\"".toList⟩

/-- An element whose deeper lines are copied as they are. -/
def openVerbatim (s : Setting) (level : Nat) (line : Text) : Scan Opening := do
  let e ← Element.read s none line.trim
  let (body, next) ← verbatimBlock s level
  return .leaf (e.opened ++ ['\n'] ++ body ++ e.closed) next

/-! ## Text and values -/

/-- A value goes on over the deeper lines, each of them trimmed. -/
def openValue (s : Setting) (level : Nat) (unescaped spaced : Bool) (expr : Text) :
    Scan Opening := do
  let (block, next) ← rawBlock level
  let expr := expr.trimEnd ++ (block.map fun raw => (Line.ofRaw raw).body.trim).flatten
  let expr := if unescaped then s.delimiters.withoutEscaping expr else expr
  return .leaf (s.delimiters.value expr ++ if spaced then [' '] else []) next

/-- A block in another markup language goes through the transpiler for it. -/
def openMarkup (s : Setting) (level : Nat) (language : Text) : Scan Opening := do
  match s.transpiler? language with
  | none => Scan.fail (.noTranspiler language (← Scan.lineNumber))
  | some transpile =>
    let (body, next) ← verbatimBlock s level
    return .leaf (Text.trim (transpile body)) next

/-! ## Statements -/

/-- The expression of a statement, and the rest of the line behind its colon. -/
def splitStatement (d : Delimiters) (t : Text) : Scan (Text × Text) := do
  let expr ← expression t
  match ← token? d.placeholder [] [[':'], ['\n']] expr with
  | some (head, rest) => return (head.trimStart, Text.trimStart (rest.drop 1))
  | none => return ([], [])

/-- The rest of the line behind the first colon, if that is all that counts. -/
def restAfterColon (d : Delimiters) (t : Text) : Scan Text := do
  match ← token? d.placeholder [] [[':'], ['\n']] t with
  | some (_, rest) => return Text.trimStart (rest.drop 1)
  | none => return []

/-- A line of its own that starts a statement or a clause. -/
def statementLine (d : Delimiters) (content : Text) : Text :=
  ['\n'] ++ d.statement content ++ ['\n']

/-- The line of its own that ends a statement. -/
def statementEndLine (d : Delimiters) (keyword : Text) : Text :=
  ['\n'] ++ d.statementEnd keyword ++ ['\n']

/-- A control statement. -/
def openStatement (d : Delimiters) (keyword t : Text) : Scan Opening := do
  if t.trim.isEmpty then return .statement (statementLine d keyword) keyword []
  else
    let (expr, rest) ← splitStatement d t
    return .statement (statementLine d (keyword ++ [' '] ++ expr)) keyword rest

/-- A control statement with its condition negated. -/
def openNegated (d : Delimiters) (keyword t : Text) : Scan Opening := do
  let expr ← expression t
  openStatement d keyword (" not (".toList ++ expr ++ [')'])

/-- A jump out of the code. -/
def jumpLine (d : Delimiters) (keyword : Text) : Text :=
  ['\n'] ++ d.codeStart ++ [' '] ++ keyword ++ [' '] ++ d.codeEnd ++ ['\n']

/-! ## Code -/

/-- Code on the headline, if it is more than blanks, and on the deeper lines. Without any there is
nothing to write. -/
def openCode (s : Setting) (level : Nat) (moduleLevel : Bool) (expr : Option Text) :
    Scan Opening := do
  let first := (expr.map Text.trim).filter (!·.isEmpty)
  let (body, next) ← verbatimBlock s level
  if first.isNone && body.isEmpty then return .leaf [] next
  else
    let mark := if moduleLevel then ['!'] else []
    let first := (first.map (· ++ ['\n'])).getD []
    return .leaf (s.delimiters.codeStart ++ mark ++ ['\n'] ++ first ++ body.trimEnd ++ ['\n'] ++
      s.delimiters.codeEnd ++ ['\n']) next

/-- Code behind a fence; a second fence ends the code on the headline. -/
def openFencedCode (s : Setting) (level : Nat) (moduleLevel : Bool) :
    Option Text → Scan Opening
  | none => openCode s level moduleLevel none
  | some t => do
    let found ← token? s.delimiters.placeholder [] ["---".toList, ['\n']] t
    openCode s level moduleLevel (found.map Prod.fst)

/-! ## Tags of the template engine -/

/-- The attributes of an element behind a space, if it has any. -/
def Element.spacedAttributes (e : Element) : Text :=
  if e.attributes.isEmpty then [] else [' '] ++ e.attributes

/-- The opening tag of the template engine with the given name. -/
def engineTag (name attributes : Text) : Text :=
  "<%".toList ++ name ++ attributes ++ ">\n".toList

/-- The closing tag of the template engine with the given name. -/
def engineEndTag (name : Text) : Text :=
  "</%".toList ++ name ++ ">\n".toList

/-- A named piece of template. -/
def openDefinition (s : Setting) (line : Text) : Scan Opening := do
  let e ← Element.read s none line
  let name := e.content.trim
  let named := if name.isEmpty then [] else [' '] ++ attributePair "name".toList name
  return .block (engineTag e.name (named ++ e.spacedAttributes)) (engineEndTag e.name)

/-- A tag without content; what follows the name is a file. -/
def openDirective (s : Setting) (level : Nat) (line : Text) : Scan Opening := do
  let e ← Element.read s none line
  let file := if e.content.isEmpty then [] else [' '] ++ attributePair "file".toList e.content
  return .leaf ("<%".toList ++ e.name ++ file ++ e.spacedAttributes ++ "/>".toList) ⟨level, []⟩

/-- A tag whose content, on the line and below it, is copied as it is. -/
def openShielded (s : Setting) (level : Nat) (line : Text) : Scan Opening := do
  let e ← Element.read s none line
  let (body, next) ← verbatimBlock s level
  let content := if e.content.isEmpty then [] else e.content ++ ['\n']
  let body := if body.isEmpty then [] else body.trimEnd ++ ['\n']
  return .leaf (['\n'] ++ engineTag e.name e.spacedAttributes ++ content ++ body ++
    engineEndTag e.name) next

/-- The first word of a text. -/
def firstWord (t : Text) : Text :=
  t.trimStart.takeWhile fun c => !isBlank c

/-- A call of a named piece of template, which has to be named. -/
def openCall (s : Setting) (headline line : Text) : Scan Opening := do
  let e ← Element.read s none line
  let target := e.content.trim
  if target.isEmpty then
    Scan.fail (.malformed "-call must contain namespace:defname declaration".toList headline
      (← Scan.lineNumber))
  else
    return .block (['\n'] ++ engineTag target e.spacedAttributes)
      (engineEndTag (firstWord target))

/-! ## All headlines -/

/-- Reads the headline `line` at the indentation `level`. -/
def Headline.opening (s : Setting) (level : Nat) (line : Text) : Headline → Scan Opening
  | verbatimElement => openVerbatim s level line
  | doctype name => return .leaf (Html.doctype name) ⟨level, []⟩
  | scriptTemplate => openElement s (some TerseMarkup.scriptTemplate) line
  | element => openElement s none line
  | literal text => do
    let (written, next) ← literalBlock s level text true
    return .leaf written next
  | html => return .block (line.trim ++ ['\n']) []
  | value unescaped spaced expr => openValue s level unescaped spaced expr
  | comment => do
    let (_, next) ← rawBlock level
    return .leaf [] next
  | statement keyword expr => openStatement s.delimiters keyword expr
  | negated keyword expr => openNegated s.delimiters keyword expr
  | fencedCode moduleLevel expr => openFencedCode s level moduleLevel expr
  | code moduleLevel expr => openCode s level moduleLevel expr
  | definition line => openDefinition s line
  | directive line => openDirective s level line
  | shielded line => openShielded s level line
  | call target => openCall s line target
  | jump keyword => return .leaf (jumpLine s.delimiters keyword) ⟨level, []⟩
  | markup language => openMarkup s level language
  | custom read => read s level line

end TerseMarkup
