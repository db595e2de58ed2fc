import TerseMarkup.Markdown.Punctuation

/-!
# HTML inside Markdown

Tags, comments and declarations in angle brackets stay as they are, and an address in angle
brackets is a link. `t` is always the text behind the opening bracket, and what a function gives is
the text that follows.
-/

namespace TerseMarkup.Markdown

/-- What follows the first `mark` in a text. -/
def past? (mark : Text) : Text → Option Text
  | [] => Text.after? mark []
  | c :: t =>
    match Text.after? mark (c :: t) with
    | some rest => some rest
    | none => past? mark t

/-! ## Tags -/

/-- Goes past the name of a tag. -/
def tagName? : Text → Option Text
  | [] => none
  | c :: t => if c.isAlpha then some (t.dropWhile fun c => c.isAlphanum || c == '-') else none

/-- Goes past the name of an attribute. -/
def attributeName? : Text → Option Text
  | [] => none
  | c :: t =>
    if c.isAlpha || c == '_' || c == ':' then
      some (t.dropWhile fun c => c.isAlphanum || "_.:-".toList.contains c)
    else none

/-- Goes past the value of an attribute. -/
def attributeValue? : Text → Option Text
  | [] => none
  | c :: t =>
    let ends (c : Char) : Bool := "'\" =><\x60\n\r".toList.contains c
    if c = '"' || c = '\'' then past? [c] t
    else if ends c then none
    else some (t.dropWhile (!ends ·))

/-- Goes past an attribute; it may have no value. -/
def attribute? (t : Text) : Option Text := do
  let rest ← attributeName? t
  match Text.after? ['='] (dropSpaces rest) with
  | some value => attributeValue? (dropSpaces value)
  | none => some rest

/-- Goes past attributes up to the end of a tag. Each has a blank in front of it. -/
def attributes? : (fuel : Nat) → Text → Option Text
  | 0, _ => none
  | fuel + 1, t =>
    let rest := dropSpaces t
    match rest with
    | [] => none
    | c :: _ =>
      if c = '/' || c = '>' then some rest
      else if rest.length = t.length then none
      else (attribute? rest).bind (attributes? fuel)

/-- Goes past an opening or a closing tag. -/
def tag? (t : Text) : Option Text :=
  match t with
  | '/' :: u => do
    let rest ← tagName? u
    Text.after? ['>'] (rest.dropWhile isLineSpace)
  | _ => do
    let rest ← tagName? t
    let rest ← attributes? (rest.length + 1) rest
    Text.after? ['>'] ((Text.after? ['/'] rest).getD rest)

/-! ## Comments and declarations -/

/-- Goes past a comment; `t` is the text behind its opening. -/
def comment? (t : Text) : Option Text :=
  match t with
  | '>' :: rest => some rest
  | '-' :: '>' :: rest => some rest
  | _ => past? "-->".toList t

/-- Goes past a declaration; `t` is the text behind its opening. -/
def declaration? (t : Text) : Option Text :=
  let rest := t.dropWhile Char.isAlpha
  if rest.length < t.length && (rest.head?.map isSpace).getD false then past? ['>'] rest else none

/-- Goes past a tag, a comment, an instruction, a declaration or marked text. -/
def rawHtml? (t : Text) : Option Text :=
  match t with
  | '!' :: '-' :: '-' :: u => comment? u
  | '!' :: u =>
    match Text.after? "[CDATA[".toList u with
    | some marked => past? "]]>".toList marked
    | none => declaration? u
  | '?' :: u => past? "?>".toList u
  | _ => tag? t

/-! ## Addresses -/

/-- The address of a resource, up to the closing bracket, and what follows. -/
def address? (t : Text) : Option (Text × Text) :=
  let scheme := t.takeWhile fun c => c.isAlphanum || c == '.' || c == '-' || c == '+'
  let address := t.takeWhile fun c => ' ' < c && c != '<' && c != '>'
  if (t.head?.map Char.isAlpha).getD false && 2 ≤ scheme.length && scheme.length ≤ 32 &&
      (t.drop scheme.length).head? == some ':' then
    (Text.after? ['>'] (t.drop address.length)).map fun rest => (address, rest)
  else none

/-- Whether a text is a label of a domain name. -/
def isLabel (t : Text) : Bool :=
  !t.isEmpty && t.length ≤ 63 && t.all (fun c => c.isAlphanum || c == '-') &&
    t.head? != some '-' && t.getLast? != some '-'

/-- A mail address, up to the closing bracket, and what follows. -/
def mailAddress? (t : Text) : Option (Text × Text) :=
  let user := t.takeWhile fun c => c.isAlphanum || ".!#$%&'*+/=?^_\x60\x7b|\x7d~-".toList.contains c
  let domain := (t.drop (user.length + 1)).takeWhile (· != '>')
  if !user.isEmpty && (t.drop user.length).head? == some '@' &&
      ((String.ofList domain).splitOn ".").all (isLabel ·.toList) then
    let address := user ++ '@' :: domain
    (Text.after? ['>'] (t.drop address.length)).map fun rest => (address, rest)
  else none

end TerseMarkup.Markdown
