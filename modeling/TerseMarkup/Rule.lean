import TerseMarkup.Headline

/-!
# Rules

A rule recognises some lines and says what they announce. Besides, it tells which part of the line
it has looked at and how it has cut that part up, under names.
-/

namespace TerseMarkup

/-- What a rule sees in a line. -/
structure Recognition where
  /-- The leading part of the line that the rule has looked at. -/
  matched : Text
  /-- The named pieces of that part; a piece may be missing. -/
  parts : List (String × Option Text)
  /-- What the line announces. -/
  headline : Headline

/-- An entry of the table of rules. -/
structure Rule where
  /-- The name under which the rule can be taken out of a table. -/
  name : String
  /-- What the rule sees in a line, if it recognises it. -/
  recognise : Text → Option Recognition

namespace Rule

/-- A rule for lines of a certain start, which it looks at up to their end. -/
def byStart (name : String) (starts : Text → Bool) (headline : Text → Headline) : Rule where
  name := name
  recognise line := if starts line then some ⟨line.firstLine, [], headline line⟩ else none

/-- A dash and the blanks behind it, and what follows them. -/
def dash? : Text → Option (Text × Text)
  | [] => none
  | c :: t => if c = '-' then some (c :: t.takeWhile isBlank, t.dropWhile isBlank) else none

/-- A dash and one of `words`: the part up to the word, the word, and what follows it. -/
def dashWord? (words : List String) (line : Text) : Option (Text × Text × Text) :=
  match dash? line with
  | none => none
  | some (lead, t) => (Text.word? (words.map String.toList) t).map fun (w, rest) => (lead, w, rest)

/-- The blanks at the front of a text with the rest of the line behind them; nothing if there are
no blanks. -/
def spacedRest (t : Text) : Text :=
  if t.takeWhile isBlank = [] then []
  else t.takeWhile isBlank ++ Text.firstLine (t.dropWhile isBlank)

/-- A rule for a dash and a word; the rest of the line follows directly. -/
def byWord (name : String) (words : List String) (wordPart : String)
    (headline : Text → Text → Headline) : Rule where
  name := name
  recognise line :=
    (dashWord? words line).map fun (lead, word, rest) =>
      { matched := lead ++ word ++ rest.firstLine
        parts := [(wordPart, some word), ("expr", some rest.firstLine)]
        headline := headline word rest.firstLine }

/-- A rule for a dash and a word, with the rest of the line behind blanks. The word and the rest
are one piece. -/
def bySpacedWord (name : String) (words : List String) (headline : Text → Headline) : Rule where
  name := name
  recognise line :=
    (dashWord? words line).map fun (lead, word, rest) =>
      { matched := lead ++ word ++ spacedRest rest
        parts := [("line", some (word ++ spacedRest rest))]
        headline := headline (word ++ spacedRest rest) }

/-- A rule for a dash and a word; what follows the word is not looked at. -/
def byBareWord (name : String) (words : List String) (wordPart : String)
    (headline : Text → Headline) : Rule where
  name := name
  recognise line :=
    (dashWord? words line).map fun (lead, word, rest) =>
      { matched := lead ++ word ++ rest.takeWhile isBlank
        parts := [(wordPart, some word)]
        headline := headline word }

end Rule

end TerseMarkup
