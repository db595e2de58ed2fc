import TerseMarkup.Text

/-!
# Command-line arguments

What the words behind the command mean. Options have a long name and some a letter; the value of an
option is the next word, or stands behind the name (`--name=value`) or the letter (`-xvalue`,
`-x=value`). No option may be given twice. Two dashes end the options.
-/

namespace TerseMarkup.CommandLine

/-- What the command is to do. -/
structure Arguments where
  /-- The file or folder to compile. -/
  source : Option Text
  /-- Whether the template comes from standard input. -/
  stdin : Bool
  /-- The file to write to. -/
  output : Option Text
  /-- The encoding of the source. -/
  encoding : Option Text
  /-- The name of the target dialect. -/
  dialect : Option Text
  /-- A file with delimiters to use in place of the dialect's own. -/
  delimiters : Option Text
  /-- Whether the result is written as JSON. -/
  json : Bool
  /-- Whether to say more about the work. -/
  verbose : Bool
  deriving DecidableEq, Repr

/-- What the arguments ask for. -/
inductive Request where
  | compile (a : Arguments)
  | version
  | help
  /-- The arguments make no sense. -/
  | misuse
  deriving DecidableEq, Repr

/-- An option without a value. -/
inductive Switch where
  | stdin
  | json
  | verbose
  | version
  | help
  deriving DecidableEq, Repr

/-- An option with a value. -/
inductive Slot where
  | output
  | encoding
  | dialect
  | delimiters
  deriving DecidableEq, Repr

/-- An option. -/
inductive Flag where
  | switch (s : Switch)
  | slot (s : Slot)
  deriving DecidableEq, Repr

/-- The option with a long name. -/
def longFlag? (name : Text) : Option Flag :=
  [("stdin".toList, Flag.switch .stdin), ("json".toList, .switch .json),
    ("verbose".toList, .switch .verbose), ("version".toList, .switch .version),
    ("help".toList, .switch .help), ("output".toList, .slot .output),
    ("encoding".toList, .slot .encoding), ("preprocessor".toList, .slot .dialect),
    ("delimiters".toList, .slot .delimiters)].lookup name

/-- The option with a letter. -/
def letterFlag? (c : Char) : Option Flag :=
  [('v', Flag.switch .verbose), ('V', .switch .version), ('h', .switch .help),
    ('o', .slot .output), ('e', .slot .encoding), ('p', .slot .dialect)].lookup c

namespace Arguments

/-- No arguments at all. -/
def none : Arguments :=
  ⟨.none, false, .none, .none, .none, .none, false, false⟩

/-- Turns a switch on, unless it is on. -/
def turnOn? (a : Arguments) : Switch → Option Arguments
  | .stdin => if a.stdin then .none else some { a with stdin := true }
  | .json => if a.json then .none else some { a with json := true }
  | .verbose => if a.verbose then .none else some { a with verbose := true }
  | .version | .help => some a

/-- Fills a slot, unless it is full. A path cannot be empty. -/
def fill? (a : Arguments) (slot : Slot) (value : Text) : Option Arguments :=
  match slot with
  | .output =>
    if a.output.isSome || value.isEmpty then .none else some { a with output := some value }
  | .encoding => if a.encoding.isSome then .none else some { a with encoding := some value }
  | .dialect => if a.dialect.isSome then .none else some { a with dialect := some value }
  | .delimiters =>
    if a.delimiters.isSome || value.isEmpty then .none
    else some { a with delimiters := some value }

/-- Names the source, unless it is named. -/
def nameSource? (a : Arguments) (value : Text) : Option Arguments :=
  if a.source.isSome || value.isEmpty then .none else some { a with source := some value }

end Arguments

/-- How the reading of a word goes on. -/
inductive Reading where
  /-- With the next word. -/
  | next (a : Arguments)
  /-- With the next word, which is the value for a slot. -/
  | value (a : Arguments) (slot : Slot)
  /-- Not at all: this is what the arguments ask for. -/
  | done (r : Request)
  deriving DecidableEq, Repr

/-- Goes on with the next word if there are still arguments that make sense. -/
def Reading.ofOption (a : Option Arguments) : Reading :=
  match a with
  | some a => .next a
  | none => .done .misuse

/-- Turns a switch on. -/
def readSwitch (a : Arguments) (s : Switch) : Reading :=
  match s with
  | .version => .done .version
  | .help => .done .help
  | s => .ofOption (a.turnOn? s)

/-- Reads a long option, with the part behind its name. -/
def readLong (a : Arguments) (t : Text) : Reading :=
  let name := t.takeWhile (· != '=')
  let given := Text.after? ['='] (t.drop name.length)
  match longFlag? name, given with
  | none, _ => .done .misuse
  | some (.switch _), some _ => .done .misuse
  | some (.switch s), none => readSwitch a s
  | some (.slot s), some value => .ofOption (a.fill? s value)
  | some (.slot s), none => .value a s

/-- Reads options given as letters behind one dash. -/
def readLetters (a : Arguments) : Text → Reading
  | [] => .next a
  | c :: t =>
    match letterFlag? c with
    | none => .done .misuse
    | some (.slot s) =>
      if t.isEmpty then .value a s
      else .ofOption (a.fill? s ((Text.after? ['='] t).getD t))
    | some (.switch s) =>
      match readSwitch a s with
      | .next a => readLetters a t
      | other => other

/-- Whether a word is an option and not a value. -/
def isFlagWord (word : Text) : Bool :=
  word.head? == some '-' && word != ['-']

/-- What the arguments ask for once all words are read. -/
def finish (a : Arguments) : Request :=
  if a.source.isNone && !a.stdin then .misuse else .compile a

/-- Reads words that are no options. -/
def readPlain (a : Arguments) : List Text → Request
  | [] => finish a
  | word :: words =>
    match a.nameSource? word with
    | some a => readPlain a words
    | none => .misuse

/-- Reads a word that does not end the options. -/
def readWord (a : Arguments) (word : Text) : Reading :=
  match Text.after? ['-', '-'] word with
  | some t => readLong a t
  | none =>
    if isFlagWord word then readLetters a (word.drop 1) else .ofOption (a.nameSource? word)

/-- Reads the words behind the command. -/
def readWords (a : Arguments) : List Text → Request
  | [] => finish a
  | word :: words =>
    if word = ['-', '-'] then readPlain a words
    else
      match readWord a word with
      | .done r => r
      | .next a => readWords a words
      | .value a slot =>
        match words with
        | [] => .misuse
        | value :: words =>
          if isFlagWord value then .misuse
          else
            match a.fill? slot value with
            | some a => readWords a words
            | none => .misuse

/-- What the words behind the command ask for. -/
def Request.ofWords (words : List Text) : Request :=
  readWords .none words

end TerseMarkup.CommandLine
