import TerseMarkup.CommandLine.Arguments
import TerseMarkup.CommandLine.FileTree
import TerseMarkup.Compile
import TerseMarkup.Diagnostic.Report
import TerseMarkup.Json.Read

/-!
# The command

`CommandLine.run` is the command as a function: from the words behind it, standard input and a file
tree to what it prints, its exit code and the file tree afterwards. What turns Markdown into HTML is
a parameter.
-/

namespace TerseMarkup.CommandLine

/-- What the command works on. -/
structure Input where
  /-- The words behind the command. -/
  words : List Text
  /-- Standard input. -/
  stdin : Entry
  /-- The files it can see. -/
  files : FileTree
  /-- How long it takes, in words, for the summary. -/
  elapsed : Text

/-- What the command comes to. -/
structure Outcome where
  /-- The exit code. -/
  exit : Nat
  /-- What is printed to standard output. -/
  out : Text
  /-- What is printed to standard error. -/
  err : Text
  /-- The files afterwards. -/
  files : FileTree
  deriving DecidableEq, Repr

/-- The line that says why the command has failed. -/
def errorLine (message : Text) : Text :=
  "Error: ".toList ++ message ++ ['\n']

/-- The line that says that a file has been written. -/
def writtenLine (path : Text) : Text :=
  "  ✓ ".toList ++ path ++ ['\n']

/-- A failure with nothing done. -/
def failed (files : FileTree) (message : Text) : Outcome :=
  ⟨1, [], errorLine message, files⟩

/-- The message for a file that cannot be read. -/
def unreadable (path : Text) (fault : FileFault) : Text :=
  "failed to read ".toList ++ path ++ ": ".toList ++ fault.message

/-- The message for a file that cannot be written. -/
def unwritable (path : Text) (fault : FileFault) : Text :=
  "failed to write ".toList ++ path ++ ": ".toList ++ fault.message

/-! ## Profiles -/

/-- The text of a JSON string. -/
def stringValue? : Json → Option Text
  | .string t => some t
  | _ => none

/-- The delimiters with those of a JSON object over them; nothing if one of them is no string. -/
def overrideWith (d : Delimiters) (members : List (Text × Json)) : Option Delimiters :=
  let given (key : String) : Option Json := Json.member key.toList members
  if d.fields.all fun (key, _) => ((given key).map fun v => (stringValue? v).isSome).getD true then
    some (d.override fun key => (given key).bind stringValue?)
  else none

/-- The profile with the given name, with delimiters from a file over its own; or the message why
there is none. -/
def loadProfile (markdown : Transpiler) (files : FileTree) (name : Text) (path : Option Text) :
    Except Text Profile := do
  let p ← (Profile.named? markdown name []).mapError Diagnostic.message
  match path with
  | none => return p
  | some path =>
    let text ← (files.readText path).mapError (unreadable path)
    match Json.ofText? text with
    | none => throw ("invalid JSON in ".toList ++ path)
    | some (.object members) =>
      match overrideWith p.delimiters members with
      | some d => return { p with delimiters := d }
      | none => throw ("invalid delimiters in ".toList ++ path)
    | some _ => throw (path ++ " must contain a JSON object".toList)

/-! ## One template -/

/-- The result as a JSON object. -/
def jsonResult : Except Diagnostic Text → Json
  | .ok code => .object [("code".toList, .string code)]
  | .error e => .object [("error".toList, e.toJson)]

/-- Compiles one template. `name` is what it is called in reports. -/
def compileOne (a : Arguments) (p : Profile) (files : FileTree) (source name : Text) : Outcome :=
  let result := p.compile {} source
  if a.json then
    ⟨if result.isOk then 0 else 1, (jsonResult result).render ++ ['\n'], [], files⟩
  else
    match result with
    | .error e => ⟨1, [], e.report .plain source name ++ ['\n'], files⟩
    | .ok code =>
      match a.output with
      | none => ⟨0, code ++ ['\n'], [], files⟩
      | some path =>
        match files.writeText path (code ++ ['\n']) with
        | .ok files => ⟨0, [], writtenLine path, files⟩
        | .error fault => failed files (unwritable path fault)

/-! ## Folders of templates -/

/-- How far the work on a folder has come. -/
structure Progress where
  files : FileTree
  err : Text
  compiled : Nat
  rejected : Nat
  deriving DecidableEq, Repr

/-- Whether a path has the extension of templates. -/
def isTemplate (path : Text) : Bool :=
  FileTree.extension? path == some "plim".toList

/-- The extension of compiled templates. -/
def targetExtension (p : Profile) : Text :=
  if p.name = "django".toList then "html".toList else "mako".toList

/-- Compiles one template of a folder; a file that cannot be read or written ends the work with a
message. -/
def compileTemplate (p : Profile) (progress : Progress) (path : Text) :
    Except (Progress × Text) Progress := do
  let source ← (progress.files.readText path).mapError fun fault =>
    (progress, unreadable path fault)
  match p.compile {} source with
  | .ok code =>
    let target := FileTree.withExtension path (targetExtension p)
    let files ← (progress.files.writeText target (code ++ ['\n'])).mapError fun fault =>
      (progress, unwritable target fault)
    return { progress with
      files, err := progress.err ++ writtenLine target, compiled := progress.compiled + 1 }
  | .error e =>
    return { progress with
      err := progress.err ++ e.report .plain source path ++ ['\n'],
      rejected := progress.rejected + 1 }

/-- The line that sums up the work on a folder. -/
def summary (p : Profile) (progress : Progress) (elapsed : Text) : Text :=
  let rejected := if progress.rejected = 0 then []
    else ", ".toList ++ Text.ofNat progress.rejected ++ " failed".toList
  "\nplimc: ".toList ++ Text.ofNat progress.compiled ++ " template".toList ++
    (if progress.compiled = 1 then [] else ['s']) ++ " -> ".toList ++ p.name ++ " in ".toList ++
    elapsed ++ rejected ++ ['\n']

/-- Compiles the templates among the given paths, each into a file beside it. The paths are those of
all entries of a folder, in the order in which they are visited. -/
def compileVisited (p : Profile) (files : FileTree) (folder elapsed : Text) (visited : List Text) :
    Outcome :=
  match (visited.filter isTemplate).foldlM (compileTemplate p) ⟨files, [], 0, 0⟩ with
  | .error (progress, message) => ⟨1, [], progress.err ++ errorLine message, progress.files⟩
  | .ok progress =>
    if progress.compiled = 0 ∧ progress.rejected = 0 then
      failed files ("no .plim files found in ".toList ++ folder)
    else
      let err := progress.err ++ summary p progress elapsed
      if progress.rejected = 0 then ⟨0, [], err, progress.files⟩
      else
        let message := Text.ofNat progress.rejected ++ " template(s) failed to compile".toList
        ⟨1, [], err ++ errorLine message, progress.files⟩

/-- Compiles all templates of a folder. -/
def compileFolder (p : Profile) (files : FileTree) (folder elapsed : Text) : Outcome :=
  compileVisited p files folder elapsed (files.below folder)

/-! ## The command -/

/-- Whether an encoding is the one that is supported, under either of its names. -/
def isSupported (encoding : Text) : Bool :=
  let name := encoding.map Char.toLower
  name == "utf-8".toList || name == "utf8".toList

/-- Compiles what the arguments name. -/
def compile (markdown : Transpiler) (a : Arguments) (input : Input) : Outcome :=
  let files := input.files
  let encoding := a.encoding.getD "utf-8".toList
  if !isSupported encoding then
    failed files ("unsupported encoding '".toList ++ encoding ++
      "': only utf-8 is supported".toList)
  else
    match loadProfile markdown files (a.dialect.getD "mako".toList) a.delimiters with
    | .error message => failed files message
    | .ok p =>
      if a.stdin then
        match input.stdin with
        | .text source => compileOne a p files source "<stdin>".toList
        | _ => failed files (unreadable "stdin".toList .notText)
      else
        let path := a.source.getD []
        match files.find? path with
        | none => failed files (path ++ " does not exist".toList)
        | some .folder =>
          if a.output.isSome then
            failed files "--output only applies to a single source file".toList
          else compileFolder p files path input.elapsed
        | some _ =>
          match files.readText path with
          | .error fault => failed files (unreadable path fault)
          | .ok source => compileOne a p files source path

/-- The name and the version of the command. -/
def versionLine : Text :=
  "plimc 0.1.0\n".toList

/-- How the command is used. -/
def usage : Text :=
  ("Usage: plimc [OPTIONS] [SOURCE]\n\n" ++
    "      --stdin                Read the template from stdin\n" ++
    "  -o, --output <FILE>        Write the result to this file\n" ++
    "  -e, --encoding <NAME>      Source encoding; only UTF-8 is supported\n" ++
    "  -p, --preprocessor <NAME>  Target dialect: mako or django\n" ++
    "      --delimiters <FILE>    JSON file with delimiters to use\n" ++
    "      --json                 Print the result (or the error) as JSON\n" ++
    "  -v, --verbose              Say more about the work\n" ++
    "  -h, --help                 Print help\n" ++
    "  -V, --version              Print version\n").toList

/-- Runs the command. -/
def run (markdown : Transpiler) (input : Input) : Outcome :=
  match Request.ofWords input.words with
  | .misuse => ⟨2, [], usage, input.files⟩
  | .version => ⟨0, versionLine, [], input.files⟩
  | .help => ⟨0, usage, [], input.files⟩
  | .compile a => compile markdown a input

end TerseMarkup.CommandLine
