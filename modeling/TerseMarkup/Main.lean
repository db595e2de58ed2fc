import TerseMarkup.CommandLine
import TerseMarkup.Markdown

/-!
# The program

Reads what the arguments name, runs `CommandLine.run` on it, with `Markdown.toHtml` for blocks of
Markdown, and carries out the outcome. The file system is only asked for files by name. So the paths
of what is in a folder of templates are read from standard input, one on a line, as in
`find pages | plimc pages`. A link is taken for a file of its own.
-/

namespace TerseMarkup.Main

/-- Everything that is still to be read from a stream. -/
partial def readAll (stream : IO.FS.Stream) (read : ByteArray) : IO ByteArray := do
  let more ← stream.read 65536
  if more.isEmpty then return read else readAll stream (read ++ more)

/-- What the file system has at a path. -/
def probe (path : Path) : IO (Option Entry) := do
  match ← (IO.FS.readBinFile (String.ofList (FileTree.pathText path))).toBaseIO with
  | .ok bytes => return some (.ofBytes bytes)
  | .error (.inappropriateType _ 21 _) => return some .folder
  | .error _ => return none

/-- Puts into a tree what the file system has at a path and on the way to it. -/
def look (tree : FileTree) (text : Text) : IO FileTree := do
  let path := (FileTree.names text).foldl FileTree.enter []
  (FileTree.foldersTo path ++ [path]).foldlM
    (fun tree path => do
      if FileTree.isGiven path then return tree
      match ← probe path with
      | some entry => return tree.put path entry
      | none => return tree)
    tree

/-- Whether the arguments ask for all templates of a folder. -/
def wantsFolder (a : CommandLine.Arguments) (files : FileTree) : Bool :=
  !a.stdin && a.output.isNone && files.find? (a.source.getD []) == some .folder

/-- The paths that are listed in a file, one on a line. -/
def listed : Entry → List Text
  | .text paths => paths.lines.map Text.dropTerminator
  | _ => []

/-- What is read for the arguments: standard input and the files that they name, with all that is
listed on standard input if they name a folder. -/
def gather (words : List Text) : IO CommandLine.Input := do
  let start ← IO.monoMsNow
  match CommandLine.Request.ofWords words with
  | .compile a =>
    let named := [a.source, a.output, a.delimiters].filterMap id
    let files ← named.foldlM look { entries := [] }
    let stdin ← if a.stdin || wantsFolder a files then do
        pure (Entry.ofBytes (← readAll (← IO.getStdin) .empty))
      else pure (.text [])
    let files ← if wantsFolder a files then (listed stdin).foldlM look files else pure files
    let elapsed := Text.ofNat ((← IO.monoMsNow) - start) ++ "ms".toList
    return ⟨words, stdin, files, elapsed⟩
  | _ => return ⟨words, .text [], { entries := [] }, []⟩

/-- Writes the files that have changed. -/
def store (before after : FileTree) : IO Unit := do
  for (path, entry) in after.changesFrom before do
    if let .text content := entry then
      IO.FS.writeFile (String.ofList (FileTree.pathText path)) (String.ofList content)

/-- Carries out what the command comes to. -/
def carryOut (before : FileTree) (outcome : CommandLine.Outcome) : IO UInt32 := do
  store before outcome.files
  (← IO.getStdout).putStr (String.ofList outcome.out)
  (← IO.getStderr).putStr (String.ofList outcome.err)
  return outcome.exit.toUInt32

end TerseMarkup.Main

/-- Runs the command on the words behind it. -/
def main (args : List String) : IO UInt32 := do
  let input ← TerseMarkup.Main.gather (args.map String.toList)
  TerseMarkup.Main.carryOut input.files
    (TerseMarkup.CommandLine.run TerseMarkup.Markdown.toHtml input)
