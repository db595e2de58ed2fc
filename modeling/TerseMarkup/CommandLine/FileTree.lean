import TerseMarkup.Text

/-!
# File trees

The files and folders that a command works on, as a value. Paths are given as text and resolved
from the working folder. What can go wrong with a file is a `FileFault`.

Two paths can lead to one file. One of them is the place of the file then, and the others are links
to it, whether they are symbolic links or further names of the file. Reading and writing follow
links, and a walk over a folder shows them but does not go into them.
-/

namespace TerseMarkup

/-- The names of the folders on the way to an entry, and its own. -/
abbrev Path := List Text

/-- What a path leads to. -/
inductive Entry where
  | folder
  /-- A file that holds UTF-8 text. -/
  | text (content : Text)
  /-- A file that holds anything else. -/
  | binary
  deriving DecidableEq, Repr

/-- A file with the given bytes. -/
def Entry.ofBytes (bytes : ByteArray) : Entry :=
  match String.fromUTF8? bytes with
  | some s => .text s.toList
  | none => .binary

/-- Why a file cannot be read or written. -/
inductive FileFault where
  | missing
  | notFolder
  | isFolder
  | notText
  deriving DecidableEq, Repr

/-- The wording of a fault. -/
def FileFault.message : FileFault → Text
  | missing => "No such file or directory (os error 2)".toList
  | notFolder => "Not a directory (os error 20)".toList
  | isFolder => "Is a directory (os error 21)".toList
  | notText => "stream did not contain valid UTF-8".toList

/-- Files and folders by path, in the order in which a walk visits them, and links. -/
structure FileTree where
  entries : List (Path × Entry)
  /-- The paths that are links, each with the place where it leads in the end. -/
  links : List (Path × Path) := []
  deriving DecidableEq, Repr

namespace FileTree

/-- The folder above. -/
def parentName : Text := ['.', '.']

/-- The name of the root of the file system. -/
def rootName : Text := ['/']

/-- Whether a path is sure to lead to a folder: the working folder, one above it, or the root. -/
def isGiven (path : Path) : Bool :=
  path.all (· == parentName) || path == [rootName]

/-- What is at a path. -/
def get? (tree : FileTree) (path : Path) : Option Entry :=
  if isGiven path then some .folder else tree.entries.lookup path

/-- The tree with an entry put at a path, in place of any that was there. -/
def put (tree : FileTree) (path : Path) (entry : Entry) : FileTree :=
  { tree with
    entries :=
      if (tree.entries.lookup path).isSome then
        tree.entries.map fun (p, e) => if p = path then (p, entry) else (p, e)
      else tree.entries ++ [(path, entry)] }

/-- Where a path leads if it is a link, and the path itself otherwise. -/
def follow (tree : FileTree) (path : Path) : Path :=
  (tree.links.lookup path).getD path

/-- Looking a path up where the entry at another one has been replaced. -/
theorem lookup_map_replace (entries : List (Path × Entry)) (path p : Path) (entry : Entry) :
    (entries.map fun (q, e) => if q = path then (q, entry) else (q, e)).lookup p =
      if p = path then (entries.lookup p).map fun _ => entry else entries.lookup p := by
  induction entries with
  | nil => simp
  | cons head rest ih =>
    obtain ⟨q, e⟩ := head
    rw [List.map_cons]
    by_cases hp : p = q
    · subst hp
      by_cases hq : p = path <;> simp [hq]
    · have hne : (p == q) = false := by simpa using hp
      by_cases hq : q = path
      · subst hq
        simp [List.lookup_cons, hne, hp, ih]
      · simp [List.lookup_cons, hne, hq, ih]

/-- An entry at the end is found if there is none for its path in front. -/
theorem lookup_append_singleton (entries : List (Path × Entry)) (path p : Path) (entry : Entry) :
    (entries ++ [(path, entry)]).lookup p =
      (entries.lookup p).or (if p = path then some entry else none) := by
  induction entries with
  | nil =>
    by_cases hp : p = path
    · simp [hp]
    · have hne : (p == path) = false := by simpa using hp
      simp [List.lookup_cons, hne, hp]
  | cons head rest ih =>
    obtain ⟨q, e⟩ := head
    by_cases hp : p = q
    · simp [hp]
    · have hne : (p == q) = false := by simpa using hp
      simp [List.lookup_cons, hne, ih]

/-- Putting an entry changes what is at its path and nothing else. -/
theorem get?_put {p : Path} (hp : isGiven p = false) (tree : FileTree) (path : Path)
    (entry : Entry) :
    (tree.put path entry).get? p = if p = path then some entry else tree.get? p := by
  rw [get?, get?, hp, put]
  by_cases hsome : (tree.entries.lookup path).isSome = true
  · simp only [if_pos hsome]
    by_cases h : p = path
    · subst h
      obtain ⟨e, he⟩ := Option.isSome_iff_exists.1 hsome
      simp [lookup_map_replace, he]
    · simp [lookup_map_replace, h]
  · simp only [if_neg hsome]
    by_cases h : p = path
    · subst h
      have hnone : tree.entries.lookup p = none := Option.not_isSome_iff_eq_none.1 hsome
      simp [lookup_append_singleton, hnone]
    · simp [lookup_append_singleton, h]

/-! ## Paths as text -/

/-- A name behind the path of its folder. -/
def join (folder name : Text) : Text :=
  if folder.getLast? = some '/' then folder ++ name else folder ++ ['/'] ++ name

/-- The pieces of a path between slashes. -/
def pieces : Text → List Text
  | [] => [[]]
  | c :: t =>
    if c = '/' then [] :: pieces t
    else match pieces t with
      | [] => [[c]]
      | piece :: rest => (c :: piece) :: rest

/-- The names on a path. A path from the root of the file system has the slash as its first
name. -/
def names (path : Text) : List Text :=
  match pieces path with
  | [] :: piece :: rest => rootName :: piece :: rest
  | rest => rest

/-- One name further from a folder. -/
def enter (here : Path) (name : Text) : Path :=
  if name = [] ∨ name = ['.'] then here
  else if name ≠ parentName then here ++ [name]
  else if here = [rootName] then here
  else if isGiven here then here ++ [parentName]
  else here.dropLast

/-- Goes along names from a folder, and follows links. Only the last name may lead to nothing. -/
def walk (tree : FileTree) (here : Path) : List Text → Except FileFault Path
  | [] => .ok here
  | name :: rest =>
    match tree.get? here with
    | none => .error .missing
    | some .folder => tree.walk (tree.follow (enter here name)) rest
    | some _ => .error .notFolder

/-- Where a path leads. -/
def resolve (tree : FileTree) (path : Text) : Except FileFault Path :=
  tree.walk [] (names path)

/-- What a path leads to, if anything. -/
def find? (tree : FileTree) (path : Text) : Option Entry :=
  match tree.resolve path with
  | .ok p => tree.get? p
  | .error _ => none

/-- The path of an entry as text. -/
def pathText : Path → Text
  | [] => ['.']
  | name :: rest => rest.foldl join name

/-- The folders on the way to an entry, from the outside in. -/
def foldersTo (path : Path) : List Path :=
  (List.range path.length).map fun n => path.take n

/-- The tree that holds the given files, with all folders on the way to them. A path that ends in a
slash is a folder. -/
def ofFiles (files : List (Text × Entry)) : FileTree :=
  files.foldl
    (fun tree (text, entry) =>
      let path := (names text).foldl enter []
      let tree := (foldersTo path).foldl
        (fun tree folder => if (tree.get? folder).isSome then tree else tree.put folder .folder)
        tree
      tree.put path (if text.getLast? = some '/' then .folder else entry))
    { entries := [] }

/-- The entries of a tree that another tree does not have as they are. -/
def changesFrom (tree before : FileTree) : List (Path × Entry) :=
  tree.entries.filter fun (path, entry) => before.get? path != some entry

/-! ## Reading and writing -/

/-- The text of a file. -/
def readText (tree : FileTree) (path : Text) : Except FileFault Text := do
  match tree.get? (← tree.resolve path) with
  | none => .error .missing
  | some .folder => .error .isFolder
  | some .binary => .error .notText
  | some (.text content) => .ok content

/-- The tree after a text has been written to a file. A path with a slash at its end can only mean
a folder, and a link can lead to where no folder is. -/
def writeText (tree : FileTree) (path content : Text) : Except FileFault FileTree := do
  let target ← tree.resolve (path.reverse.dropWhile (· == '/')).reverse
  if tree.get? target = some .folder ∨ path.getLast? = some '/' then .error .isFolder
  else match tree.get? target.dropLast with
    | none => .error .missing
    | some .folder => .ok (tree.put target (.text content))
    | some _ => .error .notFolder

/-- The paths of all files, folders and links. -/
def paths (tree : FileTree) : List Path :=
  tree.entries.map Prod.fst ++ tree.links.map Prod.fst

/-- Everything in the folder that a path leads to, at any depth: the path itself first, then the
paths of the other entries and of the links behind it. -/
def below (tree : FileTree) (path : Text) : List Text :=
  match tree.resolve path with
  | .error _ => []
  | .ok folder =>
    let inside := tree.paths.filterMap fun p =>
      if folder.isPrefixOf p then some (p.drop folder.length) else none
    let further := inside.filter fun p =>
      !p.isEmpty && !p.contains parentName && !p.contains rootName
    path :: further.map fun p => p.foldl join path

/-! ## File names -/

/-- The last name on a path, if it names anything. -/
def fileName? (path : Text) : Option Text :=
  match (names path).reverse.dropWhile fun name => name == [] || name == ['.'] with
  | [] => none
  | name :: _ => if name = parentName ∨ name = rootName then none else some name

/-- The part of a file name behind its last dot, where the dot is not its first character. -/
def extension? (path : Text) : Option Text :=
  match fileName? path with
  | none => none
  | some name =>
    let stem := (name.reverse.dropWhile (· != '.')).reverse.dropLast
    if name.contains '.' && !stem.isEmpty then
      some (name.reverse.takeWhile (· != '.')).reverse
    else none

/-- The path with another extension in place of its own. The extension goes behind the last dot, if
what ends there is the name of a file: of the name `..plim` only the step upwards is left. -/
def withExtension (path ext : Text) : Text :=
  let front := (path.reverse.dropWhile (· != '.')).reverse
  if (fileName? front).isSome then front ++ ext else front

end FileTree

end TerseMarkup
