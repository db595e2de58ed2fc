import TerseMarkup.CommandLine
import TerseMarkup.Proofs.Trimming

/-!
# Paths of entries

A walk gives the entries of a folder as text: the path of the folder, and behind it the names on the
way to the entry. The folder may be written in many ways, with dots and doubled slashes. Here the
text is led back to the place of the entry in the tree.

* `FileTree.names_foldl_join`: the names on such a path are those of the folder and those behind it,
  so different names give different paths (`FileTree.foldl_join_inj`).
* `FileTree.extension?_eq_some_iff`: the extension is what follows the last dot of the last name.
* `FileTree.withExtension_join`: another extension gives another name in the same folder.
* `FileTree.WellFormed` says what a tree has to be like, and
  `FileTree.WellFormed.resolve_foldl_join` where names behind the path of a folder lead. Only the
  last of them can be a link.
* `FileTree.below_eq`, `FileTree.mem_namesBelow_iff` and `FileTree.nodup_below`: in a well-formed
  tree, a walk comes to the folder and once to everything below it.
-/

namespace TerseMarkup

namespace FileTree

variable {tree : FileTree} {dir name : Text} {folder : Path}

/-! ## Names -/

/-- A name that an entry can have in its folder. -/
def IsName (name : Text) : Prop :=
  name ≠ [] ∧ '/' ∉ name ∧ name ≠ ['.'] ∧ name ≠ parentName

instance decidableIsName (name : Text) : Decidable (IsName name) :=
  inferInstanceAs (Decidable (name ≠ [] ∧ '/' ∉ name ∧ name ≠ ['.'] ∧ name ≠ parentName))

/-- A slash is no name. -/
theorem IsName.ne_rootName (h : IsName name) : name ≠ rootName := by
  rintro rfl
  exact h.2.1 (by decide)

/-- A name leads into a folder. -/
theorem enter_name (here : Path) (h : IsName name) : enter here name = here ++ [name] := by
  unfold enter
  rw [if_neg (not_or.2 ⟨h.1, h.2.2.1⟩), if_pos h.2.2.2]

/-- What lies below a folder has to be in the tree. -/
theorem isGiven_append {names : Path} (hne : names ≠ []) (hnames : ∀ name ∈ names, IsName name) :
    isGiven (folder ++ names) = false := by
  obtain ⟨front, last, rfl⟩ : ∃ front last, names = front ++ [last] := by
    rcases List.eq_nil_or_concat names with rfl | ⟨front, last, rfl⟩
    · exact absurd rfl hne
    · exact ⟨front, last, List.concat_eq_append⟩
  have hlast : IsName last := hnames last (by simp)
  have habove : (last == parentName) = false := by simpa using hlast.2.2.2
  have hroot : ¬ folder ++ (front ++ [last]) = [rootName] := by
    intro heq
    have hmem : last ∈ [rootName] := heq ▸ by simp
    exact hlast.ne_rootName (List.mem_singleton.1 hmem)
  simp [isGiven, habove, hroot]

/-! ## Pieces -/

/-- Every path has a piece, which may be empty. -/
theorem pieces_ne_nil (t : Text) : pieces t ≠ [] := by
  cases t with
  | nil => simp [pieces]
  | cons c t =>
    unfold pieces
    split
    · exact List.cons_ne_nil _ _
    · split <;> exact List.cons_ne_nil _ _

/-- A slash ends a piece. -/
theorem pieces_append_slash (x y : Text) : pieces (x ++ '/' :: y) = pieces x ++ pieces y := by
  induction x with
  | nil => rfl
  | cons c x ih =>
    rw [List.cons_append, pieces, pieces]
    split
    · rw [ih, List.cons_append]
    · rw [ih]
      cases hx : pieces x with
      | nil => exact absurd hx (pieces_ne_nil x)
      | cons piece rest => rfl

/-- Without a slash there is only one piece. -/
theorem pieces_of_not_mem {x : Text} (h : '/' ∉ x) : pieces x = [x] := by
  induction x with
  | nil => rfl
  | cons c x ih =>
    rw [List.mem_cons, not_or] at h
    rw [pieces, if_neg (Ne.symm h.1), ih h.2]

/-- The pieces in front of others, as names: an empty first one stands for the root. -/
def leading : List Text → Path
  | [] :: rest => rootName :: rest
  | rest => rest

/-- The last of several pieces is a name, whatever the first one is. -/
theorem names_of_pieces_append {t : Text} {front : List Text} (hne : front ≠ [])
    (h : pieces t = front ++ [name]) : names t = leading front ++ [name] := by
  unfold names
  rw [h]
  cases front with
  | nil => exact absurd rfl hne
  | cons piece rest =>
    cases piece with
    | nil => cases rest <;> rfl
    | cons c piece => rfl

/-- The names on a path are its pieces, the first one read as the root if it is empty. -/
theorem names_eq_leading (h : dir ≠ []) : names dir = leading (pieces dir) := by
  unfold names
  split
  · rename_i heq
    rw [heq]
    rfl
  · rename_i heq
    cases hp : pieces dir with
    | nil => rfl
    | cons piece rest =>
      cases piece with
      | cons c piece => rfl
      | nil =>
        cases rest with
        | cons piece rest => exact absurd hp (heq piece rest)
        | nil =>
          -- an empty piece alone is an empty path
          exfalso
          cases dir with
          | nil => exact h rfl
          | cons c t =>
            unfold pieces at hp
            split at hp
            · exact pieces_ne_nil t (List.cons.inj hp).2
            · split at hp <;> cases hp

/-- The names on the path of a folder, without the empty one behind a slash at its end. -/
def folderNames (dir : Text) : List Text :=
  if dir.getLast? = some '/' then (names dir).dropLast else names dir

/-- The names on a path that ends in a slash. -/
theorem names_append_slash (d : Text) : names (d ++ ['/']) = leading (pieces d) ++ [[]] :=
  names_of_pieces_append (pieces_ne_nil d) (pieces_append_slash d [])

/-- A slash at the end of a path adds an empty name. -/
theorem names_eq_folderNames_append (h : dir.getLast? = some '/') :
    names dir = folderNames dir ++ [[]] := by
  unfold folderNames
  rw [if_pos h]
  obtain ⟨d, rfl⟩ := List.getLast?_eq_some_iff.1 h
  rw [names_append_slash, List.dropLast_concat]

/-- The names on the path of an entry are those on the path of its folder and its own. A slash at
the end of the folder's path makes no difference. -/
theorem names_join (hdir : dir ≠ []) (hname : '/' ∉ name) :
    names (join dir name) = folderNames dir ++ [name] := by
  unfold join folderNames
  split
  · rename_i hslash
    obtain ⟨d, rfl⟩ := List.getLast?_eq_some_iff.1 hslash
    rw [names_append_slash, List.dropLast_concat]
    apply names_of_pieces_append (pieces_ne_nil d)
    rw [List.append_assoc, List.singleton_append, pieces_append_slash, pieces_of_not_mem hname]
  · rw [names_eq_leading hdir]
    apply names_of_pieces_append (pieces_ne_nil dir)
    rw [List.append_assoc, List.singleton_append, pieces_append_slash, pieces_of_not_mem hname]

/-- A path with a name at its end is not empty. -/
theorem join_ne_nil (hname : name ≠ []) : join dir name ≠ [] := by
  unfold join
  split <;> simp [hname]

/-- A name without a slash can be put behind other text. -/
theorem join_append (dir x y : Text) : join dir (x ++ y) = join dir x ++ y := by
  unfold join
  split
  · rw [List.append_assoc]
  · simp only [List.append_assoc]

/-- No slash is at the end of a path that ends in a name. -/
theorem folderNames_join (hname : IsName name) :
    folderNames (join dir name) = names (join dir name) := by
  unfold folderNames
  apply if_neg
  intro hslash
  have hlast : (join dir name).getLast? = name.getLast? := by
    rw [← List.nil_append name, join_append, List.getLast?_append,
      List.getLast?_eq_some_getLast hname.1, Option.some_or]
    exact (List.getLast?_eq_some_getLast hname.1).symm
  rw [hlast] at hslash
  exact hname.2.1 (List.mem_of_getLast? hslash)

/-- The names on a path that goes on from a folder by names. -/
theorem names_foldl_join {xs : Path} (hdir : dir ≠ []) (hne : xs ≠ [])
    (hxs : ∀ x ∈ xs, IsName x) : names (xs.foldl join dir) = folderNames dir ++ xs := by
  induction xs generalizing dir with
  | nil => exact absurd rfl hne
  | cons x rest ih =>
    obtain ⟨hx, hrest⟩ := List.forall_mem_cons.1 hxs
    cases rest with
    | nil => exact names_join hdir hx.2.1
    | cons y rest =>
      rw [List.foldl_cons, ih (join_ne_nil hx.1) (List.cons_ne_nil _ _) hrest,
        folderNames_join hx, names_join hdir hx.2.1, List.append_assoc, List.singleton_append]

/-- The last name behind the path of a folder is the file name. -/
theorem fileName?_of_names {path : Text} {front : List Text} (h : names path = front ++ [name])
    (hname : IsName name) : fileName? path = some name := by
  unfold fileName?
  rw [h, List.reverse_append, List.reverse_singleton, List.singleton_append,
    List.dropWhile_cons_of_neg (by simp [hname.1, hname.2.2.1])]
  exact if_neg (not_or.2 ⟨hname.2.2.2, hname.ne_rootName⟩)

/-- The last of the names behind the path of a folder is the file name. -/
theorem fileName?_foldl_join {names : Path} (hdir : dir ≠ [])
    (hnames : ∀ x ∈ names ++ [name], IsName x) :
    fileName? ((names ++ [name]).foldl join dir) = some name := by
  apply fileName?_of_names
  · rw [names_foldl_join hdir (by simp) hnames, ← List.append_assoc]
  · exact hnames name (by simp)

/-- A step upwards names no file. -/
theorem fileName?_join_parentName (hdir : dir ≠ []) : fileName? (join dir parentName) = none := by
  unfold fileName?
  rw [names_join hdir (by decide), List.reverse_append, List.reverse_singleton,
    List.singleton_append, List.dropWhile_cons_of_neg (by decide)]
  exact if_pos (.inl rfl)

/-- A text is cut at its last dot. -/
theorem reverse_dropWhile_dot {x ext : Text} (hext : '.' ∉ ext) :
    (x ++ '.' :: ext).reverse.dropWhile (· != '.') = '.' :: x.reverse ∧
      (x ++ '.' :: ext).reverse.takeWhile (· != '.') = ext.reverse := by
  have hcut : ∀ c ∈ ext.reverse, (c != '.') = true := by
    intro c hc
    have hne : c ≠ '.' := fun heq => hext (heq ▸ List.mem_reverse.1 hc)
    simpa using hne
  rw [List.reverse_append, List.reverse_cons, List.append_assoc, List.singleton_append]
  constructor
  · rw [List.dropWhile_append_of_pos hcut]
    rfl
  · rw [List.takeWhile_append_of_pos hcut]
    simp

/-- A text with a dot in it can be cut at the last one. -/
theorem exists_last_dot {t : Text} (h : '.' ∈ t) : ∃ x ext, t = x ++ '.' :: ext ∧ '.' ∉ ext := by
  obtain ⟨back, front, heq, hback⟩ := List.eq_append_cons_of_mem (List.mem_reverse.2 h)
  refine ⟨front.reverse, back.reverse, ?_, by simpa using hback⟩
  rw [← List.reverse_reverse t, heq]
  simp

/-- The extension of a path is what follows the last dot of its last name, unless the name starts
with that dot. -/
theorem extension?_eq_some_iff {path ext : Text} (hfile : fileName? path = some name) :
    extension? path = some ext ↔ ∃ stem, stem ≠ [] ∧ name = stem ++ '.' :: ext ∧ '.' ∉ ext := by
  unfold extension?
  rw [hfile]
  simp only
  constructor
  · intro h
    by_cases hdot : '.' ∈ name
    · obtain ⟨x, ext', rfl, hext'⟩ := exists_last_dot hdot
      obtain ⟨hdrop, htake⟩ := reverse_dropWhile_dot (x := x) hext'
      simp only [hdrop, htake, List.reverse_reverse, List.reverse_cons, List.dropLast_concat] at h
      split at h
      · rename_i hstem
        cases h
        exact ⟨x, by simpa using hstem, rfl, hext'⟩
      · cases h
    · simp [hdot] at h
  · rintro ⟨stem, hstem, rfl, hext⟩
    obtain ⟨hdrop, htake⟩ := reverse_dropWhile_dot (x := stem) hext
    simp only [hdrop, htake, List.reverse_reverse]
    rw [if_pos]
    simp [hstem]

/-- Another extension gives another name in the same folder. -/
theorem withExtension_join {stem ext : Text} (hdir : dir ≠ []) (hstem : IsName (stem ++ ['.']))
    (hext : '.' ∉ ext) (other : Text) :
    withExtension (join dir (stem ++ '.' :: ext)) other = join dir (stem ++ '.' :: other) := by
  have hfront : ((join dir (stem ++ '.' :: ext)).reverse.dropWhile (· != '.')).reverse =
      join dir (stem ++ ['.']) := by
    rw [join_append, (reverse_dropWhile_dot hext).1, join_append]
    simp
  have hname : fileName? (join dir (stem ++ ['.'])) = some (stem ++ ['.']) :=
    fileName?_of_names (names_join hdir hstem.2.1) hstem
  unfold withExtension
  simp only [hfront, hname, Option.isSome_some, if_true]
  rw [← join_append, List.append_assoc, List.singleton_append]

/-- Of the name that is an extension behind two dots, another extension leaves a step upwards. -/
theorem withExtension_join_dots {ext : Text} (hdir : dir ≠ []) (hext : '.' ∉ ext) (other : Text) :
    withExtension (join dir (['.'] ++ '.' :: ext)) other = join dir parentName := by
  have hfront : ((join dir (['.'] ++ '.' :: ext)).reverse.dropWhile (· != '.')).reverse =
      join dir parentName := by
    rw [join_append, (reverse_dropWhile_dot hext).1, List.reverse_cons, List.reverse_reverse,
      ← join_append]
    rfl
  unfold withExtension
  simp only [hfront, fileName?_join_parentName hdir]
  rfl

/-! ## Well-formed trees -/

/-- A tree of folders, files and links: no path occurs twice, its parts are names (behind steps
upwards or the root), everything lies in a folder, and a link leads to a place that is no link
again. -/
structure WellFormed (tree : FileTree) : Prop where
  distinct : tree.paths.Nodup
  named : ∀ path ∈ tree.paths, ∀ name ∈ path, IsName name ∨ name = parentName ∨ name = rootName
  inFolder : ∀ path ∈ tree.paths, tree.get? path.dropLast = some .folder
  final : ∀ link ∈ tree.links, isGiven link.1 = false ∧ tree.follow link.2 = link.2

/-- The working folder, the folders above it and the root are folders in every tree. -/
theorem get?_of_isGiven {place : Path} (h : isGiven place = true) (tree : FileTree) :
    tree.get? place = some .folder := by
  rw [get?, if_pos h]

/-- What is in a tree has an entry there, unless it is sure to be a folder. -/
theorem mem_entries_of_get? {place : Path} {entry : Entry} (hgiven : isGiven place = false)
    (h : tree.get? place = some entry) : (place, entry) ∈ tree.entries := by
  unfold get? at h
  rw [if_neg (by rw [hgiven]; decide)] at h
  obtain ⟨before, after, heq, -⟩ := List.lookup_eq_some_iff.1 h
  rw [heq]
  exact List.mem_append_right _ List.mem_cons_self

/-- What is in a tree has a path there, unless it is sure to be a folder. -/
theorem mem_paths_of_get? {place : Path} {entry : Entry} (hgiven : isGiven place = false)
    (h : tree.get? place = some entry) : place ∈ tree.paths := by
  apply List.mem_append_left
  exact List.mem_map.2 ⟨_, mem_entries_of_get? hgiven h, rfl⟩

/-! ## Links -/

/-- A path that is no link leads to itself, and a link to where it says. -/
theorem follow_cases (tree : FileTree) (path : Path) :
    (tree.follow path = path ∧ ∀ link ∈ tree.links, link.1 ≠ path) ∨
      (path, tree.follow path) ∈ tree.links := by
  unfold follow
  cases h : tree.links.lookup path with
  | none =>
    refine .inl ⟨rfl, fun link hlink heq => ?_⟩
    have hne := List.lookup_eq_none_iff.1 h link hlink
    simp [heq] at hne
  | some place =>
    obtain ⟨before, after, heq, -⟩ := List.lookup_eq_some_iff.1 h
    refine .inr ?_
    rw [heq]
    exact List.mem_append_right _ List.mem_cons_self

/-- No link is behind a link. -/
theorem WellFormed.follow_follow (h : tree.WellFormed) (path : Path) :
    tree.follow (tree.follow path) = tree.follow path := by
  rcases tree.follow_cases path with ⟨hsame, -⟩ | hlink
  · rw [hsame, hsame]
  · exact (h.final _ hlink).2

/-- What is a file or a folder is no link. -/
theorem WellFormed.follow_of_get? (h : tree.WellFormed) {place : Path} {entry : Entry}
    (hentry : tree.get? place = some entry) : tree.follow place = place := by
  rcases tree.follow_cases place with ⟨hsame, -⟩ | hlink
  · exact hsame
  · have hmem := mem_entries_of_get? (h.final _ hlink).1 hentry
    have hdistinct := (List.nodup_append.1 h.distinct).2.2
    exact absurd rfl (hdistinct place (List.mem_map.2 ⟨_, hmem, rfl⟩) place
      (List.mem_map.2 ⟨_, hlink, rfl⟩))

/-- Going along names never ends at a link. -/
theorem WellFormed.follow_of_walk (h : tree.WellFormed) {here place : Path} {names : List Text}
    (hhere : tree.follow here = here) (hwalk : tree.walk here names = .ok place) :
    tree.follow place = place := by
  induction names generalizing here with
  | nil =>
    cases hwalk
    exact hhere
  | cons name rest ih =>
    rw [walk] at hwalk
    split at hwalk
    · cases hwalk
    · exact ih (h.follow_follow _) hwalk
    · cases hwalk

/-- No path leads to a link. -/
theorem WellFormed.follow_of_resolve (h : tree.WellFormed) {path : Text} {place : Path}
    (hplace : tree.resolve path = .ok place) : tree.follow place = place :=
  h.follow_of_walk (h.follow_of_get? (get?_of_isGiven rfl tree)) hplace

/-! ## Places -/

/-- Names can be gone along in two parts. -/
theorem walk_append (here : Path) (xs ys : List Text) :
    tree.walk here (xs ++ ys) = tree.walk here xs >>= fun place => tree.walk place ys := by
  induction xs generalizing here with
  | nil => rfl
  | cons x xs ih =>
    rw [List.cons_append, walk, walk]
    split
    · rfl
    · exact ih _
    · rfl

/-- What is found under a path is what is at its place. -/
theorem find?_of_resolve {path : Text} {place : Path} (h : tree.resolve path = .ok place) :
    tree.find? path = tree.get? place := by
  unfold find?
  rw [h]

/-- A slash at the end of the path of a folder does not matter. -/
theorem WellFormed.walk_folderNames (h : tree.WellFormed)
    (hplace : tree.resolve dir = .ok folder) : tree.walk [] (folderNames dir) = .ok folder := by
  have hstart : tree.follow [] = [] := h.follow_of_get? (get?_of_isGiven rfl tree)
  unfold resolve at hplace
  by_cases hslash : dir.getLast? = some '/'
  · rw [names_eq_folderNames_append hslash, walk_append] at hplace
    cases hwalk : tree.walk [] (folderNames dir) with
    | error fault =>
      rw [hwalk] at hplace
      cases hplace
    | ok place =>
      rw [hwalk] at hplace
      have hlast : tree.walk place [[]] = .ok folder := hplace
      rw [walk] at hlast
      split at hlast
      · cases hlast
      · rw [← h.follow_of_walk hstart hwalk]
        exact hlast
      · cases hlast
  · have hsame : folderNames dir = names dir := if_neg hslash
    rw [hsame]
    exact hplace

/-- One name further from a folder, whatever the name is. -/
theorem WellFormed.resolve_join (h : tree.WellFormed) (hdir : dir ≠ []) (hname : '/' ∉ name)
    (hplace : tree.resolve dir = .ok folder) (hfolder : tree.get? folder = some .folder) :
    tree.resolve (join dir name) = .ok (tree.follow (enter folder name)) := by
  have hstep : tree.walk folder [name] = .ok (tree.follow (enter folder name)) := by
    rw [walk, hfolder]
    rfl
  unfold resolve
  rw [names_join hdir hname, walk_append, h.walk_folderNames hplace]
  exact hstep

/-- Names lead from a folder to the place below it, if all on the way are folders. Only the last one
can be a link. -/
theorem WellFormed.walk_of_folders (h : tree.WellFormed) {names : Path}
    (hfolder : tree.follow folder = folder) (hnames : ∀ name ∈ names, IsName name)
    (hfolders : ∀ front back, names = front ++ back → back ≠ [] →
      tree.get? (folder ++ front) = some .folder) :
    tree.walk folder names = .ok (tree.follow (folder ++ names)) := by
  induction names generalizing folder with
  | nil =>
    rw [List.append_nil, hfolder]
    rfl
  | cons name rest ih =>
    obtain ⟨hname, hrest⟩ := List.forall_mem_cons.1 hnames
    have hhere : tree.get? folder = some .folder := by
      have := hfolders [] (name :: rest) rfl (List.cons_ne_nil _ _)
      rwa [List.append_nil] at this
    rw [walk, hhere, enter_name folder hname]
    show tree.walk (tree.follow (folder ++ [name])) rest = _
    cases rest with
    | nil => rfl
    | cons next rest =>
      have hnext : tree.follow (folder ++ [name]) = folder ++ [name] :=
        h.follow_of_get? (hfolders [name] (next :: rest) rfl (List.cons_ne_nil _ _))
      rw [hnext, List.append_cons folder name (next :: rest)]
      apply ih hnext hrest
      intro front back heq hback
      rw [List.append_assoc]
      exact hfolders (name :: front) back (by rw [heq]; rfl) hback

/-- Names behind the path of a folder lead to the place below it, if all on the way are folders. -/
theorem WellFormed.resolve_foldl_join (h : tree.WellFormed) {names : Path} (hdir : dir ≠ [])
    (hplace : tree.resolve dir = .ok folder) (hnames : ∀ name ∈ names, IsName name)
    (hfolders : ∀ front back, names = front ++ back → back ≠ [] →
      tree.get? (folder ++ front) = some .folder) :
    tree.resolve (names.foldl join dir) = .ok (tree.follow (folder ++ names)) := by
  have hfolder := h.follow_of_resolve hplace
  by_cases hne : names = []
  · subst hne
    rw [List.append_nil, hfolder]
    exact hplace
  · unfold resolve
    rw [names_foldl_join hdir hne hnames, walk_append, h.walk_folderNames hplace]
    exact h.walk_of_folders hfolder hnames hfolders

/-- All on the way from a folder to something below it are folders. -/
theorem WellFormed.get?_of_mem (h : tree.WellFormed) {front back : Path}
    (hnames : ∀ name ∈ front ++ back, IsName name)
    (hmem : folder ++ (front ++ back) ∈ tree.paths) (hback : back ≠ []) :
    tree.get? (folder ++ front) = some .folder := by
  rcases List.eq_nil_or_concat back with rfl | ⟨back, name, rfl⟩
  · exact absurd rfl hback
  · rw [List.concat_eq_append] at hmem hnames
    have hparent := h.inFolder _ hmem
    simp only [← List.append_assoc, List.dropLast_concat] at hparent
    rw [List.append_assoc] at hparent
    -- go on with the parent, which is in the tree unless it is the folder at the start
    rcases List.eq_nil_or_concat back with rfl | ⟨rest, name', rfl⟩
    · rwa [List.append_nil] at hparent
    · have hnames' : ∀ name ∈ front ++ rest.concat name', IsName name := by
        intro name hname
        exact hnames name (by rw [← List.append_assoc]; exact List.mem_append_left _ hname)
      have hgiven : isGiven (folder ++ (front ++ rest.concat name')) = false :=
        isGiven_append (by simp) hnames'
      exact h.get?_of_mem hnames' (mem_paths_of_get? hgiven hparent) (by simp)
  termination_by back.length

/-- The folder above a folder is a folder. -/
theorem WellFormed.get?_enter_parentName (h : tree.WellFormed)
    (hfolder : tree.get? folder = some .folder) :
    tree.get? (enter folder parentName) = some .folder := by
  unfold enter
  rw [if_neg (by decide), if_neg (by simp)]
  split
  · exact hfolder
  · rename_i hroot
    split
    · rename_i hgiven
      -- a given folder that is not the root is a row of steps upwards
      unfold isGiven at hgiven
      rw [Bool.or_eq_true, beq_iff_eq] at hgiven
      have hsteps := hgiven.resolve_right hroot
      apply get?_of_isGiven
      unfold isGiven
      rw [List.all_append, hsteps]
      rfl
    · rename_i hgiven
      exact h.inFolder _ (mem_paths_of_get? (by simpa using hgiven) hfolder)

/-- A step upwards from a folder leads to a folder. -/
theorem WellFormed.find?_join_parentName (h : tree.WellFormed) (hdir : dir ≠ [])
    (hplace : tree.resolve dir = .ok folder) (hfolder : tree.get? folder = some .folder) :
    tree.find? (join dir parentName) = some .folder := by
  have habove := h.get?_enter_parentName hfolder
  rw [find?_of_resolve (h.resolve_join hdir (by decide) hplace hfolder), h.follow_of_get? habove]
  exact habove

/-! ## Walks -/

/-- The ways from a folder to what is below it, by name. -/
def namesBelow (tree : FileTree) (folder : Path) : List Path :=
  (tree.paths.filterMap fun path =>
    if folder.isPrefixOf path then some (path.drop folder.length) else none).filter
      fun names => !names.isEmpty && !names.contains parentName && !names.contains rootName

/-- A walk comes to the folder itself, and then to what is below it. -/
theorem below_eq (hplace : tree.resolve dir = .ok folder) :
    tree.below dir = dir :: (tree.namesBelow folder).map fun names => names.foldl join dir := by
  unfold below
  rw [hplace]
  rfl

/-- A path that starts with a folder is cut behind it. -/
theorem eq_append_of_drop {path names : Path}
    (h : (if folder.isPrefixOf path then some (path.drop folder.length) else none) =
      some names) : path = folder ++ names := by
  split at h
  · rename_i hprefix
    cases h
    obtain ⟨rest, hrest⟩ := List.isPrefixOf_iff_prefix.1 hprefix
    rw [← hrest, List.drop_left]
  · cases h

/-- The ways down from a folder are those to the paths of the tree. -/
theorem mem_namesBelow_iff (h : tree.WellFormed) {names : Path} :
    names ∈ tree.namesBelow folder ↔ names ≠ [] ∧ (∀ name ∈ names, IsName name) ∧
      folder ++ names ∈ tree.paths := by
  unfold namesBelow
  rw [List.mem_filter, List.mem_filterMap]
  simp only [Bool.and_eq_true, Bool.not_eq_true', List.isEmpty_eq_false_iff, List.contains_eq_mem,
    decide_eq_false_iff_not]
  constructor
  · rintro ⟨⟨path, hmem, hcut⟩, ⟨hne, habove⟩, hroot⟩
    obtain rfl : path = folder ++ names := eq_append_of_drop hcut
    refine ⟨hne, fun name hname => ?_, hmem⟩
    rcases h.named _ hmem name (List.mem_append_right _ hname) with hname' | rfl | rfl
    · exact hname'
    · exact absurd hname habove
    · exact absurd hname hroot
  · rintro ⟨hne, hnames, hmem⟩
    refine ⟨⟨_, hmem, ?_⟩, ⟨hne, fun habove => ?_⟩, fun hroot => ?_⟩
    · rw [if_pos (List.isPrefixOf_iff_prefix.2 (List.prefix_append _ _)), List.drop_left]
    · exact (hnames _ habove).2.2.2 rfl
    · exact (hnames _ hroot).ne_rootName rfl

end FileTree

end TerseMarkup
