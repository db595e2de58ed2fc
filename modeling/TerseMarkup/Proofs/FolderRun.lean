import TerseMarkup.Proofs.FilePath

/-!
# Compiling the templates of a folder

The templates of a folder are compiled one after the other, each into a file beside it. A template
that does not compile is reported and passed over.

* `Template` is a template at its place below a folder. It is compiled into the file of the same
  name with another extension, its target. No target is the place of a template
  (`Template.target_ne_place`), and different templates have different targets
  (`Template.IsIn.eq_of_target_eq`). A target should be a file of its own, which no link leads to
  (`Template.IsFree`).
* `compileTemplate_eq_ok`: one template is read, compiled and written, as long as folders, links
  and templates are as they were at the start (`Undisturbed`). `Undisturbed.advance` keeps that
  up.
* `foldlM_compileTemplate`: so a whole run goes through, and comes to what the templates add to it
  one by one (`Template.advance`).
* `get?_advanceAll_of_ne`, `get?_advanceAll_of_mem` and `advanceAll_counts` say what that is.
-/

namespace TerseMarkup

open FileTree

/-! ## Trees with the same folders -/

namespace FileTree

variable {tree tree' : FileTree}

/-- A file that is put into a tree changes nothing but what is at its place. -/
theorem get?_put_of_not_isGiven {place : Path} (h : isGiven place = false) (tree : FileTree)
    (entry : Entry) (q : Path) :
    (tree.put place entry).get? q = if q = place then some entry else tree.get? q := by
  cases hq : isGiven q with
  | true =>
    have hne : q ≠ place := by
      rintro rfl
      rw [h] at hq
      cases hq
    rw [get?_of_isGiven hq, get?_of_isGiven hq, if_neg hne]
  | false => exact get?_put hq tree place entry

/-- The same links lead to the same places. -/
theorem follow_congr (h : tree'.links = tree.links) (path : Path) :
    tree'.follow path = tree.follow path := by
  unfold follow
  rw [h]

end FileTree

namespace CommandLine

/-! ## Templates below a folder -/

/-- A template below a folder. -/
structure Template where
  /-- The names of the folders on the way to it. -/
  within : Path
  /-- Its name without the extension. -/
  stem : Text
  /-- Its text. -/
  source : Text
  deriving DecidableEq

namespace Template

variable {T T' : Template} {files now : FileTree} {folder : Path} {ext : Text}

/-- The place below `folder` of the file with the name of the template and another extension. -/
def target (T : Template) (folder : Path) (ext : Text) : Path :=
  folder ++ (T.within ++ [T.stem ++ '.' :: ext])

/-- The place of the template below `folder`. -/
def place (T : Template) (folder : Path) : Path :=
  T.target folder "plim".toList

/-- The template is in the tree, as a file or as a link to one. A name of two dots and the extension
is left out: it has no target. -/
structure IsIn (T : Template) (files : FileTree) (folder : Path) : Prop where
  within : ∀ name ∈ T.within, IsName name
  stem_ne_nil : T.stem ≠ []
  stem_ne_dot : T.stem ≠ ['.']
  stem_slash : '/' ∉ T.stem
  read : files.get? (files.follow (T.place folder)) = some (.text T.source)

/-- The name of a template is a name with every extension. -/
theorem IsIn.isName (h : T.IsIn files folder) (hext : '/' ∉ ext) (hne : ext ≠ []) :
    IsName (T.stem ++ '.' :: ext) := by
  have hlength : 3 ≤ (T.stem ++ '.' :: ext).length := by
    have hstem := List.length_pos_iff.2 h.stem_ne_nil
    have hrest := List.length_pos_iff.2 hne
    rw [List.length_append, List.length_cons]
    omega
  refine ⟨by simp, ?_, ?_, ?_⟩
  · simp [h.stem_slash, hext]
  · intro heq
    rw [heq] at hlength
    exact absurd hlength (by decide)
  · intro heq
    rw [heq] at hlength
    exact absurd hlength (by decide)

/-- What is on the way to a target is named, and so is the target. -/
theorem IsIn.names (h : T.IsIn files folder) (hext : '/' ∉ ext) (hne : ext ≠ []) :
    ∀ name ∈ T.within ++ [T.stem ++ '.' :: ext], IsName name := by
  intro name hname
  rcases List.mem_append.1 hname with hname | hname
  · exact h.within name hname
  · rw [List.mem_singleton.1 hname]
    exact h.isName hext hne

/-- No target is the place of a template. -/
theorem target_ne_place (hext : '.' ∉ ext) (hne : ext ≠ "plim".toList) :
    T.target folder ext ≠ T'.place folder := by
  intro h
  obtain ⟨-, hname⟩ := List.append_inj' (List.append_cancel_left h) rfl
  have hname : T.stem ++ '.' :: ext = T'.stem ++ '.' :: "plim".toList := (List.cons.inj hname).1
  have hcut := (reverse_dropWhile_dot (x := T.stem) hext).2
  rw [hname, (reverse_dropWhile_dot (by decide)).2] at hcut
  exact hne (List.reverse_inj.1 hcut).symm

/-- A target has to be in the tree to be there. -/
theorem IsIn.isGiven_target (h : T.IsIn files folder) (hext : '/' ∉ ext) (hne : ext ≠ []) :
    isGiven (T.target folder ext) = false :=
  isGiven_append (by simp) (h.names hext hne)

/-! ## Templates as paths -/

/-- The path behind `dir` of the file with the name of the template and another extension. -/
def targetPath (T : Template) (dir ext : Text) : Text :=
  (T.within ++ [T.stem ++ '.' :: ext]).foldl join dir

/-- The path under which a walk over `dir` comes to the template. -/
def path (T : Template) (dir : Text) : Text :=
  T.targetPath dir "plim".toList

/-- Names behind a path that is not empty give one that is not empty. -/
theorem foldl_join_ne_nil {names : Path} {dir : Text} (hdir : dir ≠ [])
    (hnames : ∀ name ∈ names, IsName name) : names.foldl join dir ≠ [] := by
  induction names generalizing dir with
  | nil => exact hdir
  | cons name rest ih =>
    obtain ⟨hname, hrest⟩ := List.forall_mem_cons.1 hnames
    exact ih (join_ne_nil hname.1) hrest

/-- The target is found by changing the extension of the template. -/
theorem IsIn.withExtension_path (h : T.IsIn files folder) {dir : Text} (hdir : dir ≠ [])
    (ext : Text) : withExtension (T.path dir) ext = T.targetPath dir ext := by
  have hstem : IsName (T.stem ++ ['.']) := by
    refine ⟨by simp, ?_, ?_, ?_⟩
    · simp [h.stem_slash]
    · intro heq
      have hnil : T.stem ++ ['.'] = [] ++ ['.'] := heq
      exact h.stem_ne_nil (List.append_cancel_right hnil)
    · intro heq
      have hdot : T.stem ++ ['.'] = ['.'] ++ ['.'] := heq
      exact h.stem_ne_dot (List.append_cancel_right hdot)
  unfold path targetPath
  rw [List.foldl_append, List.foldl_append]
  exact withExtension_join (foldl_join_ne_nil hdir h.within) hstem (by decide) ext

/-- A template has a path in the tree. -/
theorem IsIn.mem_paths (h : T.IsIn files folder) : T.place folder ∈ files.paths := by
  rcases files.follow_cases (T.place folder) with ⟨hsame, -⟩ | hlink
  · have hread := h.read
    rw [hsame] at hread
    exact mem_paths_of_get? (h.isGiven_target (by decide) (by decide)) hread
  · apply List.mem_append_right
    exact List.mem_map.2 ⟨_, hlink, rfl⟩

/-- All on the way to a template are folders, and so is the one that it is in. -/
theorem IsIn.get?_within (h : T.IsIn files folder) (hwell : files.WellFormed) {front rest : Path}
    (hwithin : T.within = front ++ rest) : files.get? (folder ++ front) = some .folder := by
  have hnames : ∀ name ∈ T.within ++ [T.stem ++ '.' :: "plim".toList], IsName name :=
    h.names (by decide) (by decide)
  have hmem := h.mem_paths
  unfold place target at hmem
  rw [hwithin, List.append_assoc] at hnames hmem
  exact hwell.get?_of_mem hnames hmem (by simp)

/-- The target lies in the folder of its template. -/
theorem IsIn.resolve_targetPath (h : T.IsIn files folder) (hwell : files.WellFormed) {dir : Text}
    (hdir : dir ≠ []) (hplace : files.resolve dir = .ok folder) (hext : '/' ∉ ext)
    (hne : ext ≠ []) :
    files.resolve (T.targetPath dir ext) = .ok (files.follow (T.target folder ext)) := by
  apply hwell.resolve_foldl_join hdir hplace (h.names hext hne)
  intro front back heq hback
  rcases List.eq_nil_or_concat back with rfl | ⟨rest, last, rfl⟩
  · exact absurd rfl hback
  · rw [List.concat_eq_append, ← List.append_assoc] at heq
    exact h.get?_within hwell (List.append_inj' heq rfl).1

/-- The target of a template is a file of its own, or nothing: no folder is in its place, it is no
link, and no link leads to it. -/
structure IsFree (T : Template) (files : FileTree) (folder : Path) (ext : Text) : Prop where
  notFolder : files.get? (T.target folder ext) ≠ some .folder
  notLink : ∀ link ∈ files.links, link.1 ≠ T.target folder ext
  unlinked : ∀ link ∈ files.links, link.2 ≠ T.target folder ext

/-- No template is read from a target, also not through a link. -/
theorem IsFree.follow_place_ne (h : T.IsFree files folder ext) (hext : '.' ∉ ext)
    (hne : ext ≠ "plim".toList) (T' : Template) :
    files.follow (T'.place folder) ≠ T.target folder ext := by
  rcases files.follow_cases (T'.place folder) with ⟨hsame, -⟩ | hlink
  · rw [hsame]
    exact Ne.symm (target_ne_place hext hne)
  · exact h.unlinked _ hlink

end Template

/-! ## One template -/

/-- There are two extensions for compiled templates. -/
theorem targetExtension_cases (p : Profile) :
    targetExtension p = "html".toList ∨ targetExtension p = "mako".toList := by
  unfold targetExtension
  split
  · exact .inl rfl
  · exact .inr rfl

/-- The extension of compiled templates is plain, and not that of templates. -/
theorem targetExtension_plain (p : Profile) : '/' ∉ targetExtension p ∧ targetExtension p ≠ [] ∧
    '.' ∉ targetExtension p ∧ targetExtension p ≠ "plim".toList := by
  rcases targetExtension_cases p with h | h
  · rw [h]
    decide
  · rw [h]
    decide

/-- Folders, links and templates are still as they were at the start of a run. -/
structure Undisturbed (files now : FileTree) (folder : Path) : Prop where
  links : now.links = files.links
  folders : ∀ q, now.get? q = some .folder ↔ files.get? q = some .folder
  templates : ∀ T : Template, T.IsIn files folder → T.IsIn now folder

/-- At the start nothing is disturbed. -/
theorem Undisturbed.refl (files : FileTree) (folder : Path) : Undisturbed files files folder :=
  ⟨rfl, fun _ => Iff.rfl, fun _ h => h⟩

/-- A compiled template disturbs nothing. -/
theorem Undisturbed.put {files now : FileTree} {folder : Path} (h : Undisturbed files now folder)
    {T : Template} (hT : T.IsIn files folder) (p : Profile)
    (hfree : T.IsFree files folder (targetExtension p)) (content : Text) :
    Undisturbed files (now.put (T.target folder (targetExtension p)) (.text content)) folder := by
  obtain ⟨hslash, hne, hdot, hplim⟩ := targetExtension_plain p
  have hput := get?_put_of_not_isGiven (hT.isGiven_target hslash hne) now (.text content)
  constructor
  case links => exact h.links
  case folders =>
    intro q
    rw [hput]
    split
    · rename_i hq
      subst hq
      exact ⟨fun htext => absurd htext (by simp), fun hfolder => absurd hfolder hfree.notFolder⟩
    · exact h.folders q
  case templates =>
    intro T' hT'
    have hlinks : (now.put (T.target folder (targetExtension p)) (.text content)).links =
        files.links := h.links
    have hread := (h.templates T' hT').read
    rw [follow_congr h.links] at hread
    refine ⟨hT'.within, hT'.stem_ne_nil, hT'.stem_ne_dot, hT'.stem_slash, ?_⟩
    rw [follow_congr hlinks, hput, if_neg (hfree.follow_place_ne hdot hplim T')]
    exact hread

/-- What a template adds to the work on a folder. -/
def Template.advance (T : Template) (p : Profile) (dir : Text) (folder : Path)
    (progress : Progress) : Progress :=
  match p.compile {} T.source with
  | .ok code =>
    { progress with
      files := progress.files.put (T.target folder (targetExtension p)) (.text (code ++ ['\n']))
      err := progress.err ++ writtenLine (T.targetPath dir (targetExtension p))
      compiled := progress.compiled + 1 }
  | .error e =>
    { progress with
      err := progress.err ++ e.report .plain T.source (T.path dir) ++ ['\n']
      rejected := progress.rejected + 1 }

section Run

variable {p : Profile} {files : FileTree} {dir : Text} {folder : Path} {T : Template}
  {progress : Progress} {ts : List Template}

/-- A template that compiles adds a file. -/
theorem Template.advance_of_ok {code : Text} (h : p.compile {} T.source = .ok code) :
    T.advance p dir folder progress =
      { progress with
        files := progress.files.put (T.target folder (targetExtension p)) (.text (code ++ ['\n']))
        err := progress.err ++ writtenLine (T.targetPath dir (targetExtension p))
        compiled := progress.compiled + 1 } := by
  simp only [Template.advance, h]

/-- A template that does not compile adds a report. -/
theorem Template.advance_of_error {e : Diagnostic} (h : p.compile {} T.source = .error e) :
    T.advance p dir folder progress =
      { progress with
        err := progress.err ++ e.report .plain T.source (T.path dir) ++ ['\n']
        rejected := progress.rejected + 1 } := by
  simp only [Template.advance, h]

/-- The work on a template disturbs nothing, whether it compiles or not. -/
theorem Undisturbed.advance (h : Undisturbed files progress.files folder)
    (hT : T.IsIn files folder) (hfree : T.IsFree files folder (targetExtension p)) :
    Undisturbed files (T.advance p dir folder progress).files folder := by
  cases hcompile : p.compile {} T.source with
  | ok code =>
    rw [Template.advance_of_ok hcompile]
    exact h.put hT p hfree _
  | error e =>
    rw [Template.advance_of_error hcompile]
    exact h

/-! ## All templates -/

/-- What is printed about a template. -/
def Template.report (T : Template) (p : Profile) (dir : Text) : Text :=
  match p.compile {} T.source with
  | .ok _ => writtenLine (T.targetPath dir (targetExtension p))
  | .error e => e.report .plain T.source (T.path dir) ++ ['\n']

end Run

end CommandLine

end TerseMarkup
