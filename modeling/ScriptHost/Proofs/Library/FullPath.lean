import ScriptHost.Proofs.Library.FileContents
import ScriptHost.Proofs.Path

/-!
The full path of a path text, as scripts get it from `fGetPath`. It is the normal form of the text
behind the working directory, and only the text and the working directory decide it.
-/

namespace ScriptHost.Library

open Files

section FullPath

variable {files : FileTree} {cwd : List String}
  (available : files.workingPath? = some cwd)
include available

theorem fullPath_eq (path : String) :
    fullPath files path = Path.render (Path.normalize cwd (Path.ofText path)) := by
  simp only [fullPath, available]

omit available in
theorem run_getPath {r : Registry} (provides : ∀ f ∈ standard, f ∈ r.entries) (w : World)
    (stamp : Stamp) (path : String) :
    ∃ fresh later, (r.call "fileio" "fGetPath" [.string stamp path]).run w =
        (.ok (.string fresh (fullPath w.files path)), later) ∧ later.files = w.files := by
  have carried : Arguments.Carried [.string] [.string stamp path] (path, ()) :=
    ⟨⟨stamp, rfl⟩, rfl⟩
  exact ⟨_, _, run_of_carried provides 8 [.string] getPath rfl carried rfl, rfl⟩

theorem fullPath_ne_empty (path : String) : fullPath files path ≠ "" := by
  intro empty
  have absolute := Path.isAbsolute_render (Path.normalize cwd (Path.ofText path))
  rw [← fullPath_eq available, empty] at absolute
  exact absurd absolute (by decide)

end FullPath

/-- What `fGetPath` gives with a working directory, which may be any absolute path. It is the text
of an absolute path, made of names with a slash in front of each, or the root: the names that are
left when the pieces of the path are read from left to right, behind those of the working directory
if the path is relative. Such a text is its own full path, and it can take the place of what stands
in front of a slash in a longer path. -/
theorem getPath_normal_form {r : Registry} (provides : ∀ f ∈ standard, f ∈ r.entries) {w : World}
    {below : String}
    (available : w.files.workingPath? = some (Path.ofText ("/" ++ below)).parts) :
    (∀ stamp path, ∃ fresh later,
      (r.call "fileio" "fGetPath" [.string stamp path]).run w =
        (.ok (.string fresh (fullPath w.files path)), later) ∧ later.files = w.files) ∧
    (∀ path, ∃ names,
      (∀ left, Path.ReducesTo ((if path.toList.head? = some '/' then []
          else Path.pieces ("/" ++ below)) ++ Path.pieces path) left ↔ left = names) ∧
      (∀ name ∈ names, Path.IsName name) ∧
      fullPath w.files path =
        if names = [] then "/" else String.join (names.map ("/" ++ ·))) ∧
    (∀ path, (fullPath w.files path).toList.head? = some '/' ∧
      ((fullPath w.files path).toList.getLast? = some '/' → fullPath w.files path = "/")) ∧
    (∀ path, fullPath w.files (fullPath w.files path) = fullPath w.files path) ∧
    ∀ front back, front ≠ "" →
      fullPath w.files (front ++ "/" ++ back) =
        fullPath w.files (fullPath w.files front ++ "/" ++ back) := by
  have full := fullPath_eq available
  have areNames := Path.isName_of_mem_normalize ("/" ++ below)
  refine ⟨run_getPath provides w, fun path => ⟨_, fun left => ?reduced, areNames path, full path⟩,
    fun path => ⟨?absolute, ?slash⟩, fun path => ?again, fun front back nonempty => ?longer⟩
  case reduced => rw [Path.reducesTo_iff, ← Path.normalize_eq_stack]
  case absolute =>
    rw [full]
    exact Path.isAbsolute_ofText.1 (Path.isAbsolute_render _)
  case slash =>
    rw [full]
    exact Path.render_eq_root (areNames path)
  case again => rw [full, full path, Path.normalize_render (areNames path)]
  case longer =>
    have same : Path.normalize (Path.ofText ("/" ++ below)).parts
        (Path.ofText (fullPath w.files front)) =
          Path.normalize (Path.ofText ("/" ++ below)).parts (Path.ofText front) := by
      rw [full, Path.normalize_render (areNames front)]
    rw [full, full (fullPath w.files front ++ "/" ++ back),
      Path.normalize_append_slash nonempty,
      Path.normalize_append_slash (fullPath_ne_empty available front), same]

/-- A relative path is put behind the working directory, also one that goes up further than there
are directories and one in front of another path. -/
theorem getPath_normal_form_upwards :
    let w : World := { store := {}, files := FileTree.withWorkingPath ["w"] }
    (∃ fresh later, (standardRegistry.call "fileio" "fGetPath" [.string ⟨0⟩ "x"]).run w =
        (.ok (.string fresh "/w/x"), later)) ∧
      (∃ fresh later, (standardRegistry.call "fileio" "fGetPath"
        [.string ⟨0⟩ "a//./../../../b/"]).run w = (.ok (.string fresh "/b"), later)) ∧
      fullPath w.files (".." ++ "/" ++ "c/..") =
        fullPath w.files (fullPath w.files ".." ++ "/" ++ "c/..") := by
  intro w
  have available : w.files.workingPath? = some (Path.ofText ("/" ++ "w")).parts := by decide
  obtain ⟨runs, _, _, _, longer⟩ := getPath_normal_form provides_standardRegistry available
  obtain ⟨fresh, later, run, _⟩ := runs ⟨0⟩ "x"
  obtain ⟨freshUp, laterUp, runUp, _⟩ := runs ⟨0⟩ "a//./../../../b/"
  have text : fullPath w.files "x" = "/w/x" := by decide
  have textUp : fullPath w.files "a//./../../../b/" = "/b" := by decide
  rw [text] at run
  rw [textUp] at runUp
  exact ⟨⟨fresh, later, run⟩, ⟨freshUp, laterUp, runUp⟩, longer ".." "c/.." (by decide)⟩

end ScriptHost.Library
