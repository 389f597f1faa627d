import ScriptHost.Proofs.FileTree.Effects

/-!
How the place that a path names and the node that it leads to hang together. All that decides about
a path but its last part is decided for both in the same way, so that what fails for one of them
fails for the other with the same cause.
-/

namespace ScriptHost.FileTree

variable {t : FileTree} {id directory : NodeId} {name last : String} {front rest : List String}
  {p : Path} {cause : FileError}

theorem isDirectory_of_step {part : String} {child : NodeId}
    (stepped : t.step id part = .ok child) : t.isDirectory id := by
  obtain ⟨_, _, _, here, _⟩ := step_cases stepped
  exact isDirectory_iff.2 ⟨_, _, _, here⟩

/-! ### Walks -/

theorem walk_append (t : FileTree) (start : NodeId) (front rest : List String) :
    t.walk start (front ++ rest) = t.walk start front >>= (t.walk · rest) :=
  List.foldlM_append

theorem walk_append_of_error {start : NodeId} (failed : t.walk start front = .error cause)
    (rest : List String) : t.walk start (front ++ rest) = .error cause := by
  rw [walk_append, failed]
  rfl

theorem walk_append_of_ok {start : NodeId} (walked : t.walk start front = .ok directory)
    (rest : List String) : t.walk start (front ++ rest) = t.walk directory rest := by
  rw [walk_append, walked]
  rfl

/-- A way to a directory goes through directories only. -/
theorem exists_walk_of_append {start : NodeId} (walked : t.walk start (front ++ rest) = .ok id)
    (isDirectory : t.isDirectory id) :
    ∃ between, t.walk start front = .ok between ∧ t.isDirectory between := by
  rw [walk_append] at walked
  obtain ⟨between, before, after⟩ := exists_of_bind_eq_ok walked
  refine ⟨between, before, ?_⟩
  cases rest with
  | nil =>
    obtain rfl := Except.ok.inj after
    exact isDirectory
  | cons part more =>
    rw [walk_cons] at after
    obtain ⟨_, stepped, _⟩ := exists_of_bind_eq_ok after
    exact isDirectory_of_step stepped

theorem resolve_of_walk_error (failed : t.walk (t.start p) p.parts = .error cause) :
    t.resolve p = .error cause := by
  rw [resolve, failed]

/-! ### Places -/

theorem place_of_walk_error (split : p.parts = front ++ [last])
    (failed : t.walk (t.start p) front = .error cause) : t.place p = .error cause := by
  rw [place, split, List.getLast?_concat, List.dropLast_concat]
  dsimp only
  rw [failed]

/-- What a place says of its path: the path is its own start, or all of its parts but the last one
lead to the directory of the place. -/
theorem place_cases {named : Option String} (placed : t.place p = .ok (directory, named)) :
    p.parts = [] ∧ named = none ∨
      ∃ front last, p.parts = front ++ [last] ∧ t.walk (t.start p) front = .ok directory ∧
        t.isDirectory directory ∧ named = if last = "." ∨ last = ".." then none else some last := by
  unfold place at placed
  split at placed
  next none =>
    cases placed
    exact .inl ⟨List.getLast?_eq_none_iff.1 none, rfl⟩
  next last here =>
    obtain ⟨front, split⟩ := List.getLast?_eq_some_iff.1 here
    rw [split, List.dropLast_concat] at placed
    split at placed
    next => cases placed
    next reached walked =>
      split at placed
      next isDirectory =>
        cases placed
        exact .inr ⟨front, last, split, walked, isDirectory, rfl⟩
      next => cases placed

theorem resolve_of_place_error (failed : t.place p = .error cause) :
    t.resolve p = .error cause := by
  unfold place at failed
  split at failed
  next => cases failed
  next last here =>
    obtain ⟨front, split⟩ := List.getLast?_eq_some_iff.1 here
    rw [split, List.dropLast_concat] at failed
    apply resolve_of_walk_error
    split at failed
    next walked =>
      cases failed
      rw [split]
      exact walk_append_of_error walked [last]
    next directory walked =>
      split at failed
      next => cases failed
      next isFile =>
        cases failed
        rw [split, walk_append_of_ok walked, walk_cons,
          step_of_not_isDirectory (by simpa using isFile)]
        rfl

/-- A path that names no place is the root, the start of paths, or ends in a step to a directory. -/
theorem Sound.exists_resolve_of_place (sound : t.Sound)
    (placed : t.place p = .ok (directory, none)) :
    ∃ id, t.resolve p = .ok id ∧ t.isDirectory id := by
  obtain ⟨empty, _⟩ | ⟨front, last, split, walked, isDirectory, named⟩ := place_cases placed
  · have start := sound.isDirectory_start p
    refine ⟨t.start p, resolve_eq_ok_iff.2 ⟨?_, fun _ => start⟩, start⟩
    rw [empty]
    rfl
  · have stepped : ∃ id, t.step directory last = .ok id ∧ t.isDirectory id := by
      obtain ⟨parent, entries, isRemoved, here⟩ := isDirectory_iff.1 isDirectory
      split at named
      next dots =>
        rw [step, here]
        dsimp only
        split
        next => exact ⟨directory, rfl, isDirectory⟩
        next notDot =>
          rw [if_pos (dots.resolve_left notDot)]
          exact ⟨parent, rfl, (sound.fits _ _ here).1⟩
      next => cases named
    obtain ⟨id, stepped, isDirectory⟩ := stepped
    refine ⟨id, resolve_eq_ok_iff.2 ⟨?_, fun _ => isDirectory⟩, isDirectory⟩
    rw [split, walk_append_of_ok walked, walk_cons, stepped]
    rfl

section Named

variable (placed : t.place p = .ok (directory, some name))
include placed

theorem isDirectory_of_place : t.isDirectory directory := by
  obtain ⟨_, none⟩ | ⟨_, _, _, _, isDirectory, _⟩ := place_cases placed
  · cases none
  · exact isDirectory

theorem walk_of_place : t.walk (t.start p) p.parts = t.step directory name := by
  have place := Place.of_place_eq_ok placed
  rw [place.parts, walk_append_of_ok place.walk]
  exact bind_pure _

theorem resolve_of_entry?_error (failed : t.entry? directory name = .error cause) :
    t.resolve p = .error cause := by
  have place := Place.of_place_eq_ok placed
  apply resolve_of_walk_error
  obtain ⟨_, _, _, here⟩ := isDirectory_iff.1 (isDirectory_of_place placed)
  rw [walk_of_place placed, step, here]
  dsimp only
  rw [if_neg place.isName.1, if_neg place.isName.2, failed]

theorem resolve_of_entry?_none (missing : t.entry? directory name = .ok none) :
    t.resolve p = .error .notFound := by
  apply resolve_of_walk_error
  rw [walk_of_place placed]
  exact step_eq_notFound missing (Place.of_place_eq_ok placed).isName

theorem walk_of_entry?_some (found : t.entry? directory name = .ok (some id)) :
    t.walk (t.start p) p.parts = .ok id := by
  rw [walk_of_place placed]
  exact step_eq_of_entry? (Place.of_place_eq_ok placed).isName found

end Named

end ScriptHost.FileTree
