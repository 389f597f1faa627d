import ScriptHost.Proofs.FileTree.Lookup

/-!
What removing does to the tree as a whole. At most one entry goes, which is the one that the path
names; what it stood for was a regular file or a directory without entries. All bytes stay for those
who have a file open.
-/

namespace ScriptHost.FileTree

variable {t u : FileTree} {id other directory parent : NodeId} {name path : String} {p : Path}
  {isRemoved : Bool} {cause : FileError}

/-- A directory that holds nothing. -/
def IsEmptyDirectory (t : FileTree) (id : NodeId) : Prop :=
  ∃ parent isRemoved, t.node? id = some (.directory parent ∅ isRemoved)

/-- The second tree has one entry less, the one that the path led to. No other step of a path has
changed, and the contents of files are what they were. -/
structure LosesEntry (t : FileTree) (path : String) (id : NodeId) (u : FileTree) : Prop where
  leads : t.openExisting path = .ok id
  gone : u.openExisting path = .error .notFound
  content?_eq : ∀ other, u.content? other = t.content? other
  isDirectory_eq : ∀ other, u.isDirectory other = t.isDirectory other
  workingNode_eq : u.workingNode = t.workingNode
  step_eq : ∃ directory name, t.entry? directory name = .ok (some id) ∧
    (name ≠ "." ∧ name ≠ "..") ∧
    (∀ other part, other ≠ id → u.step other part =
      if other = directory ∧ part = name then .error .notFound else t.step other part) ∧
    ∀ part child, u.step id part = .ok child ↔ t.step id part = .ok child

/-! ### Entries taken away -/

theorem workingNode_modifyEntries (change : NameMap NodeId → NameMap NodeId) :
    (t.modifyEntries directory change).workingNode = t.workingNode := by
  unfold modifyEntries
  split <;> rfl

section EraseEntry

variable (found : t.entry? directory name = .ok (some id))
include found

theorem node?_eraseEntry :
    ∃ parent entries, t.node? directory = some (.directory parent entries false) ∧
      entries.get? name = some id ∧ name.utf8ByteSize ≤ maxNameBytes ∧
      ∀ other, (t.modifyEntries directory (·.erase name)).node? other =
        if directory = other then some (.directory parent (entries.erase name) false)
        else t.node? other := by
  obtain ⟨parent, entries, above, fits, child⟩ := entry?_eq_ok_iff.1 found
  refine ⟨parent, entries, above, child, fits, fun other => ?_⟩
  rw [modifyEntries, above]
  dsimp only
  rw [node?_setNode, above]
  rfl

theorem entry?_eraseEntry :
    FileTree.entry? (t.modifyEntries directory (·.erase name)) directory name = .ok none := by
  obtain ⟨parent, entries, _, _, fits, erased⟩ := node?_eraseEntry found
  refine entry?_eq_ok_iff.2 ⟨_, _, (erased directory).trans (if_pos rfl), fits, ?_⟩
  rw [NameMap.get?_erase, if_pos rfl]

theorem isDirectory_eraseEntry (other : NodeId) :
    (t.modifyEntries directory (·.erase name)).isDirectory other = t.isDirectory other := by
  obtain ⟨_, _, above, _, _, erased⟩ := node?_eraseEntry found
  by_cases here : directory = other
  · subst here
    rw [isDirectory, isDirectory, erased, if_pos rfl, above]
  · rw [isDirectory, isDirectory, erased, if_neg here]

/-- One step is not possible any more, and no other step has changed. -/
theorem step_eraseEntry (isName : name ≠ "." ∧ name ≠ "..") (other : NodeId) (part : String) :
    (t.modifyEntries directory (·.erase name)).step other part =
      if other = directory ∧ part = name then .error .notFound else t.step other part := by
  obtain ⟨_, _, above, _, _, erased⟩ := node?_eraseEntry found
  split
  next both =>
    obtain ⟨rfl, rfl⟩ := both
    exact step_eq_notFound (entry?_eraseEntry found) isName
  next differ =>
    refine step_eq_of_entries above ((erased directory).trans (if_pos rfl))
      (fun part named => ?kept) (fun here => ?elsewhere) differ
    case kept => rw [NameMap.get?_erase, if_neg (Ne.symm named)]
    case elsewhere => rw [directory?, directory?, erased, if_neg (Ne.symm here)]

end EraseEntry

/-! ### Paths -/

/-- Steps that are lost are not found any more, so that a walk is either the same or not found. -/
theorem walk_of_lost {start : NodeId} {parts : List String}
    (steps : ∀ other part child, t.step other part = .ok child →
      u.step other part = .ok child ∨ u.step other part = .error .notFound)
    (walked : t.walk start parts = .ok id) :
    u.walk start parts = .ok id ∨ u.walk start parts = .error .notFound := by
  induction parts generalizing start with
  | nil => exact .inl walked
  | cons part rest ih =>
    rw [walk_cons] at walked ⊢
    obtain ⟨child, stepped, walked⟩ := exists_of_bind_eq_ok walked
    rcases steps start part child stepped with same | lost
    · rw [same]
      exact ih walked
    · rw [lost]
      exact .inr rfl

/-- A path is not found when the step at its end is lost. -/
theorem openExisting_of_lost (accepted : Path.accept path = .ok p)
    (placed : t.place p = .ok (directory, some name)) (home : u.workingNode = t.workingNode)
    (steps : ∀ other part child, t.step other part = .ok child →
      u.step other part = .ok child ∨ u.step other part = .error .notFound)
    (lost : u.step directory name = .error .notFound) :
    u.openExisting path = .error .notFound := by
  have place := Place.of_place_eq_ok placed
  rw [openExisting_of_accept accepted]
  apply resolve_of_walk_error
  rw [start_congr home, place.parts]
  rcases walk_of_lost steps place.walk with same | missing
  · rw [walk_append_of_ok same, walk_cons, lost]
    rfl
  · exact walk_append_of_error missing [name]

theorem openExisting_of_entry (accepted : Path.accept path = .ok p)
    (placed : t.place p = .ok (directory, some name))
    (found : t.entry? directory name = .ok (some id)) (slash : p.endsInSlash → t.isDirectory id) :
    t.openExisting path = .ok id := by
  rw [openExisting_of_accept accepted]
  exact resolve_eq_ok_iff.2 ⟨walk_of_entry?_some placed found, slash⟩

/-! ### Files -/

/-- How an attempt to remove a file can end: the file at the path is removed, or there is a
directory at the path, or the path leads nowhere, and the attempt fails for the reason for which the
path does. -/
inductive FileRemoval (t : FileTree) (path : String) : Except FileError FileTree → Prop
  | removed {id : NodeId} {u : FileTree} (isFile : (t.content? id).isSome)
    (lost : LosesEntry t path id u) : FileRemoval t path (.ok u)
  | directory {id : NodeId} {cause : FileError} (leads : t.openExisting path = .ok id)
    (isDirectory : t.isDirectory id) (present : cause ≠ .notFound) :
    FileRemoval t path (.error cause)
  | nowhere {cause : FileError} (failed : t.openExisting path = .error cause) :
    FileRemoval t path (.error cause)

theorem losesEntry_eraseEntry (accepted : Path.accept path = .ok p)
    (placed : t.place p = .ok (directory, some name))
    (found : t.entry? directory name = .ok (some id)) (isFile : t.isDirectory id = false)
    (noSlash : ¬p.endsInSlash) :
    LosesEntry t path id (t.modifyEntries directory (·.erase name)) := by
  have isName := (Place.of_place_eq_ok placed).isName
  have steps := step_eraseEntry found isName
  have differ : id ≠ directory := by
    rintro rfl
    exact Bool.false_ne_true (isFile.symm.trans (isDirectory_of_place placed))
  exact
    { leads := openExisting_of_entry accepted placed found fun slash => absurd slash noSlash
      gone := by
        refine openExisting_of_lost accepted placed (workingNode_modifyEntries _) ?_ ?_
        · intro other part child stepped
          rw [steps]
          split
          next => exact .inr rfl
          next => exact .inl stepped
        · rw [steps, if_pos ⟨rfl, rfl⟩]
      content?_eq := content?_modifyEntries t directory _
      isDirectory_eq := isDirectory_eraseEntry found
      workingNode_eq := workingNode_modifyEntries _
      step_eq := by
        refine ⟨directory, name, found, isName, fun other part _ => steps other part,
          fun part child => ?_⟩
        rw [steps, if_neg fun both => differ both.1] }

theorem Sound.fileRemoval (sound : t.Sound) (path : String) :
    FileRemoval t path (t.removeFile path) := by
  rw [FileTree.removeFile]
  cases accepted : Path.accept path with
  | error cause =>
    refine .nowhere ?_
    rw [openExisting, accepted]
    rfl
  | ok p =>
    show FileRemoval t path (t.place p >>= _)
    have lookup : t.openExisting path = t.resolve p := openExisting_of_accept accepted t
    cases placed : t.place p with
    | error cause => exact .nowhere (lookup.trans (resolve_of_place_error placed))
    | ok place =>
      obtain ⟨directory, _ | name⟩ := place
      · obtain ⟨id, leads, isDirectory⟩ := sound.exists_resolve_of_place placed
        exact .directory (lookup.trans leads) isDirectory (by decide)
      show FileRemoval t path (t.entry? directory name >>= _)
      cases found : t.entry? directory name with
      | error cause => exact .nowhere (lookup.trans (resolve_of_entry?_error placed found))
      | ok entry =>
        cases entry with
        | none => exact .nowhere (lookup.trans (resolve_of_entry?_none placed found))
        | some id =>
          show FileRemoval t path (if t.isDirectory id then _ else _)
          split
          next isDirectory =>
            exact .directory (openExisting_of_entry accepted placed found fun _ => isDirectory)
              isDirectory (by decide)
          next notDirectory =>
            have isFile : t.isDirectory id = false := by simpa using notDirectory
            split
            next slash =>
              refine .nowhere (lookup.trans ?_)
              rw [resolve, walk_of_entry?_some placed found]
              simp [slash, isFile]
            next noSlash =>
              obtain ⟨_, _, here, _, child⟩ := entry?_eq_ok_iff.1 found
              exact .removed (isSome_content? ((sound.fits _ _ here).2 _ _ child) notDirectory)
                (losesEntry_eraseEntry accepted placed found isFile noSlash)

/-! ### Directories -/

/-- The last part of the path is a name, and the name is that of a directory that holds nothing. -/
def NamesEmptyDirectory (t : FileTree) (path : String) : Prop :=
  ∃ p directory name id, Path.accept path = .ok p ∧ t.place p = .ok (directory, some name) ∧
    t.entry? directory name = .ok (some id) ∧ t.IsEmptyDirectory id

theorem eq_empty_of_isEmpty {entries : NameMap NodeId} (empty : entries.isEmpty) : entries = ∅ :=
  NameMap.ext (List.isEmpty_iff.1 empty)

theorem step_of_empty {part : String} {child : NodeId}
    (here : t.node? id = some (.directory parent ∅ isRemoved)) :
    t.step id part = .ok child ↔ part = "." ∧ child = id ∨ part = ".." ∧ child = parent := by
  constructor
  · intro stepped
    obtain ⟨_, _, _, again, dot | dots | ⟨_, entry⟩⟩ := step_cases stepped
    · exact .inl dot
    · cases again.symm.trans here
      exact .inr dots
    · obtain ⟨_, _, again, _, bound⟩ := entry?_eq_ok_iff.1 entry
      cases again.symm.trans here
      cases bound
  · rintro (⟨rfl, rfl⟩ | ⟨rfl, rfl⟩)
    · rw [step, here]
      rfl
    · rw [step, here]
      rfl

/-- What is left of a tree when a directory loses its name and takes no entries any more. -/
def dropDirectory (t : FileTree) (directory : NodeId) (name : String) (id parent : NodeId) :
    FileTree :=
  (t.modifyEntries directory (·.erase name)).setNode id (.directory parent ∅ true)

section DropDirectory

variable (found : t.entry? directory name = .ok (some id))
  (empty : t.node? id = some (.directory parent ∅ isRemoved))
include found empty

theorem ne_of_empty : id ≠ directory := by
  obtain ⟨_, _, above, _, bound⟩ := entry?_eq_ok_iff.1 found
  rintro rfl
  cases above.symm.trans empty
  cases bound

theorem node?_eraseEntry_of_empty :
    (t.modifyEntries directory (·.erase name)).node? id =
      some (.directory parent ∅ isRemoved) := by
  obtain ⟨_, _, _, _, _, erased⟩ := node?_eraseEntry found
  rw [erased, if_neg (Ne.symm (ne_of_empty found empty)), empty]

theorem node?_dropDirectory (other : NodeId) :
    (t.dropDirectory directory name id parent).node? other =
      if id = other then some (.directory parent ∅ true)
      else (t.modifyEntries directory (·.erase name)).node? other := by
  rw [dropDirectory, node?_setNode, node?_eraseEntry_of_empty found empty]
  rfl

theorem isDirectory_dropDirectory (other : NodeId) :
    (t.dropDirectory directory name id parent).isDirectory other = t.isDirectory other := by
  by_cases here : id = other
  · subst here
    have after : (t.dropDirectory directory name id parent).isDirectory id :=
      isDirectory_iff.2 ⟨_, _, _, (node?_dropDirectory found empty id).trans (if_pos rfl)⟩
    exact after.trans (isDirectory_iff.2 ⟨_, _, _, empty⟩).symm
  · rw [← isDirectory_eraseEntry found, isDirectory, isDirectory,
      node?_dropDirectory found empty, if_neg here]

theorem step_dropDirectory_self (part : String) (child : NodeId) :
    (t.dropDirectory directory name id parent).step id part = .ok child ↔
      t.step id part = .ok child :=
  (step_of_empty ((node?_dropDirectory found empty id).trans (if_pos rfl))).trans
    (step_of_empty empty).symm

theorem step_dropDirectory (isName : name ≠ "." ∧ name ≠ "..") (elsewhere : other ≠ id)
    (part : String) :
    (t.dropDirectory directory name id parent).step other part =
      if other = directory ∧ part = name then .error .notFound else t.step other part := by
  rw [← step_eraseEntry found isName]
  refine step_congr ?_ part
  rw [directory?, directory?, node?_dropDirectory found empty, if_neg (Ne.symm elsewhere)]

theorem losesEntry_dropDirectory (accepted : Path.accept path = .ok p)
    (placed : t.place p = .ok (directory, some name)) :
    LosesEntry t path id (t.dropDirectory directory name id parent) := by
  have isName := (Place.of_place_eq_ok placed).isName
  have home : (t.dropDirectory directory name id parent).workingNode = t.workingNode :=
    workingNode_modifyEntries _
  exact
    { leads := openExisting_of_entry accepted placed found fun _ =>
        isDirectory_iff.2 ⟨_, _, _, empty⟩
      gone := by
        refine openExisting_of_lost accepted placed home (fun other part child stepped => ?_) ?_
        · by_cases here : other = id
          · subst here
            exact .inl ((step_dropDirectory_self found empty part child).2 stepped)
          · rw [step_dropDirectory found empty isName here]
            split
            next => exact .inr rfl
            next => exact .inl stepped
        · rw [step_dropDirectory found empty isName (Ne.symm (ne_of_empty found empty)),
            if_pos ⟨rfl, rfl⟩]
      content?_eq := fun other => by
        have isDirectory := isDirectory_iff.2
          ⟨_, _, _, node?_eraseEntry_of_empty found empty⟩
        rw [dropDirectory, content?_setNode_directory isDirectory, content?_modifyEntries]
      isDirectory_eq := isDirectory_dropDirectory found empty
      workingNode_eq := home
      step_eq := ⟨directory, name, found, isName,
        fun other part elsewhere => step_dropDirectory found empty isName elsewhere part,
        step_dropDirectory_self found empty⟩ }

end DropDirectory

theorem removeDirectory_effect (removed : t.removeDirectory path = .ok u) :
    ∃ id, t.IsEmptyDirectory id ∧ LosesEntry t path id u := by
  obtain ⟨p, directory, name, id, parent, entries, isRemoved, accepted, placed, found, here,
    empty, rfl⟩ := removeDirectory_cases removed
  obtain rfl := eq_empty_of_isEmpty empty
  exact ⟨id, ⟨parent, isRemoved, here⟩, losesEntry_dropDirectory found here accepted placed⟩

theorem exists_removeDirectory_iff :
    (∃ u, t.removeDirectory path = .ok u) ↔ t.NamesEmptyDirectory path := by
  constructor
  · rintro ⟨u, removed⟩
    obtain ⟨p, directory, name, id, parent, entries, isRemoved, accepted, placed, found, here,
      empty, -⟩ := removeDirectory_cases removed
    obtain rfl := eq_empty_of_isEmpty empty
    exact ⟨p, directory, name, id, accepted, placed, found, parent, isRemoved, here⟩
  · rintro ⟨p, directory, name, id, accepted, placed, found, parent, isRemoved, here⟩
    refine ⟨t.dropDirectory directory name id parent, ?_⟩
    rw [removeDirectory, accepted]
    show t.place p >>= _ = _
    rw [placed]
    show t.entry? directory name >>= _ = _
    rw [found]
    dsimp only [bind, Except.bind]
    rw [here]
    rfl

end ScriptHost.FileTree
