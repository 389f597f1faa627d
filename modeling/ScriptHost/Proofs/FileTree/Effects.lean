import ScriptHost.Proofs.FileTree.Sound

/-!
What opening a file for writing does to the tree as a whole. It makes one empty file under a name
that nothing had, or it takes the bytes of the file that is there, or it leaves the tree as it was;
and all other paths lead where they led before.
-/

namespace ScriptHost.FileTree

variable {t u : FileTree} {id other directory : NodeId} {name path text : String} {p : Path}

/-- Every path leads to the same node in both trees. -/
structure SameNames (t u : FileTree) : Prop where
  workingNode_eq : u.workingNode = t.workingNode
  workingPath?_eq : u.workingPath? = t.workingPath?
  isDirectory_eq : ∀ id, u.isDirectory id = t.isDirectory id
  step_eq : ∀ id part, u.step id part = t.step id part

/-- The second tree has one file more, with one entry for it. The file is empty, and it is at the
path, where there was nothing. -/
structure MakesFile (t : FileTree) (path : String) (id : NodeId) (u : FileTree) : Prop where
  missing : t.openExisting path = .error .notFound
  fresh : t.node? id = none
  leads : u.openExisting path = .ok id
  content?_eq : ∀ other, u.content? other = if other = id then some .empty else t.content? other
  isDirectory_eq : ∀ other, u.isDirectory other = t.isDirectory other
  workingNode_eq : u.workingNode = t.workingNode
  workingPath?_eq : u.workingPath? = t.workingPath?
  step_eq : ∃ directory name, t.step directory name = .error .notFound ∧ ∀ other part,
    u.step other part = if other = directory ∧ part = name then .ok id else t.step other part

/-- The file at the path has lost its bytes in the second tree, and nothing else differs. -/
structure EmptiesFile (t : FileTree) (path : String) (id : NodeId) (u : FileTree) : Prop where
  leads : t.openExisting path = .ok id
  isFile : (t.content? id).isSome
  content?_eq : ∀ other, u.content? other = if other = id then some .empty else t.content? other
  names : SameNames t u

/-! ### Paths -/

theorem resolve_eq_ok_iff :
    t.resolve p = .ok id ↔
      t.walk (t.start p) p.parts = .ok id ∧ (p.endsInSlash → t.isDirectory id) := by
  unfold resolve
  split
  next cause failed => simp [failed]
  next reached walked =>
    rw [walked]
    split
    next refused =>
      simp only [Bool.and_eq_true, Bool.not_eq_true'] at refused
      refine iff_of_false nofun fun ⟨same, isDirectory⟩ => ?_
      rw [← Except.ok.inj same, refused.2] at isDirectory
      exact absurd (isDirectory refused.1) Bool.false_ne_true
    next accepted =>
      refine ⟨fun same => ⟨same, fun slash => ?_⟩, And.left⟩
      rw [← Except.ok.inj same]
      simpa [slash] using accepted

theorem place_of_walk {front : List String} {last : String} (split : p.parts = front ++ [last])
    (walked : t.walk (t.start p) front = .ok directory) (isDirectory : t.isDirectory directory) :
    t.place p = .ok (directory, if last = "." ∨ last = ".." then none else some last) := by
  rw [place, split, List.getLast?_concat, List.dropLast_concat]
  dsimp only
  rw [walked]
  exact if_pos isDirectory

/-- In two trees that differ in one entry at most, all other steps are the same. -/
theorem step_eq_of_entries {parent : NodeId} {entries more : NameMap NodeId} {part : String}
    (was : t.node? directory = some (.directory parent entries false))
    (now : u.node? directory = some (.directory parent more false))
    (kept : ∀ part, part ≠ name → more.get? part = entries.get? part)
    (elsewhere : other ≠ directory → u.directory? other = t.directory? other)
    (differ : ¬(other = directory ∧ part = name)) : u.step other part = t.step other part := by
  by_cases here : other = directory
  · subst here
    have entry : u.entry? other part = t.entry? other part := by
      rw [ entry?, entry?, now, was]
      dsimp only
      rw [kept part fun named => differ ⟨rfl, named⟩]
    rw [step, step, entry, now, was]
  · exact step_congr (elsewhere here) part

theorem SameNames.openExisting_eq (names : SameNames t u) (text : String) :
    u.openExisting text = t.openExisting text := by
  have step : u.step = t.step := funext fun id => funext (names.step_eq id)
  have start : u.start = t.start := funext (start_congr names.workingNode_eq)
  have resolve : u.resolve = t.resolve := by
    funext p
    simp only [FileTree.resolve, walk, step, start, names.isDirectory_eq]
  rw [openExisting, openExisting, resolve]

namespace MakesFile

variable (made : MakesFile t path id u)
include made

theorem isFile : u.isDirectory id = false := by
  rw [made.isDirectory_eq, isDirectory, made.fresh]

theorem walk_eq_ok_iff (differ : other ≠ id) (start : NodeId) (parts : List String) :
    u.walk start parts = .ok other ↔ t.walk start parts = .ok other := by
  obtain ⟨directory, name, missing, steps⟩ := made.step_eq
  induction parts generalizing start with
  | nil => rfl
  | cons part rest ih =>
    rw [walk_cons, walk_cons, steps]
    split
    next new =>
      -- The entry of the new file: a path ends there, or fails as there is nothing behind it.
      obtain ⟨rfl, rfl⟩ := new
      rw [missing]
      refine iff_of_false (fun reached => ?_) nofun
      cases rest with
      | nil => exact differ (Except.ok.inj reached).symm
      | cons next rest =>
        have stops : u.walk id (next :: rest) = .error .notDirectory := by
          rw [walk_cons, step_of_not_isDirectory made.isFile]
          rfl
        cases stops.symm.trans reached
    next =>
      cases t.step start part with
      | error cause => exact iff_of_false nofun nofun
      | ok child => exact ih child

/-- Whatever another path led to it leads to still, and it leads to nothing else but the new file.
-/
theorem openExisting_eq_ok_iff (differ : other ≠ id) (text : String) :
    u.openExisting text = .ok other ↔ t.openExisting text = .ok other := by
  cases accepted : Path.accept text with
  | error cause =>
    have refused (v : FileTree) : v.openExisting text = .error cause := by
      rw [openExisting, accepted]
      rfl
    rw [refused, refused]
  | ok p =>
    rw [openExisting_of_accept accepted, openExisting_of_accept accepted, resolve_eq_ok_iff,
      resolve_eq_ok_iff, start_congr made.workingNode_eq, made.walk_eq_ok_iff differ,
      made.isDirectory_eq]

end MakesFile

/-! ### Files that are emptied -/

theorem workingPath?_eq_bind (t : FileTree) :
    t.workingPath? = (t.directory? t.workingNode).bind fun (_, _, isRemoved) =>
      if isRemoved then none else some t.workingPath := by
  unfold workingPath? directory?
  rcases t.node? t.workingNode with _ | (_ | ⟨_, _, _ | _⟩) <;> rfl

theorem SameNames.of_directory?_eq (home : u.workingNode = t.workingNode)
    (path : u.workingPath = t.workingPath) (same : ∀ id, u.directory? id = t.directory? id) :
    SameNames t u where
  workingNode_eq := home
  workingPath?_eq := by rw [workingPath?_eq_bind, workingPath?_eq_bind, home, path, same]
  isDirectory_eq id := isDirectory_congr (same id)
  step_eq id := step_congr (same id)

theorem sameNames_setContent (t : FileTree) (id : NodeId) (content : FileContent) :
    SameNames t (t.setContent id content) := by
  refine .of_directory?_eq (workingNode_setContent content) ?_ (directory?_setContent t id content)
  unfold setContent
  split <;> rfl

theorem emptiesFile_setContent (leads : t.openExisting path = .ok id)
    (isFile : (t.content? id).isSome) : EmptiesFile t path id (t.setContent id .empty) where
  leads := leads
  isFile := isFile
  content?_eq other := by
    obtain ⟨old, held⟩ := Option.isSome_iff_exists.1 isFile
    split
    next same =>
      subst same
      exact content?_setContent_self held .empty
    next differ => exact content?_setContent_of_ne (Ne.symm differ) .empty
  names := sameNames_setContent t id .empty

/-! ### Files that are made -/

theorem node?_new (t : FileTree) (directory : NodeId) (name : String) (node : Node) :
    t.node? (t.addNode directory name node).1 = none :=
  Array.getElem?_eq_none (Nat.le_refl _)

theorem content?_addNode (t : FileTree) (directory : NodeId) (name : String)
    (content : FileContent) (other : NodeId) :
    (t.addNode directory name (.file content)).2.content? other =
      if other = (t.addNode directory name (.file content)).1 then some content
      else t.content? other := by
  have named : other = (t.addNode directory name (.file content)).1 ↔
      other.index = t.nodes.size :=
    ⟨congrArg NodeId.index, congrArg NodeId.mk⟩
  refine (content?_modifyEntries _ directory _ other).trans ?_
  rw [content?, node?_push]
  by_cases new : other.index = t.nodes.size
  · rw [if_pos new, if_pos (named.2 new)]
  · rw [if_neg new, if_neg (named.not.2 new), content?]

section AddNode

variable (missing : t.entry? directory name = .ok none)
include missing

theorem directory?_addNode (content : FileContent) (differ : other ≠ directory) :
    (t.addNode directory name (.file content)).2.directory? other = t.directory? other := by
  obtain ⟨_, _, _, _, _, added⟩ := node?_addNode missing (.file content)
  rw [directory?, directory?, added, if_neg (Ne.symm differ), node?_push]
  by_cases new : other.index = t.nodes.size
  · have absent : t.node? other = none := Array.getElem?_eq_none new.ge
    rw [if_pos new, absent]
  · rw [if_neg new]

theorem isDirectory_addNode (content : FileContent) (other : NodeId) :
    (t.addNode directory name (.file content)).2.isDirectory other = t.isDirectory other := by
  by_cases here : other = directory
  · subst here
    obtain ⟨_, _, above, _, _, added⟩ := node?_addNode missing (.file content)
    rw [isDirectory, isDirectory, added, if_pos rfl, above]
  · exact isDirectory_congr (directory?_addNode missing content here)

theorem workingPath?_addNode (content : FileContent) :
    (t.addNode directory name (.file content)).2.workingPath? = t.workingPath? := by
  by_cases here : t.workingNode = directory
  · obtain ⟨_, _, above, _, _, added⟩ := node?_addNode missing (.file content)
    rw [workingPath?, workingPath?, workingNode_addNode, here, added, if_pos rfl, above,
      workingPath_addNode]
  · rw [workingPath?_eq_bind, workingPath?_eq_bind, workingNode_addNode, workingPath_addNode,
      directory?_addNode missing content here]

/-- One step is possible that was not, and no other step has changed. -/
theorem step_addNode (content : FileContent) (isName : name ≠ "." ∧ name ≠ "..") (other : NodeId)
    (part : String) :
    (t.addNode directory name (.file content)).2.step other part =
      if other = directory ∧ part = name then .ok (t.addNode directory name (.file content)).1
      else t.step other part := by
  obtain ⟨_, _, above, _, _, added⟩ := node?_addNode missing (.file content)
  split
  next both =>
    obtain ⟨rfl, rfl⟩ := both
    exact step_eq_of_entry? isName (entry?_addNode missing _)
  next differ =>
    refine step_eq_of_entries above ((added directory).trans (if_pos rfl)) (fun part named => ?_)
      (directory?_addNode missing content) differ
    rw [NameMap.get?_insert, if_neg (Ne.symm named)]

theorem step_eq_notFound (isName : name ≠ "." ∧ name ≠ "..") :
    t.step directory name = .error .notFound := by
  obtain ⟨_, _, above, _⟩ := entry?_eq_ok_iff.1 missing
  rw [step, above]
  dsimp only
  rw [if_neg isName.1, if_neg isName.2, missing]

theorem makesFile_addNode (accepted : Path.accept path = .ok p) (place : Place t p directory name)
    (noSlash : ¬p.endsInSlash) :
    MakesFile t path (t.addNode directory name (.file .empty)).1
      (t.addNode directory name (.file .empty)).2 where
  missing := by
    have failed : t.walk (t.start p) p.parts = .error .notFound := by
      rw [place.parts, walk_concat, place.walk]
      exact step_eq_notFound missing place.isName
    rw [openExisting_of_accept accepted, resolve, failed]
  fresh := node?_new t directory name _
  leads := by
    rw [openExisting_of_accept accepted]
    exact place.resolve_eq (stepsStay_addNode missing _) (workingNode_addNode _) noSlash
      (entry?_addNode missing _)
  content?_eq := content?_addNode t directory name .empty
  isDirectory_eq := isDirectory_addNode missing .empty
  workingNode_eq := workingNode_addNode _
  workingPath?_eq := workingPath?_addNode missing .empty
  step_eq := ⟨directory, name, step_eq_notFound missing place.isName,
    step_addNode missing .empty place.isName⟩

end AddNode

/-! ### Opening -/

/-- The last part of the path is a name for which the directory it belongs to has no entry. -/
def CanBeMade (t : FileTree) (path : String) : Prop :=
  ∃ p directory name, Path.accept path = .ok p ∧ t.place p = .ok (directory, some name) ∧
    ¬p.endsInSlash ∧ t.entry? directory name = .ok none

theorem leadsTo_iff {property : NodeId → Bool} :
    t.leadsTo path property ↔ ∃ id, t.openExisting path = .ok id ∧ property id := by
  unfold leadsTo
  split
  next refused =>
    refine iff_of_false Bool.false_ne_true ?_
    rintro ⟨id, leads, _⟩
    rw [openExisting, refused] at leads
    cases leads
  next p accepted =>
    rw [openExisting_of_accept accepted]
    cases t.resolve p with
    | error cause => simp
    | ok id => simp

theorem fileExists_iff :
    t.fileExists path ↔ ∃ id, t.openExisting path = .ok id ∧ (t.content? id).isSome :=
  leadsTo_iff

theorem directoryExists_iff :
    t.directoryExists path ↔ ∃ id, t.openExisting path = .ok id ∧ t.isDirectory id :=
  leadsTo_iff

theorem isSome_content? (there : (t.node? id).isSome) (isFile : ¬t.isDirectory id) :
    (t.content? id).isSome := by
  obtain ⟨node, here⟩ := Option.isSome_iff_exists.1 there
  cases node with
  | file content => rw [content?, here, Option.isSome_some]
  | directory parent entries isRemoved => exact absurd (isDirectory_iff.2 ⟨_, _, _, here⟩) isFile

theorem isDirectory_eq_false (isFile : (t.content? id).isSome) : t.isDirectory id = false := by
  refine eq_false_of_ne_true fun isDirectory => ?_
  rw [content?_of_isDirectory isDirectory] at isFile
  cases isFile

/-- A path to a regular file ends in a name, under which a directory has the file. -/
theorem Sound.exists_place (sound : t.Sound) (leads : t.resolve p = .ok id)
    (isFile : t.isDirectory id = false) :
    ∃ directory name, t.place p = .ok (directory, some name) ∧
      t.entry? directory name = .ok (some id) ∧ ¬p.endsInSlash := by
  obtain ⟨reached, slash⟩ := resolve_eq_ok_iff.1 leads
  have noSlash : ¬p.endsInSlash := fun ends => by
    rw [isFile] at slash
    exact absurd (slash ends) Bool.false_ne_true
  have other_ne {other : NodeId} (isDirectory : t.isDirectory other) : other ≠ id := by
    rintro rfl
    exact Bool.false_ne_true (isFile.symm.trans isDirectory)
  rcases List.eq_nil_or_concat p.parts with none | ⟨front, last, split⟩
  · -- The path is its own start, which is a directory.
    rw [none] at reached
    exact absurd (Except.ok.inj reached) (other_ne (sound.isDirectory_start p))
  · rw [List.concat_eq_append] at split
    rw [split, walk_concat] at reached
    obtain ⟨directory, walked, stepped⟩ := exists_of_bind_eq_ok reached
    obtain ⟨_, _, _, here, dot | dots | ⟨isName, entry⟩⟩ := step_cases stepped
    · exact absurd dot.2.symm (other_ne (isDirectory_iff.2 ⟨_, _, _, here⟩))
    · exact absurd dots.2.symm (other_ne (sound.fits _ _ here).1)
    refine ⟨directory, last, ?_, entry, noSlash⟩
    rw [place_of_walk split walked (isDirectory_iff.2 ⟨_, _, _, here⟩), if_neg (not_or.2 isName)]

/-- A path leads to a directory or to a regular file, and to nothing else. -/
theorem Sound.isDirectory_or_isFile (sound : t.Sound) (leads : t.openExisting path = .ok id) :
    t.isDirectory id ∨ (t.content? id).isSome := by
  by_cases isDirectory : t.isDirectory id
  · exact .inl isDirectory
  · obtain ⟨p, _, resolved⟩ := exists_of_bind_eq_ok leads
    obtain ⟨directory, name, _, entry, _⟩ :=
      sound.exists_place resolved (eq_false_of_ne_true isDirectory)
    obtain ⟨_, _, here, _, child⟩ := entry?_eq_ok_iff.1 entry
    exact .inr (isSome_content? ((sound.fits _ _ here).2 _ _ child) isDirectory)

/-- Opening for writing makes the file at the path, or finds it there; then it takes its bytes if it
is to, and does nothing else. -/
theorem Sound.openOrCreate_effect (sound : t.Sound) {truncate : Bool}
    (opened : t.openOrCreate path truncate = .ok (id, u)) :
    MakesFile t path id u ∧ t.CanBeMade path ∨
      t.openExisting path = .ok id ∧ (t.content? id).isSome ∧
        if truncate then EmptiesFile t path id u else u = t := by
  obtain ⟨p, directory, name, accepted, placed, noSlash, made | found⟩ :=
    openOrCreate_cases opened
  all_goals have place := Place.of_place_eq_ok placed
  · obtain ⟨missing, same⟩ := made
    obtain ⟨rfl, rfl⟩ := Prod.mk.inj same
    exact .inl ⟨makesFile_addNode missing accepted place noSlash,
      p, directory, name, accepted, placed, noSlash, missing⟩
  · obtain ⟨entry, isFile, rfl⟩ := found
    have leads : t.openExisting path = .ok id :=
      (openExisting_of_accept accepted t).trans (place.resolve_eq (.refl t) rfl noSlash entry)
    obtain ⟨_, _, here, _, child⟩ := entry?_eq_ok_iff.1 entry
    have held := isSome_content? ((sound.fits _ _ here).2 _ _ child) isFile
    refine .inr ⟨leads, held, ?_⟩
    split
    next => exact emptiesFile_setContent leads held
    next => rfl

theorem openOrCreate_of_place (accepted : Path.accept path = .ok p)
    (placed : t.place p = .ok (directory, some name)) (noSlash : ¬p.endsInSlash) (truncate : Bool) :
    t.openOrCreate path truncate = t.entry? directory name >>= fun
      | none => .ok (t.addNode directory name (.file .empty))
      | some id =>
        if t.isDirectory id then .error .isDirectory
        else .ok (id, if truncate then t.setContent id .empty else t) := by
  rw [openOrCreate, accepted]
  show t.place p >>= _ = _
  rw [placed]
  exact if_neg noSlash

/-- Opening for writing works where a regular file is or can be made, and nowhere else. -/
theorem Sound.exists_openOrCreate_iff (sound : t.Sound) (truncate : Bool) :
    (∃ id u, t.openOrCreate path truncate = .ok (id, u)) ↔
      t.fileExists path ∨ t.CanBeMade path := by
  constructor
  · rintro ⟨id, u, opened⟩
    obtain ⟨_, room⟩ | ⟨leads, isFile, _⟩ := sound.openOrCreate_effect opened
    · exact .inr room
    · exact .inl (fileExists_iff.2 ⟨id, leads, isFile⟩)
  · rintro (there | ⟨p, directory, name, accepted, placed, noSlash, missing⟩)
    · obtain ⟨id, leads, held⟩ := fileExists_iff.1 there
      obtain ⟨p, accepted, leads⟩ := exists_of_bind_eq_ok leads
      have isFile := isDirectory_eq_false held
      obtain ⟨directory, name, placed, entry, noSlash⟩ := sound.exists_place leads isFile
      refine ⟨id, if truncate then t.setContent id .empty else t, ?_⟩
      rw [openOrCreate_of_place accepted placed noSlash, entry]
      show (if t.isDirectory id then _ else _) = _
      rw [isFile]
      rfl
    · let made := t.addNode directory name (.file .empty)
      refine ⟨made.1, made.2, ?_⟩
      rw [openOrCreate_of_place accepted placed noSlash, missing]
      rfl

end ScriptHost.FileTree
