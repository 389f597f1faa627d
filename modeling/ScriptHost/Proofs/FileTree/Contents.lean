import Mathlib.Data.Set.Insert
import Mathlib.Logic.Relation
import ScriptHost.FileTree.Change

/-!
The files of a tree that changes around them. Directories are made and removed, and entries of files
are taken away, without any change to what a file holds.
-/

namespace ScriptHost.FileTree

variable {t u v : FileTree} {id other : NodeId} {text : String} {changed : Set NodeId}

/-- The bytes of a regular file. -/
def bytes? (t : FileTree) (id : NodeId) : Option (List UInt8) :=
  (t.content? id).map (·.toList)

/-- All files but the given ones are still there with the content they had. -/
def Keeps (changed : Set NodeId) (t u : FileTree) : Prop :=
  ∀ id ∉ changed, ∀ content, t.content? id = some content → u.content? id = some content

namespace Keeps

theorem refl (changed : Set NodeId) (t : FileTree) : Keeps changed t t :=
  fun _ _ _ held => held

theorem trans (first : Keeps changed t u) (second : Keeps changed u v) : Keeps changed t v :=
  fun id outside content held => second id outside content (first id outside content held)

theorem mono {more : Set NodeId} (keeps : Keeps changed t u) (wider : changed ⊆ more) :
    Keeps more t u :=
  fun id outside => keeps id fun inside => outside (wider inside)

theorem of_content?_eq (same : ∀ id, u.content? id = t.content? id) : Keeps changed t u :=
  fun id _ _ held => (same id).trans held

theorem bytes?_eq {bytes : List UInt8} (keeps : Keeps changed t u) (outside : id ∉ changed)
    (held : t.bytes? id = some bytes) : u.bytes? id = some bytes := by
  obtain ⟨content, here, rfl⟩ := Option.map_eq_some_iff.1 held
  rw [bytes?, keeps id outside content here]
  rfl

end Keeps

/-! ### Nodes put in place -/

theorem isDirectory_iff :
    t.isDirectory id ↔
      ∃ parent entries isRemoved, t.node? id = some (.directory parent entries isRemoved) := by
  unfold isDirectory
  split
  next parent entries isRemoved here => exact iff_of_true rfl ⟨parent, entries, isRemoved, here⟩
  next no =>
    exact iff_of_false Bool.false_ne_true fun ⟨parent, entries, isRemoved, here⟩ =>
      no parent entries isRemoved here

theorem content?_of_isDirectory (here : t.isDirectory id) : t.content? id = none := by
  obtain ⟨parent, entries, isRemoved, found⟩ := isDirectory_iff.1 here
  rw [content?, found]

theorem node?_setNode (t : FileTree) (id other : NodeId) (node : Node) :
    (t.setNode id node).node? other =
      if id = other then (t.node? id).map fun _ => node else t.node? other := by
  rcases id with ⟨index⟩
  rcases other with ⟨otherIndex⟩
  by_cases same : index = otherIndex
  · subst same
    by_cases inside : index < t.nodes.size <;> simp [setNode, node?, inside]
  · simp [setNode, node?, same]

/-- A directory that takes the place of a directory. -/
theorem content?_setNode_directory (was : t.isDirectory id) (parent : NodeId)
    (entries : NameMap NodeId) (isRemoved : Bool) (other : NodeId) :
    (t.setNode id (.directory parent entries isRemoved)).content? other = t.content? other := by
  by_cases same : id = other
  · subst same
    obtain ⟨_, _, _, found⟩ := isDirectory_iff.1 was
    rw [content?_of_isDirectory was, content?, node?_setNode, if_pos rfl, found]
    rfl
  · rw [content?, node?_setNode, if_neg same, content?]

theorem content?_modifyEntries (t : FileTree) (directory : NodeId)
    (change : NameMap NodeId → NameMap NodeId) (id : NodeId) :
    (t.modifyEntries directory change).content? id = t.content? id := by
  unfold modifyEntries
  split
  next here => exact content?_setNode_directory (isDirectory_iff.2 ⟨_, _, _, here⟩) ..
  next => rfl

theorem isDirectory_modifyEntries (t : FileTree) (directory : NodeId)
    (change : NameMap NodeId → NameMap NodeId) (here : t.isDirectory id) :
    (t.modifyEntries directory change).isDirectory id := by
  unfold modifyEntries
  split
  next parent entries isRemoved found =>
    rw [isDirectory_iff, node?_setNode]
    split
    next => rw [found]; exact ⟨_, _, _, rfl⟩
    next => exact isDirectory_iff.1 here
  next => exact here

theorem node?_push (t : FileTree) (node : Node) (id : NodeId) :
    { t with nodes := t.nodes.push node }.node? id =
      if id.index = t.nodes.size then some node else t.node? id := by
  rw [node?, Array.getElem?_push]
  rfl

theorem node?_push_of_some (node : Node) {here : Node} (found : t.node? id = some here) :
    { t with nodes := t.nodes.push node }.node? id = some here := by
  have inside : id.index < t.nodes.size := (Array.getElem?_eq_some_iff.1 found).1
  rw [node?_push, if_neg inside.ne, found]

theorem content?_setContent_of_ne (differ : id ≠ other) (content : FileContent) :
    (t.setContent id content).content? other = t.content? other := by
  unfold setContent
  split
  next => rw [content?, node?_setNode, if_neg differ, content?]
  next => rfl

theorem content?_setContent_self {old : FileContent} (held : t.content? id = some old)
    (content : FileContent) : (t.setContent id content).content? id = some content := by
  unfold content? at held
  split at held
  next found => rw [setContent, found, content?, node?_setNode, if_pos rfl, found]; rfl
  next => cases held

theorem keeps_setContent (t : FileTree) (id : NodeId) (content : FileContent) :
    Keeps {id} t (t.setContent id content) := by
  intro other outside old held
  have differ : id ≠ other := fun same => outside same.symm
  exact (content?_setContent_of_ne differ content).trans held

theorem keeps_addNode (t : FileTree) (directory : NodeId) (name : String) (node : Node) :
    Keeps changed t (t.addNode directory name node).2 := by
  intro id _ content held
  refine (content?_modifyEntries _ directory _ id).trans ?_
  unfold content? at held
  split at held
  next found => rw [content?, node?_push_of_some node found]; exact held
  next => cases held

/-! ### What the operations come to -/

theorem exists_of_bind_eq_ok {α β : Type} {first : Except FileError α}
    {next : α → Except FileError β} {b : β} (ends : first >>= next = .ok b) :
    ∃ a, first = .ok a ∧ next a = .ok b := by
  cases first with
  | error => cases ends
  | ok a => exact ⟨a, rfl, ends⟩

theorem makeDirectory_cases {p : Path} (made : t.makeDirectory p = .ok u) :
    ∃ directory name, t.place p = .ok (directory, some name) ∧
      t.entry? directory name = .ok none ∧
      u = (t.addNode directory name (.directory directory ∅ false)).2 := by
  unfold makeDirectory at made
  split at made
  next => cases made
  next => cases made
  next directory name placed =>
    split at made
    next => cases made
    next => cases made
    next missing =>
      cases made
      exact ⟨directory, name, placed, missing, rfl⟩

/-- One directory is made on the way from the first tree to the second one. -/
def MakesDirectory (t u : FileTree) : Prop :=
  ∃ p, t.makeDirectory p = .ok u

theorem makesDirectories_ensureDirectory (t : FileTree) (p : Path) :
    Relation.ReflTransGen MakesDirectory t (t.ensureDirectory p).2 := by
  unfold ensureDirectory
  split
  next made => exact .single ⟨p, made⟩
  next => exact .refl

theorem makesDirectories_ensureDirectories (t : FileTree) (p : Path) :
    Relation.ReflTransGen MakesDirectory t (t.ensureDirectories p).2 := by
  -- Directories made above stay, also when the one asked for cannot be made after them.
  fun_induction ensureDirectories t p with
  | case1 => exact .refl
  | case2 => exact makesDirectories_ensureDirectory _ _
  | case3 p _ above _ _ made reached ih =>
    rw [reached] at ih
    exact ih.trans (makesDirectories_ensureDirectory made p)
  | case4 p _ above _ _ made reached ih =>
    rw [reached] at ih
    exact ih
  | case5 => exact .refl
  | case6 p made eq => exact .single ⟨p, eq⟩

/-- Whatever comes of it, nothing is done but to make directories one after the other. -/
theorem makesDirectories_createDirectories (t : FileTree) (text : String) :
    Relation.ReflTransGen MakesDirectory t (t.createDirectories text).2 := by
  unfold createDirectories
  split
  next => exact .refl
  next =>
    split
    next => exact .refl
    next p _ => exact makesDirectories_ensureDirectories t p

theorem removeDirectory_cases (removed : t.removeDirectory text = .ok u) :
    ∃ p directory name id parent entries isRemoved, Path.accept text = .ok p ∧
      t.place p = .ok (directory, some name) ∧ t.entry? directory name = .ok (some id) ∧
      t.node? id = some (.directory parent entries isRemoved) ∧ entries.isEmpty ∧
      u = (t.modifyEntries directory (·.erase name)).setNode id (.directory parent ∅ true) := by
  obtain ⟨p, accepted, removed⟩ := exists_of_bind_eq_ok removed
  obtain ⟨⟨directory, _ | name⟩, placed, removed⟩ := exists_of_bind_eq_ok removed
  · cases removed
  obtain ⟨_ | id, entry, removed⟩ := exists_of_bind_eq_ok removed
  · cases removed
  dsimp only at removed
  split at removed
  next parent entries isRemoved here =>
    split at removed
    next empty =>
      cases removed
      exact ⟨p, directory, name, id, parent, entries, isRemoved, accepted, placed, entry, here,
        empty, rfl⟩
    next => cases removed
  next => cases removed

theorem removeFile_cases (removed : t.removeFile text = .ok u) :
    ∃ p directory name id, Path.accept text = .ok p ∧ t.place p = .ok (directory, some name) ∧
      t.entry? directory name = .ok (some id) ∧ ¬t.isDirectory id ∧ ¬p.endsInSlash ∧
      u = t.modifyEntries directory (·.erase name) := by
  obtain ⟨p, accepted, removed⟩ := exists_of_bind_eq_ok removed
  obtain ⟨⟨directory, _ | name⟩, placed, removed⟩ := exists_of_bind_eq_ok removed
  · cases removed
  obtain ⟨_ | id, entry, removed⟩ := exists_of_bind_eq_ok removed
  · cases removed
  dsimp only at removed
  split at removed
  next => cases removed
  next isFile =>
    split at removed
    next => cases removed
    next noSlash =>
      cases removed
      exact ⟨p, directory, name, id, accepted, placed, entry, isFile, noSlash, rfl⟩

/-! ### Directories and removal -/

theorem keeps_makeDirectory {p : Path} (made : t.makeDirectory p = .ok u) : Keeps changed t u := by
  obtain ⟨directory, name, _, _, rfl⟩ := makeDirectory_cases made
  exact keeps_addNode t directory name _

theorem keeps_createDirectories (t : FileTree) (text : String) :
    Keeps changed t (t.createDirectories text).2 := by
  have chain := makesDirectories_createDirectories t text
  generalize (t.createDirectories text).2 = last at chain
  induction chain with
  | refl => exact .refl _ t
  | tail _ makes ih =>
    obtain ⟨_, made⟩ := makes
    exact ih.trans (keeps_makeDirectory made)

theorem keeps_removeDirectory (removed : t.removeDirectory text = .ok u) : Keeps changed t u := by
  obtain ⟨_, directory, name, id, _, _, _, _, _, _, here, _, rfl⟩ := removeDirectory_cases removed
  refine .of_content?_eq fun other => ?_
  refine (content?_setNode_directory ?_ ..).trans (content?_modifyEntries ..)
  exact isDirectory_modifyEntries t _ _ (isDirectory_iff.2 ⟨_, _, _, here⟩)

theorem keeps_removeFile (removed : t.removeFile text = .ok u) : Keeps changed t u := by
  obtain ⟨_, directory, name, _, _, _, _, _, _, rfl⟩ := removeFile_cases removed
  exact .of_content?_eq fun _ => content?_modifyEntries ..

end ScriptHost.FileTree
