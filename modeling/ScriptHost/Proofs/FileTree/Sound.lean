import ScriptHost.Proofs.FileTree.Opening

/-!
Trees in which nothing that a node refers to is missing. The trees that a run starts from are of
this kind, and making, removing, opening and writing lead from such a tree to another one: nodes are
only added, and what is a directory stays one.
-/

namespace ScriptHost.FileTree

variable {t u : FileTree} {id directory : NodeId} {node : Node} {name text : String}

/-- What a node refers to is in the tree: a directory above it, and a node for each of its entries.
-/
def Fits (t : FileTree) : Node → Prop
  | .file _ => True
  | .directory parent entries _ =>
    t.isDirectory parent ∧
      ∀ name child, entries.get? name = some child → (t.node? child).isSome

theorem fits_empty (above : t.isDirectory id) (isRemoved : Bool) :
    t.Fits (.directory id ∅ isRemoved) := by
  refine ⟨above, fun name child entry => ?_⟩
  rw [NameMap.get?_empty] at entry
  cases entry

/-- Paths start at directories, and every node refers to what is in the tree. -/
structure Sound (t : FileTree) : Prop where
  root : t.isDirectory root
  working : t.isDirectory t.workingNode
  fits : ∀ id node, t.node? id = some node → t.Fits node

theorem Sound.isDirectory_start (sound : t.Sound) (p : Path) : t.isDirectory (t.start p) := by
  rw [start]
  split
  next => exact sound.root
  next => exact sound.working

/-- All nodes of the first tree are in the second one, and its directories are directories there.
-/
structure Grows (t u : FileTree) : Prop where
  working : u.workingNode = t.workingNode
  isSome : ∀ id, (t.node? id).isSome → (u.node? id).isSome
  isDirectory : ∀ id, t.isDirectory id → u.isDirectory id

theorem Grows.fits (grows : Grows t u) (fits : t.Fits node) : u.Fits node := by
  cases node with
  | file content => trivial
  | directory parent entries isRemoved =>
    obtain ⟨above, below⟩ := fits
    exact ⟨grows.isDirectory parent above,
      fun name child entry => grows.isSome child (below name child entry)⟩

/-- Only nodes that are new or not what they were have to be looked at. -/
theorem Sound.of_grows (sound : t.Sound) (grows : Grows t u)
    (fits : ∀ id node, u.node? id = some node → t.node? id = some node ∨ u.Fits node) :
    u.Sound where
  root := grows.isDirectory _ sound.root
  working := by
    rw [grows.working]
    exact grows.isDirectory _ sound.working
  fits id node here := by
    rcases fits id node here with same | new
    · exact grows.fits (sound.fits id node same)
    · exact new

/-! ### Nodes put in place -/

theorem isDirectory_setNode_directory (was : t.isDirectory id) (parent : NodeId)
    (entries : NameMap NodeId) (isRemoved : Bool) :
    (t.setNode id (.directory parent entries isRemoved)).isDirectory id := by
  obtain ⟨_, _, _, found⟩ := isDirectory_iff.1 was
  refine isDirectory_iff.2 ⟨parent, entries, isRemoved, ?_⟩
  rw [node?_setNode, if_pos rfl, found]
  rfl

/-- A node may take the place of another one, but only a directory that of a directory. -/
theorem grows_setNode (kind : t.isDirectory id → (t.setNode id node).isDirectory id) :
    Grows t (t.setNode id node) where
  working := rfl
  isSome other there := by
    rw [node?_setNode]
    split
    next same => rwa [same, Option.isSome_map]
    next => exact there
  isDirectory other there := by
    by_cases same : id = other
    · subst same
      exact kind there
    · rw [isDirectory_iff, node?_setNode, if_neg same]
      exact isDirectory_iff.1 there

namespace Sound

variable (sound : t.Sound)
include sound

theorem setNode (kind : t.isDirectory id → (t.setNode id node).isDirectory id)
    (fits : t.Fits node) : (t.setNode id node).Sound := by
  refine sound.of_grows (grows_setNode kind) fun other here found => ?_
  rw [node?_setNode] at found
  split at found
  next =>
    obtain ⟨_, _, rfl⟩ := Option.map_eq_some_iff.1 found
    exact .inr ((grows_setNode kind).fits fits)
  next => exact .inl found

theorem setContent (id : NodeId) (content : FileContent) : (t.setContent id content).Sound := by
  unfold FileTree.setContent
  split
  next old here =>
    refine sound.setNode (fun isDirectory => ?_) trivial
    obtain ⟨_, _, _, found⟩ := isDirectory_iff.1 isDirectory
    cases here.symm.trans found
  next => exact sound

theorem modifyEntries {change : NameMap NodeId → NameMap NodeId}
    (there : ∀ parent entries isRemoved,
      t.node? directory = some (.directory parent entries isRemoved) →
        ∀ name child, (change entries).get? name = some child → (t.node? child).isSome) :
    (t.modifyEntries directory change).Sound := by
  unfold FileTree.modifyEntries
  split
  next parent entries isRemoved here =>
    have isDirectory := isDirectory_iff.2 ⟨_, _, _, here⟩
    refine sound.setNode (fun _ => isDirectory_setNode_directory isDirectory ..) ⟨?_, ?_⟩
    · exact (sound.fits _ _ here).1
    · exact there _ _ _ here
  next => exact sound

theorem eraseEntry (directory : NodeId) (name : String) :
    (t.modifyEntries directory (·.erase name)).Sound := by
  refine sound.modifyEntries fun parent entries isRemoved here part child entry => ?_
  rw [NameMap.get?_erase] at entry
  split at entry
  next => cases entry
  next => exact (sound.fits _ _ here).2 part child entry

theorem push (fits : t.Fits node) : { t with nodes := t.nodes.push node }.Sound := by
  have grows : Grows t { t with nodes := t.nodes.push node } :=
    { working := rfl
      isSome := fun id there => by
        obtain ⟨here, found⟩ := Option.isSome_iff_exists.1 there
        rw [node?_push_of_some node found, Option.isSome_some]
      isDirectory := fun id there => by
        obtain ⟨parent, entries, isRemoved, found⟩ := isDirectory_iff.1 there
        exact isDirectory_iff.2 ⟨parent, entries, isRemoved, node?_push_of_some node found⟩ }
  refine sound.of_grows grows fun id here found => ?_
  rw [node?_push] at found
  split at found
  next =>
    cases found
    exact .inr (grows.fits fits)
  next => exact .inl found

theorem addNode (fits : t.Fits node) (directory : NodeId) (name : String) :
    (t.addNode directory name node).2.Sound := by
  have pushed := sound.push fits
  refine pushed.modifyEntries fun parent entries isRemoved here part child entry => ?_
  rw [NameMap.get?_insert] at entry
  split at entry
  next =>
    cases entry
    rw [node?_push, if_pos rfl, Option.isSome_some]
  next => exact (pushed.fits _ _ here).2 part child entry

/-! ### Operations -/

theorem makeDirectory {p : Path} (made : t.makeDirectory p = .ok u) : u.Sound := by
  obtain ⟨directory, name, _, missing, rfl⟩ := makeDirectory_cases made
  obtain ⟨_, _, here, _⟩ := entry?_eq_ok_iff.1 missing
  exact sound.addNode (fits_empty (isDirectory_iff.2 ⟨_, _, _, here⟩) _) directory name

theorem createDirectories (text : String) : (t.createDirectories text).2.Sound := by
  have chain := makesDirectories_createDirectories t text
  generalize (t.createDirectories text).2 = last at chain
  induction chain with
  | refl => exact sound
  | tail _ makes ih =>
    obtain ⟨_, made⟩ := makes
    exact ih.makeDirectory made

theorem removeDirectory (removed : t.removeDirectory text = .ok u) : u.Sound := by
  obtain ⟨_, directory, name, id, parent, _, _, _, _, _, here, _, rfl⟩ :=
    removeDirectory_cases removed
  have above := (sound.fits _ _ here).1
  refine (sound.eraseEntry directory name).setNode
    (fun was => isDirectory_setNode_directory was ..) (fits_empty ?_ _)
  exact isDirectory_modifyEntries t _ _ above

theorem removeFile (removed : t.removeFile text = .ok u) : u.Sound := by
  obtain ⟨_, directory, name, _, _, _, _, _, _, rfl⟩ := removeFile_cases removed
  exact sound.eraseEntry directory name

theorem openOrCreate {truncate : Bool} (opened : t.openOrCreate text truncate = .ok (id, u)) :
    u.Sound := by
  obtain ⟨_, directory, name, _, _, _, ⟨_, same⟩ | ⟨_, _, rfl⟩⟩ := openOrCreate_cases opened
  · obtain ⟨rfl, rfl⟩ := Prod.mk.inj same
    have fits : t.Fits (.file .empty) := trivial
    exact sound.addNode fits directory name
  · split
    next => exact sound.setContent id .empty
    next => exact sound

end Sound

/-! ### Trees to start from -/

theorem sound_bare : bare.Sound := by
  have isDirectory : bare.isDirectory root := rfl
  refine ⟨isDirectory, isDirectory, fun id node here => ?_⟩
  obtain ⟨inside, rfl⟩ := Array.getElem?_eq_some_iff.1 here
  obtain rfl : id = root := by
    rcases id with ⟨index⟩
    exact congrArg NodeId.mk (Nat.lt_one_iff.1 inside)
  exact fits_empty isDirectory false

theorem Sound.enterNew (sound : t.Sound) (name : String) : (t.enterNew name).Sound := by
  let directory : Node := .directory t.workingNode ∅ false
  have added := sound.addNode (fits_empty sound.working false) t.workingNode name
  have pushed : { t with nodes := t.nodes.push directory }.isDirectory ⟨t.nodes.size⟩ := by
    refine isDirectory_iff.2 ⟨t.workingNode, ∅, false, ?_⟩
    rw [node?_push, if_pos rfl]
  exact ⟨added.root, isDirectory_modifyEntries _ _ _ pushed, added.fits⟩

theorem sound_withWorkingPath (names : List String) : (withWorkingPath names).Sound := by
  have enters (t : FileTree) (sound : t.Sound) : (names.foldl FileTree.enterNew t).Sound := by
    induction names generalizing t with
    | nil => exact sound
    | cons name rest ih => exact ih _ (sound.enterNew name)
  exact enters bare sound_bare

end ScriptHost.FileTree
