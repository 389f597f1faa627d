import ScriptHost.Proofs.FileTree.Contents

/-!
Opening by path. Nothing that is made or emptied by it is in the way of the paths there were, so
that the path leads to the opened file afterwards; and of all files at most the one at the path is
emptied.
-/

namespace ScriptHost.FileTree

variable {t u : FileTree} {id other directory : NodeId} {name text : String}

/-! ### Paths -/

theorem entry?_eq_ok_iff {entry : Option NodeId} :
    t.entry? directory name = .ok entry ↔
      ∃ parent entries, t.node? directory = some (.directory parent entries false) ∧
        name.utf8ByteSize ≤ maxNameBytes ∧ entries.get? name = entry := by
  unfold entry?
  split
  next parent entries isRemoved here =>
    cases isRemoved with
    | true => simp [here]
    | false =>
      by_cases long : maxNameBytes < name.utf8ByteSize
      · simp [here, long]
      · simp [here, long, Nat.le_of_not_lt long]
  next no => exact iff_of_false nofun fun ⟨parent, entries, here, _⟩ => no parent entries false here

/-- Whether every step along a path that works in the first tree leads to the same node in the
second one. -/
def StepsStay (t u : FileTree) : Prop :=
  ∀ id part child, t.step id part = .ok child → u.step id part = .ok child

theorem walk_cons (t : FileTree) (start : NodeId) (part : String) (rest : List String) :
    t.walk start (part :: rest) = t.step start part >>= (t.walk · rest) :=
  rfl

theorem StepsStay.walk (stay : StepsStay t u) {start : NodeId} {parts : List String}
    (reached : t.walk start parts = .ok id) : u.walk start parts = .ok id := by
  induction parts generalizing start with
  | nil => exact reached
  | cons part rest ih =>
    obtain ⟨child, stepped, reached⟩ := exists_of_bind_eq_ok reached
    rw [walk_cons, stay start part child stepped]
    exact ih reached

theorem StepsStay.refl (t : FileTree) : StepsStay t t :=
  fun _ _ _ stepped => stepped

/-- A step leads from a directory to the directory itself, to the one above, or to what it holds
under a name. -/
theorem step_cases {part : String} {child : NodeId} (stepped : t.step id part = .ok child) :
    ∃ parent entries isRemoved, t.node? id = some (.directory parent entries isRemoved) ∧
      (part = "." ∧ child = id ∨ part = ".." ∧ child = parent ∨
        (part ≠ "." ∧ part ≠ "..") ∧ t.entry? id part = .ok (some child)) := by
  unfold step at stepped
  split at stepped
  next parent entries isRemoved here =>
    refine ⟨parent, entries, isRemoved, here, ?_⟩
    split at stepped
    next dot => exact .inl ⟨dot, (Except.ok.inj stepped).symm⟩
    next notDot =>
      split at stepped
      next dots => exact .inr (.inl ⟨dots, (Except.ok.inj stepped).symm⟩)
      next notDots =>
        split at stepped
        next found =>
          cases stepped
          exact .inr (.inr ⟨⟨notDot, notDots⟩, found⟩)
        next => cases stepped
        next => cases stepped
  next => cases stepped

theorem walk_concat (t : FileTree) (start : NodeId) (front : List String) (last : String) :
    t.walk start (front ++ [last]) = t.walk start front >>= (t.step · last) := by
  rw [walk, List.foldlM_append]
  exact bind_congr fun id => List.foldlM_cons.trans (bind_pure _)

/-- What is known of a path that names a place: the directory is reached along all parts but the
last one, which is a name to be looked up there. -/
structure Place (t : FileTree) (p : Path) (directory : NodeId) (name : String) : Prop where
  parts : p.parts = p.parts.dropLast ++ [name]
  walk : t.walk (t.start p) p.parts.dropLast = .ok directory
  isName : name ≠ "." ∧ name ≠ ".."

theorem Place.of_place_eq_ok {p : Path} (placed : t.place p = .ok (directory, some name)) :
    Place t p directory name := by
  unfold place at placed
  split at placed
  next => cases placed
  next last here =>
    split at placed
    next => cases placed
    next reached walked =>
      split at placed
      next =>
        split at placed
        next => cases placed
        next isName =>
          cases placed
          obtain ⟨front, split⟩ := List.getLast?_eq_some_iff.1 here
          exact ⟨by rw [split, List.dropLast_concat], walked, not_or.1 isName⟩
      next => cases placed

theorem step_eq_of_entry? (isName : name ≠ "." ∧ name ≠ "..")
    (entry : t.entry? directory name = .ok (some id)) : t.step directory name = .ok id := by
  obtain ⟨_, _, here, _⟩ := entry?_eq_ok_iff.1 entry
  rw [step, here]
  dsimp only
  rw [if_neg isName.1, if_neg isName.2, entry]

theorem start_congr (home : u.workingNode = t.workingNode) (p : Path) : u.start p = t.start p := by
  rw [start, home, start]

theorem Place.resolve_eq {p : Path} (place : Place t p directory name) (stay : StepsStay t u)
    (home : u.workingNode = t.workingNode) (noSlash : ¬p.endsInSlash)
    (entry : u.entry? directory name = .ok (some id)) : u.resolve p = .ok id := by
  have reached : u.walk (u.start p) p.parts = .ok id := by
    rw [place.parts, walk_concat, start_congr home, stay.walk place.walk]
    exact step_eq_of_entry? place.isName entry
  rw [resolve, reached]
  simp [noSlash]

/-! ### Directories as they are -/

/-- The parent and the entries of a directory, and whether it has been removed. -/
def directory? (t : FileTree) (id : NodeId) : Option (NodeId × NameMap NodeId × Bool) :=
  match t.node? id with
  | some (.directory parent entries isRemoved) => some (parent, entries, isRemoved)
  | _ => none

theorem directory?_eq_some_iff {parent : NodeId} {entries : NameMap NodeId} {isRemoved : Bool} :
    t.directory? id = some (parent, entries, isRemoved) ↔
      t.node? id = some (.directory parent entries isRemoved) := by
  unfold directory?
  split
  next here => simp [here]
  next no => exact iff_of_false nofun (no parent entries isRemoved)

theorem isDirectory_eq_isSome (t : FileTree) (id : NodeId) :
    t.isDirectory id = (t.directory? id).isSome := by
  unfold isDirectory directory?
  rcases t.node? id with _ | (_ | _) <;> rfl

theorem step_of_not_isDirectory (isFile : t.isDirectory id = false) (part : String) :
    t.step id part = .error .notDirectory := by
  unfold step
  split
  next here =>
    rw [isDirectory_iff.2 ⟨_, _, _, here⟩] at isFile
    cases isFile
  next => rfl

theorem entry?_of_not_isDirectory (isFile : t.isDirectory id = false) (name : String) :
    t.entry? id name = .error .notDirectory := by
  unfold entry?
  split
  next here =>
    rw [isDirectory_iff.2 ⟨_, _, _, here⟩] at isFile
    cases isFile
  next => rfl

section Congr

variable (same : u.directory? id = t.directory? id)
include same

theorem isDirectory_congr : u.isDirectory id = t.isDirectory id := by
  rw [isDirectory_eq_isSome, isDirectory_eq_isSome, same]

theorem node?_eq_or_not_isDirectory :
    u.node? id = t.node? id ∨ u.isDirectory id = false ∧ t.isDirectory id = false := by
  cases found : t.directory? id with
  | none =>
    have isFile : t.isDirectory id = false := by
      rw [isDirectory_eq_isSome, found, Option.isSome_none]
    exact .inr ⟨(isDirectory_congr same).trans isFile, isFile⟩
  | some directory =>
    obtain ⟨parent, entries, isRemoved⟩ := directory
    rw [directory?_eq_some_iff.1 found, directory?_eq_some_iff.1 (same.trans found)]
    exact .inl rfl

theorem step_congr (part : String) : u.step id part = t.step id part := by
  rcases node?_eq_or_not_isDirectory same with node | ⟨after, before⟩
  · rw [step, step, entry?, entry?, node]
  · rw [step_of_not_isDirectory after, step_of_not_isDirectory before]

theorem entry?_congr (name : String) : u.entry? id name = t.entry? id name := by
  rcases node?_eq_or_not_isDirectory same with node | ⟨after, before⟩
  · rw [ entry?, entry?, node]
  · rw [entry?_of_not_isDirectory after, entry?_of_not_isDirectory before]

end Congr

/-! ### Opening -/

/-- A directory that stays where it is and keeps its entries is left by the same steps. -/
theorem step_of_entries {parent : NodeId} {before after : NameMap NodeId}
    {wasRemoved isRemoved : Bool}
    (was : t.node? id = some (.directory parent before wasRemoved))
    (now : u.node? id = some (.directory parent after isRemoved)) {part : String} {child : NodeId}
    (entries : t.entry? id part = .ok (some child) → u.entry? id part = .ok (some child))
    (stepped : t.step id part = .ok child) : u.step id part = .ok child := by
  obtain ⟨_, _, _, here, dot | dots | name⟩ := step_cases stepped
  · obtain ⟨rfl, rfl⟩ := dot
    rw [step, now]
    rfl
  · obtain ⟨rfl, rfl⟩ := dots
    obtain ⟨rfl, -, -⟩ := Node.directory.inj (Option.some.inj (was.symm.trans here))
    rw [step, now]
    rfl
  · exact step_eq_of_entry? name.1 (entries name.2)

theorem directory?_setContent (t : FileTree) (id : NodeId) (content : FileContent)
    (other : NodeId) : (t.setContent id content).directory? other = t.directory? other := by
  unfold setContent
  split
  next old here =>
    by_cases same : id = other
    · subst same
      rw [directory?, node?_setNode, if_pos rfl, here, directory?, here]
      rfl
    · rw [directory?, node?_setNode, if_neg same, directory?]
  next => rfl

theorem workingNode_setContent (content : FileContent) :
    (t.setContent id content).workingNode = t.workingNode := by
  unfold setContent
  split <;> rfl

theorem stepsStay_setContent (t : FileTree) (id : NodeId) (content : FileContent) :
    StepsStay t (t.setContent id content) := by
  intro other part child stepped
  rw [step_congr (directory?_setContent t id content other), stepped]

theorem workingNode_addNode (node : Node) :
    (t.addNode directory name node).2.workingNode = t.workingNode := by
  unfold addNode modifyEntries
  dsimp only
  split <;> rfl

theorem workingPath_addNode (node : Node) :
    (t.addNode directory name node).2.workingPath = t.workingPath := by
  unfold addNode modifyEntries
  dsimp only
  split <;> rfl

section AddNode

variable (missing : t.entry? directory name = .ok none) (node : Node)
include missing

/-- The new node has its name in the directory, next to all that was there. -/
theorem node?_addNode :
    ∃ parent entries, t.node? directory = some (.directory parent entries false) ∧
      entries.get? name = none ∧ name.utf8ByteSize ≤ maxNameBytes ∧
      ∀ id, (t.addNode directory name node).2.node? id =
        if directory = id then
          some (.directory parent (entries.insert name (t.addNode directory name node).1) false)
        else { t with nodes := t.nodes.push node }.node? id := by
  obtain ⟨parent, entries, above, fits, absent⟩ := entry?_eq_ok_iff.1 missing
  refine ⟨parent, entries, above, absent, fits, fun id => ?_⟩
  have pushed := node?_push_of_some node above
  rw [addNode, modifyEntries, pushed]
  dsimp only
  rw [node?_setNode, pushed]
  rfl

theorem entry?_addNode :
    FileTree.entry? (t.addNode directory name node).2 directory name =
      .ok (some (t.addNode directory name node).1) := by
  obtain ⟨parent, entries, _, _, fits, added⟩ := node?_addNode missing node
  refine entry?_eq_ok_iff.2 ⟨_, _, (added directory).trans (if_pos rfl), fits, ?_⟩
  rw [NameMap.get?_insert, if_pos rfl]

/-- Directories keep their entries, as the name of the new one was free. -/
theorem directory_addNode {parent : NodeId} {entries : NameMap NodeId} {isRemoved : Bool}
    (was : t.node? id = some (.directory parent entries isRemoved)) :
    ∃ after, (t.addNode directory name node).2.node? id =
        some (.directory parent after isRemoved) ∧
      ∀ part child, entries.get? part = some child → after.get? part = some child := by
  obtain ⟨up, present, above, absent, _, added⟩ := node?_addNode missing node
  by_cases same : directory = id
  · subst same
    obtain ⟨rfl, rfl, rfl⟩ := Node.directory.inj (Option.some.inj (was.symm.trans above))
    refine ⟨_, (added directory).trans (if_pos rfl), fun part child there => ?_⟩
    -- The new entry hides none, as there was none under its name.
    have other : name ≠ part := by
      rintro rfl
      cases absent.symm.trans there
    rw [NameMap.get?_insert, if_neg other, there]
  · refine ⟨entries, ?_, fun _ _ there => there⟩
    rw [added id, if_neg same, node?_push_of_some node was]

/-- The way to a new node is none that was there before. -/
theorem stepsStay_addNode : StepsStay t (t.addNode directory name node).2 := by
  intro id part child stepped
  obtain ⟨parent, entries, isRemoved, was, _⟩ := step_cases stepped
  obtain ⟨after, now, kept⟩ := directory_addNode missing node was
  refine step_of_entries was now (fun found => ?_) stepped
  obtain ⟨_, _, again, fits, there⟩ := entry?_eq_ok_iff.1 found
  obtain ⟨rfl, rfl, rfl⟩ := Node.directory.inj (Option.some.inj (was.symm.trans again))
  exact entry?_eq_ok_iff.2 ⟨parent, after, now, fits, kept part child there⟩

end AddNode

theorem openExisting_of_accept {p : Path} (accepted : Path.accept text = .ok p) (t : FileTree) :
    t.openExisting text = t.resolve p := by
  rw [openExisting, accepted]
  rfl

/-- Opening for writing finds a file under the name at the end of the path, or makes one there. -/
theorem openOrCreate_cases {truncate : Bool}
    (opened : t.openOrCreate text truncate = .ok (id, u)) :
    ∃ p directory name, Path.accept text = .ok p ∧ t.place p = .ok (directory, some name) ∧
      ¬p.endsInSlash ∧
      (t.entry? directory name = .ok none ∧ (id, u) = t.addNode directory name (.file .empty) ∨
        t.entry? directory name = .ok (some id) ∧ ¬t.isDirectory id ∧
          u = if truncate then t.setContent id .empty else t) := by
  obtain ⟨p, accepted, opened⟩ := exists_of_bind_eq_ok opened
  obtain ⟨⟨directory, _ | name⟩, placed, opened⟩ := exists_of_bind_eq_ok opened
  · cases opened
  dsimp only at opened
  split at opened
  next => cases opened
  next noSlash =>
    refine ⟨p, directory, name, accepted, placed, noSlash, ?_⟩
    obtain ⟨_ | found, entry, opened⟩ := exists_of_bind_eq_ok opened
    · exact .inl ⟨entry, (Except.ok.inj opened).symm⟩
    · dsimp only at opened
      split at opened
      next => cases opened
      next isFile =>
        obtain ⟨rfl, rfl⟩ := Prod.mk.inj (Except.ok.inj opened)
        exact .inr ⟨entry, isFile, rfl⟩

/-- Opening for writing finds a file by its path, or makes it there. Files keep their content, but
for the one at the path if it is to be emptied. -/
theorem openOrCreate_spec {truncate : Bool} (opened : t.openOrCreate text truncate = .ok (id, u)) :
    u.openExisting text = .ok id ∧
      Keeps { other | truncate ∧ t.openExisting text = .ok other } t u := by
  obtain ⟨p, directory, name, accepted, placed, noSlash, made | found⟩ :=
    openOrCreate_cases opened
  all_goals have place := Place.of_place_eq_ok placed
  · obtain ⟨missing, same⟩ := made
    obtain ⟨rfl, rfl⟩ := Prod.mk.inj same
    refine ⟨?_, keeps_addNode t directory name _⟩
    rw [openExisting_of_accept accepted]
    exact place.resolve_eq (stepsStay_addNode missing _) (workingNode_addNode _) noSlash
      (entry?_addNode missing _)
  · obtain ⟨entry, _, rfl⟩ := found
    have resolved := place.resolve_eq (.refl t) rfl noSlash entry
    rw [openExisting_of_accept accepted]
    split
    next emptied =>
      -- A file that is emptied is no directory, so that no step of a path goes through it.
      refine ⟨?_, (keeps_setContent t id .empty).mono ?_⟩
      · exact place.resolve_eq (stepsStay_setContent t id _) (workingNode_setContent _) noSlash
          ((entry?_congr (directory?_setContent ..) name).trans entry)
      · rintro _ rfl
        exact ⟨emptied, (openExisting_of_accept accepted t).trans resolved⟩
    next => exact ⟨resolved, .refl _ t⟩

end ScriptHost.FileTree
