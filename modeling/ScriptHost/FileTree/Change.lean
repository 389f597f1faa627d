import ScriptHost.FileTree.Resolution

/-!
Making, removing and opening by path. An operation that fails leaves the tree as it was, with one
exception: directories made on the way to one that cannot be made stay.
-/

namespace ScriptHost

namespace FileTree

def modifyEntries (t : FileTree) (directory : NodeId) (change : NameMap NodeId → NameMap NodeId) :
    FileTree :=
  match t.node? directory with
  | some (.directory parent entries isRemoved) =>
    t.setNode directory (.directory parent (change entries) isRemoved)
  | _ => t

/-- Adds a node under a name in a directory. -/
def addNode (t : FileTree) (directory : NodeId) (name : String) (node : Node) : NodeId × FileTree :=
  let id : NodeId := ⟨t.nodes.size⟩
  (id, { t with nodes := t.nodes.push node }.modifyEntries directory (·.insert name id))

/-- The tree that holds nothing but its root, where relative paths start. -/
def bare : FileTree :=
  { nodes := #[.directory root ∅ false], workingNode := root, workingPath := [] }

/-- Makes a directory in the working directory and goes there. -/
def enterNew (t : FileTree) (name : String) : FileTree :=
  let (id, t) := t.addNode t.workingNode name (.directory t.workingNode ∅ false)
  { t with workingNode := id, workingPath := t.workingPath ++ [name] }

/-- The tree that holds nothing but a working directory and the directories above it. -/
def withWorkingPath (names : List String) : FileTree :=
  names.foldl enterNew bare

/-- Makes a directory. Its parent has to exist, and nothing may exist under its name. -/
def makeDirectory (t : FileTree) (p : Path) : Except FileError FileTree :=
  match t.place p with
  | .error cause => .error cause
  | .ok (_, none) => .error .alreadyExists
  | .ok (directory, some name) =>
    match t.entry? directory name with
    | .error cause => .error cause
    | .ok (some _) => .error .alreadyExists
    | .ok none => .ok (t.addNode directory name (.directory directory ∅ false)).2

/-- Makes a directory or finds it there. -/
def ensureDirectory (t : FileTree) (p : Path) : Bool × FileTree :=
  match t.makeDirectory p with
  | .ok made => (true, made)
  | .error _ => (t.resolvesToDirectory p, t)

/-- Makes a directory and the missing ones above it, or finds it there. Directories made on the
way stay even if a later one cannot be made. A path without parts is its own start. -/
def ensureDirectories (t : FileTree) (p : Path) : Bool × FileTree :=
  match t.makeDirectory p with
  | .error .notFound =>
    match _h : p.parent? with
    | none => (false, t)
    | some above =>
      if above.parts = [] then t.ensureDirectory p
      else
        match ensureDirectories t above with
        | (true, made) => made.ensureDirectory p
        | (false, made) => (false, made)
  | .error _ => (t.resolvesToDirectory p, t)
  | .ok made => (true, made)
termination_by p.parts.length
decreasing_by exact Path.length_parts_parent? (by assumption)

/-- Makes the directory that a path text names, with its parents. The empty text names the place
where relative paths start, which needs no making. -/
def createDirectories (t : FileTree) (text : String) : Bool × FileTree :=
  if text = "" then (true, t)
  else
    match Path.accept text with
    | .error _ => (false, t)
    | .ok p => t.ensureDirectories p

/-- Removes an empty directory. -/
def removeDirectory (t : FileTree) (text : String) : Except FileError FileTree := do
  let p ← Path.accept text
  match ← t.place p with
  | (_, none) => .error .notEmpty
  | (directory, some name) =>
    match ← t.entry? directory name with
    | none => .error .notFound
    | some id =>
      match t.node? id with
      | some (.directory parent entries _) =>
        if entries.isEmpty then
          .ok ((t.modifyEntries directory (·.erase name)).setNode id (.directory parent ∅ true))
        else .error .notEmpty
      | _ => .error .notDirectory

/-- Removes the entry of a regular file. The bytes stay for those who have the file open. -/
def removeFile (t : FileTree) (text : String) : Except FileError FileTree := do
  let p ← Path.accept text
  match ← t.place p with
  | (_, none) => .error .isDirectory
  | (directory, some name) =>
    match ← t.entry? directory name with
    | none => .error .notFound
    | some id =>
      if t.isDirectory id then .error .isDirectory
      else if p.endsInSlash then .error .notDirectory
      else .ok (t.modifyEntries directory (·.erase name))

/-! ### Opening -/

/-- Finds what is to be read. A directory can be opened as well. -/
def openExisting (t : FileTree) (text : String) : Except FileError NodeId := do
  t.resolve (← Path.accept text)

/-- Finds the regular file that is to be written, or makes an empty one. An existing file loses its
bytes if `truncate` is set. -/
def openOrCreate (t : FileTree) (text : String) (truncate : Bool) :
    Except FileError (NodeId × FileTree) := do
  let p ← Path.accept text
  match ← t.place p with
  | (_, none) => .error .isDirectory
  | (directory, some name) =>
    if p.endsInSlash then .error .isDirectory
    else
      match ← t.entry? directory name with
      | none => .ok (t.addNode directory name (.file .empty))
      | some id =>
        if t.isDirectory id then .error .isDirectory
        else .ok (id, if truncate then t.setContent id .empty else t)

end FileTree

end ScriptHost
