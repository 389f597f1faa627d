import ScriptHost.FileContent
import ScriptHost.NameMap

/-!
A tree of directories and regular files. Files and directories are nodes with a number of their own,
so that a file that is open can outlive its name.
-/

namespace ScriptHost

/-- The number of a file or directory. Numbers are never used again. -/
structure NodeId where
  index : Nat
deriving DecidableEq

/-- A regular file with its content, or a directory with the directory above it and its entries. A
directory that has been removed keeps its parent but takes no entries. -/
inductive Node
  | file (content : FileContent)
  | directory (parent : NodeId) (entries : NameMap NodeId) (isRemoved : Bool)

instance : Inhabited Node :=
  ⟨.file .empty⟩

/-- Why an operation on files fails. -/
inductive FileError
  | notFound
  | notDirectory
  | isDirectory
  | alreadyExists
  | notEmpty
  | nameTooLong
  | invalidPath
deriving DecidableEq

/-- The nodes of a file system, with the directory that relative paths start from and the names
that lead to it from the root. Node 0 is the root. -/
structure FileTree where
  nodes : Array Node
  workingNode : NodeId
  workingPath : List String

namespace FileTree

def root : NodeId := ⟨0⟩

def node? (t : FileTree) (id : NodeId) : Option Node :=
  t.nodes[id.index]?

def isDirectory (t : FileTree) (id : NodeId) : Bool :=
  match t.node? id with
  | some (.directory _ _ _) => true
  | _ => false

/-- The content of a regular file. -/
def content? (t : FileTree) (id : NodeId) : Option FileContent :=
  match t.node? id with
  | some (.file content) => some content
  | _ => none

def setNode (t : FileTree) (id : NodeId) (node : Node) : FileTree :=
  { t with nodes := t.nodes.setIfInBounds id.index node }

/-- Replaces the content of a regular file; directories have none and stay. -/
def setContent (t : FileTree) (id : NodeId) (content : FileContent) : FileTree :=
  match t.node? id with
  | some (.file _) => t.setNode id (.file content)
  | _ => t

/-- Whether the working directory still has a path, which is lost when it is removed. -/
def workingPath? (t : FileTree) : Option (List String) :=
  match t.node? t.workingNode with
  | some (.directory _ _ false) => some t.workingPath
  | _ => none

end FileTree

end ScriptHost
