import ScriptHost.FileTree.Basic
import ScriptHost.Path

/-!
How paths lead through the tree. They are followed part by part from the root or the working
directory, as POSIX systems do, and a lookup fails with the cause that is met first.
-/

namespace ScriptHost

/-- The longest name that an entry can have, in bytes. -/
def maxNameBytes : Nat := 255

/-- The longest path text that is accepted, in bytes. -/
def maxPathBytes : Nat := 4095

/-- A path text as the file system takes it: neither empty, nor too long, nor with a NUL in it. -/
def Path.accept (text : String) : Except FileError Path :=
  if text.toList.contains '\x00' then .error .invalidPath
  else if text = "" then .error .notFound
  else if maxPathBytes < text.utf8ByteSize then .error .nameTooLong
  else .ok (.ofText text)

namespace FileTree

/-- What a directory holds under a name, if anything. -/
def entry? (t : FileTree) (directory : NodeId) (name : String) :
    Except FileError (Option NodeId) :=
  match t.node? directory with
  | some (.directory _ entries isRemoved) =>
    if isRemoved then .error .notFound
    else if maxNameBytes < name.utf8ByteSize then .error .nameTooLong
    else .ok (entries.get? name)
  | _ => .error .notDirectory

/-- Follows one part of a path from a node, which has to be a directory. -/
def step (t : FileTree) (id : NodeId) (part : String) : Except FileError NodeId :=
  match t.node? id with
  | some (.directory parent _ _) =>
    if part = "." then .ok id
    else if part = ".." then .ok parent
    else
      match t.entry? id part with
      | .ok (some child) => .ok child
      | .ok none => .error .notFound
      | .error cause => .error cause
  | _ => .error .notDirectory

def walk (t : FileTree) (start : NodeId) (parts : List String) : Except FileError NodeId :=
  parts.foldlM t.step start

def start (t : FileTree) (p : Path) : NodeId :=
  if p.isAbsolute then root else t.workingNode

def resolve (t : FileTree) (p : Path) : Except FileError NodeId :=
  match t.walk (t.start p) p.parts with
  | .error cause => .error cause
  | .ok id => if p.endsInSlash && !t.isDirectory id then .error .notDirectory else .ok id

/-- The place that a path names: a directory and a name in it, whether or not there is an entry.
The name is missing for the root and for paths that end in `.` or `..`. -/
def place (t : FileTree) (p : Path) : Except FileError (NodeId × Option String) :=
  match p.parts.getLast? with
  | none => .ok (t.start p, none)
  | some last =>
    match t.walk (t.start p) p.parts.dropLast with
    | .error cause => .error cause
    | .ok directory =>
      if t.isDirectory directory then
        .ok (directory, if last = "." ∨ last = ".." then none else some last)
      else .error .notDirectory

/-- Whether a path text leads to a node with a given property. -/
def leadsTo (t : FileTree) (text : String) (property : NodeId → Bool) : Bool :=
  match Path.accept text with
  | .error _ => false
  | .ok p =>
    match t.resolve p with
    | .ok id => property id
    | .error _ => false

def directoryExists (t : FileTree) (text : String) : Bool :=
  t.leadsTo text t.isDirectory

def fileExists (t : FileTree) (text : String) : Bool :=
  t.leadsTo text (fun id => (t.content? id).isSome)

def resolvesToDirectory (t : FileTree) (p : Path) : Bool :=
  match t.resolve p with
  | .ok id => t.isDirectory id
  | .error _ => false

end FileTree

end ScriptHost
