import ScriptHost.FileTree.Basic

/-!
Open files. A stream has a position and an access mode of its own, while the bytes belong to the
file and are shared by all of its streams. Everything else that is asked about a stream is left to
the operating system, which may also refuse to answer.
-/

namespace ScriptHost

/-- What a stream may do with its file. -/
inductive Access
  | read
  | write
  | readWrite
deriving DecidableEq

def Access.canRead : Access → Bool
  | .read | .readWrite => true
  | .write => false

def Access.canWrite : Access → Bool
  | .write | .readWrite => true
  | .read => false

/-- An open file. The position may lie past the end of the file. -/
structure Stream where
  node : NodeId
  position : Nat
  access : Access

/-- What the operating system decides on open files: whether it tells their length and the position
in them, whether it goes to a position, and how long a directory is. -/
structure OperatingSystem where
  tellsLength : FileTree → Stream → Bool
  tellsPosition : FileTree → Stream → Bool
  goesTo : FileTree → Stream → Nat → Bool
  directoryLength : FileTree → NodeId → Nat

/-- The operating system that refuses nothing, and for which directories are empty. -/
def OperatingSystem.obliging : OperatingSystem where
  tellsLength _ _ := true
  tellsPosition _ _ := true
  goesTo _ _ _ := true
  directoryLength _ _ := 0

namespace Stream

/-- What can be read from the position on. There is nothing to be read, not even an empty rest,
without the right to read or on a directory. -/
def rest? (s : Stream) (files : FileTree) : Option FileContent :=
  if s.access.canRead then (files.content? s.node).map (·.drop s.position) else none

def advance (s : Stream) (count : Nat) : Stream :=
  { s with position := s.position + count }

/-- Reads up to `count` bytes, fewer at the end of the file. Reading no bytes at all always works.
-/
def read? (s : Stream) (files : FileTree) (count : Nat) : Option (List UInt8 × Stream) :=
  if count = 0 then some ([], s)
  else (s.rest? files).map fun rest =>
    let data := (rest.take count).toList
    (data, s.advance data.length)

/-- Reads the bytes up to the next newline or the end of the file. The newline is read as well but
not returned. -/
def readLine? (s : Stream) (files : FileTree) : Option (List UInt8 × Stream) :=
  (s.rest? files).map fun rest =>
    let line := rest.firstLine
    (line, s.advance (min (line.length + 1) rest.length))

/-- Writes bytes at the position. Writing no bytes at all always works and changes nothing, not even
the length of the file. -/
def write? (s : Stream) (files : FileTree) (data : List UInt8) : Option (Stream × FileTree) :=
  if data = [] then some (s, files)
  else if s.access.canWrite then
    (files.content? s.node).map fun content =>
      (s.advance data.length, files.setContent s.node (content.overwrite s.position data))
  else none

section System

variable (os : OperatingSystem) (s : Stream) (files : FileTree)

/-- The length of the file in bytes, or of the directory, if it can be told. -/
def length? : Option Nat :=
  if os.tellsLength files s then
    some (((files.content? s.node).map (·.length)).getD (os.directoryLength files s.node))
  else none

def position? : Option Nat :=
  if os.tellsPosition files s then some s.position else none

/-- The stream at another position, if it can get there. -/
def seek? (position : Nat) : Option Stream :=
  if os.goesTo files s position then some { s with position } else none

theorem length?_obliging :
    s.length? .obliging files = some (((files.content? s.node).map (·.length)).getD 0) :=
  rfl

end System

end Stream

end ScriptHost
