import ScriptHost.FileTree.Change
import ScriptHost.LineEncoding
import ScriptHost.Registry.Builder

/-!
The `fileio` module: directories, files and file handles. Failures of the file system are no errors
for scripts: they come back as 0, as -1 where a number was asked for, or as void where an object
was. Errors are left for wrong use: a closed handle, a negative position, data that is no bytes, an
unknown encoding.
-/

namespace ScriptHost.Library.Files

/-! ### Directories and files by path -/

def directoryExists (path : String) : Host Bool :=
  Host.readFiles (·.directoryExists path)

def createDirectory (path : String) : Host Bool :=
  Host.changeFiles (·.createDirectories path)

def removeDirectory (path : String) : Host Bool :=
  Host.changeFiles fun files =>
    match files.removeDirectory path with
    | .ok changed => (true, changed)
    | .error _ => (false, files)

def fileExists (path : String) : Host Bool :=
  Host.readFiles (·.fileExists path)

/-- Removes a file. It counts as success if there was nothing to remove. -/
def removeFile (path : String) : Host Bool :=
  Host.changeFiles fun files =>
    match files.removeFile path with
    | .ok changed => (true, changed)
    | .error cause => (cause = .notFound, files)

/-- The absolute path in lexical normal form. Without a working directory a relative path stays as
it is. -/
def fullPath (files : FileTree) (path : String) : String :=
  let p := Path.ofText path
  match files.workingPath? with
  | some names => Path.render (p.normalize names)
  | none => if p.isAbsolute then Path.render (p.normalize []) else path

def getPath (path : String) : Host String :=
  Host.readFiles (fullPath · path)

/-! ### Opening -/

/-- A stream on a node, at its start. -/
def streamOn (node : NodeId) (access : Access) : Stream :=
  { node, position := 0, access }

/-- Opens an existing file or directory for reading. -/
def openToRead (files : FileTree) (path : String) : Option Stream × FileTree :=
  match files.openExisting path with
  | .ok node => (some (streamOn node .read), files)
  | .error _ => (none, files)

/-- Opens a file for writing, and makes it if it is missing. -/
def openToWrite (files : FileTree) (path : String) (access : Access) (truncate : Bool) :
    Option Stream × FileTree :=
  match files.openOrCreate path truncate with
  | .ok (node, changed) => (some (streamOn node access), changed)
  | .error _ => (none, files)

/-- Opens a path in a mode: `r` needs the file, `rw` and `w` make it if it is missing and keep its
bytes. There are no other modes. -/
def openInMode (files : FileTree) (path mode : String) : Option Stream × FileTree :=
  match mode with
  | "r" => openToRead files path
  | "rw" => openToWrite files path .readWrite false
  | "w" => openToWrite files path .write false
  | _ => (none, files)

/-- A new handle on a stream, or none without one. -/
def handleOn (path : String) : Option Stream → Host (Option HandleRef)
  | none => return none
  | some stream => return some (← Host.change (·.newHandle { path, stream := some stream }))

def openFile (path mode : String) : Host (Option HandleRef) := do
  handleOn path (← Host.changeFiles (openInMode · path mode))

/-- Makes a file or empties an existing one, and opens it for reading and writing. -/
def createFile (path : String) : Host (Option HandleRef) := do
  handleOn path (← Host.changeFiles (openToWrite · path .readWrite true))

/-! ### Handles -/

def checkHandle (ref : HandleRef) : Host Bool :=
  Host.read fun store => (store.handle ref).isOpen

/-- Closes a handle. A handle that is closed already stays so. -/
def closeHandle (ref : HandleRef) : Host Unit := do
  let _ ← Host.change (·.close ref)

/-- The stream of an open handle, or an error that names the operation. -/
def streamOf (operation : String) (ref : HandleRef) : Host Stream := do
  match (← Host.read (·.handle ref)).stream with
  | some stream => return stream
  | none => Host.fail (.invalidHandle operation)

/-- Puts a stream back after it was moved. -/
def keep (ref : HandleRef) (stream : Stream) : Host Unit :=
  Host.change fun store => ((), store.setStream ref (some stream))

/-- Reads a line as Latin-1 text, without its newline. A failure reads nothing. -/
def readLine (ref : HandleRef) : Host String := do
  let stream ← streamOf "fReadLine" ref
  match ← Host.readFiles stream.readLine? with
  | none => return ""
  | some (line, moved) =>
    keep ref moved
    return latin1Text line

section System

variable (os : OperatingSystem)

/-- A number that the operating system told, or -1 if it told none. -/
def numberOrRefusal : Option Nat → Integer
  | some n => .ofNat n
  | none => .minusOne

def length (ref : HandleRef) : Host Integer := do
  let stream ← streamOf "fLen" ref
  return numberOrRefusal (← Host.readFiles (stream.length? os))

def getPosition (ref : HandleRef) : Host Integer := do
  let stream ← streamOf "fGetPos" ref
  return numberOrRefusal (← Host.readFiles (stream.position? os))

/-- Moves to a position, which may lie past the end of the file. A negative position is an error
even on a closed handle. If the operating system does not go there, the stream stays where it is. -/
def setPosition (ref : HandleRef) (position : Integer) : Host Unit := do
  if position.val < 0 then
    Host.fail (.invalidArgument "fSetPos"
      ("position must not be negative, got " ++ position.toText))
  else
    let stream ← streamOf "fSetPos" ref
    match ← Host.readFiles (stream.seek? os · position.val.toNat) with
    | none => return
    | some moved => keep ref moved

end System

/-- Reads up to a number of bytes. There is no result for a negative number or after a failure. -/
def readBytes (ref : HandleRef) (count : Integer) : Host (Option (List UInt8)) := do
  let stream ← streamOf "fRead" ref
  if count.val < 0 then
    return none
  else
    match ← Host.readFiles (stream.read? · count.val.toNat) with
    | none => return none
    | some (data, moved) =>
      keep ref moved
      return some data

/-- Writes bytes and tells whether that worked. -/
def writeAll (operation : String) (ref : HandleRef) (data : List UInt8) : Host Bool := do
  let stream ← streamOf operation ref
  let written ← Host.changeFiles fun files =>
    match stream.write? files data with
    | some (moved, changed) => (some moved, changed)
    | none => (none, files)
  match written with
  | none => return false
  | some moved =>
    keep ref moved
    return true

/-- The bytes of items that are all byte values. The first item that is not one is an error, which
tells its index; the items in front of these are as many as `index`. -/
def bytesFrom (index : Nat) : List Value → Except EvalError (List UInt8)
  | [] => .ok []
  | item :: rest =>
    match item.byte? with
    | some b => (bytesFrom (index + 1) rest).map (b :: ·)
    | none =>
      let e : EvalError := { cause := .typeMismatch Tag.byte.name item.typeName }
      .error (e.withNote ("element " ++ index.repr ++ " of argument 2"))

/-- Writes the bytes of an array. Wrong items are an error even on a closed handle. -/
def writeBytes (ref : HandleRef) (data : ArrayRef) : Host Bool := do
  let bytes ← Host.ofExcept (bytesFrom 0 (← Host.read (·.items data)))
  writeAll "fWrite" ref bytes

/-- Writes a line in an encoding. An unknown encoding is an error even on a closed handle. -/
def writeLine (ref : HandleRef) (line encoding : String) : Host Bool :=
  match LineEncoding.ofName? encoding with
  | none => Host.fail (.unsupportedLiteral "encoding" encoding)
  | some known => writeAll "fWriteLine" ref (known.encodeLine line)

def space : String := "fileio"

def descriptor (name : String) (labels : List String) : Descriptor :=
  { name, space, labels }

/-- The functions of the module on an operating system, in order of registration. -/
def registrationsOn (os : OperatingSystem) : List Registration :=
  [⟨descriptor "dExists" ["path"], .ofBody [.string] directoryExists⟩,
    ⟨descriptor "dCreate" ["path"], .ofBody [.string] createDirectory⟩,
    ⟨descriptor "dUnlink" ["path"], .ofBody [.string] removeDirectory⟩,
    ⟨descriptor "fUnlink" ["path"], .ofBody [.string] removeFile⟩,
    ⟨descriptor "fCheckHandle" ["handle"], .ofBody [.filehandle] checkHandle⟩,
    ⟨descriptor "fOpen" ["path", "mode"], .ofBody [.string, .string] openFile⟩,
    ⟨descriptor "fExists" ["path"], .ofBody [.string] fileExists⟩,
    ⟨descriptor "fCreate" ["path"], .ofBody [.string] createFile⟩,
    ⟨descriptor "fGetPath" ["path"], .ofBody [.string] getPath⟩,
    ⟨descriptor "fClose" ["handle"], .ofBody [.filehandle] closeHandle⟩,
    ⟨descriptor "fReadLine" ["handle"], .ofBody [.filehandle] readLine⟩,
    ⟨descriptor "fLen" ["handle"], .ofBody [.filehandle] (length os)⟩,
    ⟨descriptor "fGetPos" ["handle"], .ofBody [.filehandle] (getPosition os)⟩,
    ⟨descriptor "fSetPos" ["handle", "pos"], .ofBody [.filehandle, .integer] (setPosition os)⟩,
    ⟨descriptor "fRead" ["handle", "count"], .ofBody [.filehandle, .integer] readBytes⟩,
    ⟨descriptor "fWrite" ["handle", "data"], .ofBody [.filehandle, .array] writeBytes⟩,
    ⟨descriptor "fWriteLine" ["handle", "line", "encoding"],
      .ofBody [.filehandle, .string, .string] writeLine⟩]

def registrations : List Registration :=
  registrationsOn .obliging

end ScriptHost.Library.Files
