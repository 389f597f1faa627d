import ScriptHost.NameMap
import ScriptHost.Stream
import ScriptHost.Value

/-!
The store of shared objects: the items of every array, the fields of every struct and the state of
every file handle. Objects are only ever added, and each is found again by its reference. A
reference that the store never gave out stands for an empty array, an empty struct or a closed
handle.
-/

namespace ScriptHost

/-- A file handle: the path it was opened with, and its stream as long as it is open. -/
structure Handle where
  path : String
  stream : Option Stream

instance : Inhabited Handle :=
  ⟨"", none⟩

def Handle.isOpen (h : Handle) : Bool :=
  h.stream.isSome

/-- All shared objects, and the number of stamps that have been given out. -/
structure Store where
  arrays : Array (List Value) := #[]
  structs : Array (NameMap Value) := #[]
  handles : Array Handle := #[]
  stamps : Nat := 0

namespace Store

def items (s : Store) (ref : ArrayRef) : List Value :=
  s.arrays[ref.index]?.getD []

def fields (s : Store) (ref : StructRef) : NameMap Value :=
  s.structs[ref.index]?.getD ∅

def handle (s : Store) (ref : HandleRef) : Handle :=
  s.handles[ref.index]?.getD default

/-! ### Creation -/

/-- A stamp that no earlier string or tuple has. -/
def freshStamp (s : Store) : Stamp × Store :=
  (⟨s.stamps⟩, { s with stamps := s.stamps + 1 })

def newString (s : Store) (text : String) : Value × Store :=
  let (stamp, s) := s.freshStamp
  (.string stamp text, s)

def newTuple (s : Store) (first second : Value) : Value × Store :=
  let (stamp, s) := s.freshStamp
  (.tuple stamp first second, s)

def newArray (s : Store) (items : List Value) : ArrayRef × Store :=
  (⟨s.arrays.size⟩, { s with arrays := s.arrays.push items })

def newStruct (s : Store) (fields : NameMap Value) : StructRef × Store :=
  (⟨s.structs.size⟩, { s with structs := s.structs.push fields })

def newHandle (s : Store) (handle : Handle) : HandleRef × Store :=
  (⟨s.handles.size⟩, { s with handles := s.handles.push handle })

/-- A new array with the items of another one. The items themselves stay shared. -/
def copyArray (s : Store) (ref : ArrayRef) : ArrayRef × Store :=
  s.newArray (s.items ref)

/-! ### Arrays -/

def setItems (s : Store) (ref : ArrayRef) (items : List Value) : Store :=
  { s with arrays := s.arrays.setIfInBounds ref.index items }

def push (s : Store) (ref : ArrayRef) (v : Value) : Store :=
  s.setItems ref (s.items ref ++ [v])

/-- Takes the last item off, if there is one. -/
def pop (s : Store) (ref : ArrayRef) : Option Value × Store :=
  ((s.items ref).getLast?, s.setItems ref (s.items ref).dropLast)

/-- Replaces the item at an index and returns the previous one; an index out of bounds changes
nothing. -/
def setItem (s : Store) (ref : ArrayRef) (index : Nat) (v : Value) : Option Value × Store :=
  ((s.items ref)[index]?, s.setItems ref ((s.items ref).set index v))

/-! ### Structs -/

/-- Replaces all fields of a struct. -/
def setFields (s : Store) (ref : StructRef) (fields : NameMap Value) : Store :=
  { s with structs := s.structs.setIfInBounds ref.index fields }

/-- Gives a field a value and returns its previous one. -/
def setField (s : Store) (ref : StructRef) (name : String) (v : Value) : Option Value × Store :=
  ((s.fields ref).get? name, s.setFields ref ((s.fields ref).insert name v))

/-- Removes a field and returns its value. -/
def removeField (s : Store) (ref : StructRef) (name : String) : Option Value × Store :=
  ((s.fields ref).get? name, s.setFields ref ((s.fields ref).erase name))

/-! ### File handles -/

/-- Replaces the stream of a handle; the path stays. -/
def setStream (s : Store) (ref : HandleRef) (stream : Option Stream) : Store :=
  { s with handles := s.handles.modify ref.index ({ · with stream }) }

/-- Closes a handle for good, and tells whether it was open. -/
def close (s : Store) (ref : HandleRef) : Bool × Store :=
  ((s.handle ref).isOpen, s.setStream ref none)

/-! ### What the operations change -/

theorem items_newArray (s : Store) (items : List Value) (ref : ArrayRef) :
    (s.newArray items).2.items ref =
      if ref = (s.newArray items).1 then items else s.items ref := by
  rcases ref with ⟨index⟩
  by_cases last : index = s.arrays.size <;> simp [newArray, Store.items, Array.getElem?_push, last]

theorem fields_newStruct (s : Store) (fields : NameMap Value) (ref : StructRef) :
    (s.newStruct fields).2.fields ref =
      if ref = (s.newStruct fields).1 then fields else s.fields ref := by
  rcases ref with ⟨index⟩
  by_cases last : index = s.structs.size <;>
    simp [newStruct, Store.fields, Array.getElem?_push, last]

theorem handle_newHandle (s : Store) (handle : Handle) (ref : HandleRef) :
    (s.newHandle handle).2.handle ref =
      if ref = (s.newHandle handle).1 then handle else s.handle ref := by
  rcases ref with ⟨index⟩
  by_cases last : index = s.handles.size <;>
    simp [newHandle, Store.handle, Array.getElem?_push, last]

theorem items_setItems {s : Store} {ref : ArrayRef} (held : ref.index < s.arrays.size)
    (items : List Value) (other : ArrayRef) :
    (s.setItems ref items).items other = if ref = other then items else s.items other := by
  rcases ref with ⟨index⟩
  rcases other with ⟨otherIndex⟩
  by_cases same : index = otherIndex
  · subst same
    simp [setItems, Store.items, show index < _ from held]
  · simp [setItems, Store.items, same]

theorem fields_setFields {s : Store} {ref : StructRef} (held : ref.index < s.structs.size)
    (fields : NameMap Value) (other : StructRef) :
    (s.setFields ref fields).fields other = if ref = other then fields else s.fields other := by
  rcases ref with ⟨index⟩
  rcases other with ⟨otherIndex⟩
  by_cases same : index = otherIndex
  · subst same
    simp [setFields, Store.fields, show index < _ from held]
  · simp [setFields, Store.fields, same]

theorem handle_setStream {s : Store} {ref : HandleRef} (held : ref.index < s.handles.size)
    (stream : Option Stream) (other : HandleRef) :
    (s.setStream ref stream).handle other =
      if ref = other then { s.handle other with stream } else s.handle other := by
  rcases ref with ⟨index⟩
  rcases other with ⟨otherIndex⟩
  by_cases same : index = otherIndex
  · subst same
    simp [setStream, Store.handle, Array.getElem_modify, show index < _ from held]
  · simp [setStream, Store.handle, Array.getElem?_modify, same]

end Store

end ScriptHost
