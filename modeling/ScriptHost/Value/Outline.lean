import ScriptHost.FloatText
import ScriptHost.Text.Quoted
import ScriptHost.Value.Container

/-!
Outlines of values, and the texts made from them. The outline is the finite tree that one sees when
going down from a value through its components, items and fields; a container that is met again
inside itself is not entered a second time but only marked. A container that merely occurs twice is
shown in full both times. An outline can also leave structs closed, as the text for scripts does.
-/

namespace ScriptHost

/-- What a value looks like from outside, with everything it refers to. -/
inductive Outline
  | string (text : String)
  | float (number : Float)
  | integer (number : Integer)
  | byte (number : UInt8)
  | filehandle (path : String) (isOpen : Bool)
  | longpointer (address : UInt64)
  | void
  | tuple (first second : Outline)
  | array (items : List Outline)
  | struct (fields : List (String × Outline))
  | enclosingArray
  | enclosingStruct

/-- How a container is marked inside itself. -/
def Container.mark : Container → Outline
  | .array _ => .enclosingArray
  | .struct _ => .enclosingStruct

/-- The outline of a container of which no contents are shown. -/
def Container.blank : Container → Outline
  | .array _ => .array []
  | .struct _ => .struct []

namespace Store

/-- The outline of a value, given those of containers. -/
def outlineWith (s : Store) (enter : Container → Outline) : Value → Outline
  | .string _ text => .string text
  | .float number => .float number
  | .integer number => .integer number
  | .byte number => .byte number
  | .filehandle ref => .filehandle (s.handle ref).path (s.handle ref).isOpen
  | .longpointer address => .longpointer address
  | .void => .void
  | .tuple _ first second => .tuple (s.outlineWith enter first) (s.outlineWith enter second)
  | .array ref => enter (.array ref)
  | .struct ref => enter (.struct ref)

/-- The outline of the contents of a container, given those of the containers in it. -/
def outlineContents (s : Store) (enter : Container → Outline) : Container → Outline
  | .array ref => .array ((s.items ref).map (s.outlineWith enter))
  | .struct ref => .struct ((s.fields ref).entries.map fun field =>
      (field.1, s.outlineWith enter field.2))

/-- The outline of a container that is met inside the given ones. Containers that are not to be
opened stay blank. -/
def outlineWithin (s : Store) (opens : Container → Bool) (enclosing : List Container)
    (c : Container) : Outline :=
  if c ∈ enclosing then c.mark
  else if _entered : s.Holds c ∧ opens c then
    s.outlineContents (s.outlineWithin opens (c :: enclosing)) c
  else c.blank
termination_by remaining s.containers enclosing.contains
decreasing_by
  exact remaining_lt (by simp +contextual) (mem_containers.2 (And.left (by assumption)))
    (by simpa) (by simp)

def outline (s : Store) (v : Value) : Outline :=
  s.outlineWith (s.outlineWithin (fun _ => true) []) v

/-- The outline of a value with its structs closed. -/
def surface (s : Store) (v : Value) : Outline :=
  s.outlineWith (s.outlineWithin Container.isArray []) v

end Store

namespace Outline

mutual

/-- The text that scripts show for a value. Arrays list their items, structs only say that they are
structs. -/
def render : Outline → String
  | string text => text
  | float number => floatText number
  | integer number => number.toText
  | byte number => number.toNat.repr
  | filehandle path isOpen =>
    if isOpen then "[filehandle " ++ path ++ "]" else "[filehandle closed]"
  | longpointer address => address.toNat.repr
  | void => "[void]"
  | tuple first second => "(" ++ first.render ++ ", " ++ second.render ++ ")"
  | array [] => "\x7b \x7d"
  | array (head :: tail) =>
    "\x7b " ++ ", ".intercalate (head.render :: renderAll tail) ++ " \x7d"
  | struct _ => "[struct]"
  | enclosingArray => "\x7b ... \x7d"
  | enclosingStruct => "[struct]"

def renderAll : List Outline → List String
  | [] => []
  | head :: tail => head.render :: renderAll tail

end

def word (b : Bool) : String :=
  if b then "true" else "false"

/-- What the text of a file handle shows of it, with the path in quotes already. -/
def handleText (path : String) (isOpen : Bool) : String :=
  "FileHandle \x7b path: " ++ path ++ ", open: " ++ word isOpen ++ " \x7d"

section Inspection

variable (quote : String → String)

mutual

/-- The text that shows a value with its type, for diagnosis. Strings and names are put into quotes
by a function that is given, and long pointers are hexadecimal. -/
def inspect : Outline → String
  | string text => "Str(" ++ quote text ++ ")"
  | float number => "Float(" ++ floatText number ++ ")"
  | integer number => "Int(" ++ number.toText ++ ")"
  | byte number => "Byte(" ++ number.toNat.repr ++ ")"
  | filehandle path isOpen => "FileHandle(" ++ handleText (quote path) isOpen ++ ")"
  | longpointer address => "LongPointer(0x" ++ String.ofList (Nat.toDigits 16 address.toNat) ++ ")"
  | void => "Void"
  | tuple first second => "Tuple(" ++ first.inspect ++ ", " ++ second.inspect ++ ")"
  | array items => "Array([" ++ ", ".intercalate (inspectAll items) ++ "])"
  | struct fields => "Struct(\x7b" ++ ", ".intercalate (inspectFields fields) ++ "\x7d)"
  | enclosingArray => "Array([...])"
  | enclosingStruct => "Struct(\x7b...\x7d)"

def inspectAll : List Outline → List String
  | [] => []
  | head :: tail => head.inspect :: inspectAll tail

/-- The diagnostic texts of fields, each after its name. -/
def inspectFields : List (String × Outline) → List String
  | [] => []
  | (name, value) :: rest => (quote name ++ ": " ++ value.inspect) :: inspectFields rest

end

end Inspection

end Outline

/-- The text that scripts show for a value. It says nothing about the contents of structs, so they
need not be looked at, however much there is in them. -/
def Store.render (s : Store) (v : Value) : String :=
  (s.surface v).render

/-- The text that shows a value for diagnosis. It is meant for values without cycles; on a cycle the
diagnosis has no end, and here it stops at the marks. -/
def Store.inspect (s : Store) (v : Value) : String :=
  (s.outline v).inspect Quoted.quote

end ScriptHost
