import ScriptHost.Registry.Builder
import ScriptHost.Value.Equality
import ScriptHost.Value.Outline

/-!
The `core` module: what every script can ask about values.
-/

namespace ScriptHost.Library.Core

def typeName (v : Value) : Host String :=
  return v.typeName

def toText (v : Value) : Host String :=
  Host.read (·.render v)

def equals (a b : Value) : Host Bool :=
  Host.read (·.equal a b)

def tuple (a b : Value) : Host (Value × Value) :=
  return (a, b)

/-- The length of a text in characters. -/
def textLength (text : String) : Host Integer :=
  return .ofNat text.length

/-- The functions of the module, in order of registration. -/
def registrations : List Registration :=
  [⟨{ name := "typeName", labels := ["value"] }, .ofBody [.any] typeName⟩,
    ⟨{ name := "toString", labels := ["value"] }, .ofBody [.any] toText⟩,
    ⟨{ name := "equals", labels := ["a", "b"] }, .ofBody [.any, .any] equals⟩,
    ⟨{ name := "tuple", labels := ["a", "b"] }, .ofBody [.any, .any] tuple⟩,
    ⟨{ name := "strLen", labels := ["s"] }, .ofBody [.string] textLength⟩]

end ScriptHost.Library.Core
