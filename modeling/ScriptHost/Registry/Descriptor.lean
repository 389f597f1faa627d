import ScriptHost.Text.Quoted

/-!
Descriptors: under which namespace and name a host function is known to scripts, with optional
labels for its parameters. Labels are for the reader only; types are checked by the function itself.
-/

namespace ScriptHost

/-- The namespace of functions that do not name one. -/
def coreNamespace : String := "core"

/-- The identity of a host function for scripts. Functions without parameter labels have an empty
list of them. -/
structure Descriptor where
  name : String
  space : String := coreNamespace
  labels : List String := []
deriving DecidableEq

namespace Descriptor

/-- The namespace and name, by which functions are looked up. -/
def key (d : Descriptor) : String × String :=
  (d.space, d.name)

/-- The namespace and name as one text, with a point between them. -/
def qualifiedName (d : Descriptor) : String :=
  d.space ++ "." ++ d.name

def bracketed (items : List String) : String :=
  "[" ++ ", ".intercalate items ++ "]"

def inspect (d : Descriptor) : String :=
  "NativeDescriptor \x7b name: " ++ Quoted.quote d.name ++ ", namespace: " ++
    Quoted.quote d.space ++ ", params: " ++ bracketed (d.labels.map Quoted.quote) ++ " \x7d"

end Descriptor

end ScriptHost
