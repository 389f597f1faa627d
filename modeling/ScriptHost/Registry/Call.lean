import ScriptHost.Registry.Builder

/-!
Registries of host functions, and calls through them. A call first finds the function, then checks
the number of arguments, and then runs it. Every error that comes out of the run gets a last note
that names the function, and a crash becomes such an error too unless the registry lets it through.
-/

namespace ScriptHost

/-- A finished table of host functions. -/
structure Registry where
  table : FunctionTable
  catchCrashes : Bool

def RegistryBuilder.build (b : RegistryBuilder) : Registry :=
  { table := b.table, catchCrashes := b.catchCrashes }

namespace Registry

/-- The registrations in order of their slots. -/
def entries (r : Registry) : List Registration :=
  r.table.entries

/-- The registration of a namespace and name. -/
def find? (r : Registry) (space name : String) : Option Registration :=
  r.table.find? (space, name)

def lookup (r : Registry) (space name : String) : Option Descriptor :=
  (r.find? space name).map (·.descriptor)

def contains (r : Registry) (space name : String) : Bool :=
  (r.find? space name).isSome

def arity (r : Registry) (space name : String) : Option Nat :=
  (r.find? space name).map (·.function.arity)

/-- The names of the parameter types of a registered function. -/
def paramTypes (r : Registry) (space name : String) : Option (List String) :=
  (r.find? space name).map (·.function.params.map (·.name))

def size (r : Registry) : Nat :=
  r.entries.length

def isEmpty (r : Registry) : Bool :=
  r.entries.isEmpty

/-- The descriptors in order of registration. -/
def descriptors (r : Registry) : List Descriptor :=
  r.entries.map (·.descriptor)

/-- The different namespaces, in order of their first function. -/
def namespaces (r : Registry) : List String :=
  (r.descriptors.map (·.space)).eraseDups

/-- The text that stands for a crash without one. -/
def unknownCrash : String := "panic with a non-string payload"

/-- What a call makes of the end of a run: an error is marked with the function it came from, and so
is a crash that is caught. -/
def explain (r : Registry) (d : Descriptor) : Abort → Abort
  | .error e => .error (e.withNote ("in call to " ++ d.qualifiedName))
  | .crash message =>
    if r.catchCrashes then
      let e : EvalError := { cause := .nativeFailure d.qualifiedName (message.getD unknownCrash) }
      .error (e.withNote ("in call to " ++ d.qualifiedName))
    else .crash message

/-- Calls a function that has been found. -/
def callEntry (r : Registry) (entry : Registration) (args : List Value) : Host Value :=
  if args.length = entry.function.arity then
    (entry.function.invoke args).mapAbort (r.explain entry.descriptor)
  else
    Host.fail (.arityMismatch entry.descriptor.qualifiedName entry.function.arity args.length)

/-- Calls a function. -/
def call (r : Registry) (space name : String) (args : List Value) : Host Value :=
  match r.find? space name with
  | none => Host.fail (.undefinedFunction space name)
  | some entry => r.callEntry entry args

def inspect (r : Registry) : String :=
  "NativeRegistry \x7b functions: " ++ Descriptor.bracketed (r.descriptors.map (·.inspect)) ++
    ", catch_panics: " ++ (if r.catchCrashes then "true" else "false") ++ " \x7d"

end Registry

/-- The place for the registry that is used when no other is given. It can be filled only once. -/
structure GlobalRegistry where
  installed : Option Registry := none

/-- Fills the place, unless it is taken. -/
def GlobalRegistry.install (g : GlobalRegistry) (r : Registry) :
    Except RegistryError GlobalRegistry :=
  match g.installed with
  | none => .ok { installed := some r }
  | some _ => .error .alreadyInstalled

end ScriptHost
