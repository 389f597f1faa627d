import ScriptHost.Library.Core
import ScriptHost.Library.Files
import ScriptHost.Registry.Call

/-!
The standard library: the functions of `core`, then those of `fileio`.
-/

namespace ScriptHost.Library

/-- The functions of all standard modules, in order of registration. -/
def standard : List Registration :=
  Core.registrations ++ Files.registrations

/-- The registry that holds the standard modules and nothing else. -/
def standardRegistry : Registry :=
  (({} : RegistryBuilder).registerAll standard).1.build

theorem entries_standardRegistry : standardRegistry.entries = standard :=
  rfl

end ScriptHost.Library
