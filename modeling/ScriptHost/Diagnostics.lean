/-!
Whether diagnostics of host calls are switched on. The first request decides for good, and it needs
a filter directive; without one nothing is ever switched on.
-/

namespace ScriptHost

/-- The decision about diagnostics, once it is made. -/
structure Diagnostics where
  decision : Option Bool := none

/-- Asks for diagnostics under an optional filter directive. The answer is the first decision. -/
def Diagnostics.request (d : Diagnostics) (directive : Option String) : Bool × Diagnostics :=
  let active := d.decision.getD directive.isSome
  (active, { decision := some active })

end ScriptHost
