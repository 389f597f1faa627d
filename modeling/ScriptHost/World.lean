import ScriptHost.EvalError
import ScriptHost.Store

/-!
The world that host functions act on, and the actions themselves. An action ends with a result, with
an error for the script, or by crashing; in each case the world is left as the action made it.
-/

namespace ScriptHost

/-- The shared objects of scripts and the file system. -/
structure World where
  store : Store
  files : FileTree

/-- How an action can end without a result. A crash may carry a text. -/
inductive Abort
  | error (e : EvalError)
  | crash (message : Option String)

/-- An action on the world. -/
abbrev Host := ExceptT Abort (StateM World)

namespace Host

def fail {α : Type} (cause : EvalError.Cause) : Host α :=
  throw (.error { cause })

def crash {α : Type} (message : Option String) : Host α :=
  throw (.crash message)

/-- The outcome of a computation that may fail with an error. -/
def ofExcept {α : Type} : Except EvalError α → Host α
  | .ok a => pure a
  | .error e => throw (.error e)

def read {α : Type} (query : Store → α) : Host α :=
  return query (← get).store

def readFiles {α : Type} (query : FileTree → α) : Host α :=
  return query (← get).files

def change {α : Type} (step : Store → α × Store) : Host α :=
  modifyGet fun w =>
    let (a, store) := step w.store
    (a, { w with store })

def changeFiles {α : Type} (step : FileTree → α × FileTree) : Host α :=
  modifyGet fun w =>
    let (a, files) := step w.files
    (a, { w with files })

/-- Turns the way an action ends without a result into another one. -/
def mapAbort {α : Type} (f : Abort → Abort) (action : Host α) : Host α :=
  ExceptT.adapt f action

/-! ### How actions run -/

section Run

variable {α β : Type} (w : World)

@[simp]
theorem run_pure (a : α) : (pure a : Host α).run w = (.ok a, w) :=
  rfl

@[simp]
theorem run_fail (cause : EvalError.Cause) :
    (fail cause : Host α).run w = (.error (.error { cause }), w) :=
  rfl

@[simp]
theorem run_ofExcept (result : Except EvalError α) :
    (ofExcept result).run w = (result.mapError .error, w) := by
  cases result <;> rfl

@[simp]
theorem run_read (query : Store → α) : (read query).run w = (.ok (query w.store), w) :=
  rfl

@[simp]
theorem run_readFiles (query : FileTree → α) :
    (readFiles query).run w = (.ok (query w.files), w) :=
  rfl

@[simp]
theorem run_change (step : Store → α × Store) :
    (change step).run w = (.ok (step w.store).1, { w with store := (step w.store).2 }) :=
  rfl

@[simp]
theorem run_changeFiles (step : FileTree → α × FileTree) :
    (changeFiles step).run w = (.ok (step w.files).1, { w with files := (step w.files).2 }) :=
  rfl

/-- The second action runs in the world that the first one leaves, if that has a result. -/
theorem run_bind (action : Host α) (next : α → Host β) :
    (action >>= next).run w =
      match action.run w with
      | (.ok a, later) => (next a).run later
      | (.error e, later) => (.error e, later) := by
  rw [ExceptT.run_bind]
  show StateT.bind action.run _ w = _
  cases run : action.run w with
  | mk result later => cases result <;> simp only [StateT.bind, run] <;> rfl

@[simp]
theorem run_mapAbort (f : Abort → Abort) (action : Host α) :
    (action.mapAbort f).run w = ((action.run w).1.mapError f, (action.run w).2) :=
  rfl

end Run

end Host

end ScriptHost
