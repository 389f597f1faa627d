import ScriptHost.Native.Result

/-!
When actions fail. An action of a host function is described at a world by the error it gives there,
if any; an action that fails has changed nothing. An action made of parts fails as its first part
does if the parts after it never fail.
-/

namespace ScriptHost.Host

variable {α β : Type}

/-- The action gives the error and leaves the world as it is, or it gives a result if there is no
error to give. -/
def FailsAs (action : Host α) (w : World) : Option EvalError → Prop
  | some e => action.run w = (.error (.error e), w)
  | none => ∃ a later, action.run w = (.ok a, later)

/-- The action has a result in every world. -/
def NeverFails (action : Host α) : Prop :=
  ∀ w, action.FailsAs w none

variable {action : Host α} {next : α → Host β} {w : World} {failure : Option EvalError}

theorem failsAs_fail (cause : EvalError.Cause) (w : World) :
    (fail cause : Host α).FailsAs w (some { cause }) :=
  run_fail w cause

theorem FailsAs.bind (first : action.FailsAs w failure) (rest : ∀ a, (next a).NeverFails) :
    (action >>= next).FailsAs w failure := by
  cases failure with
  | some e =>
    have stop : action.run w = (.error (.error e), w) := first
    rw [FailsAs, run_bind, stop]
  | none =>
    obtain ⟨a, later, run⟩ := first
    rw [FailsAs, run_bind, run]
    exact rest a later

/-- A first part that changes nothing, as a query does, leaves it to the rest to fail. -/
theorem FailsAs.bind_of_run {a : α} (run : action.run w = (.ok a, w))
    (rest : (next a).FailsAs w failure) : (action >>= next).FailsAs w failure := by
  cases failure with
  | some e => rw [FailsAs, run_bind, run]; exact rest
  | none => rw [FailsAs, run_bind, run]; exact rest

theorem FailsAs.mapAbort (ends : action.FailsAs w failure) {f : Abort → Abort}
    {g : EvalError → EvalError} (errors : ∀ e, f (.error e) = .error (g e)) :
    (action.mapAbort f).FailsAs w (failure.map g) := by
  cases failure with
  | some e =>
    have stop : action.run w = (.error (.error e), w) := ends
    rw [Option.map_some, FailsAs, run_mapAbort, stop, ← errors]
    rfl
  | none =>
    obtain ⟨a, later, run⟩ := ends
    rw [Option.map_none, FailsAs, run_mapAbort, run]
    exact ⟨a, later, rfl⟩

/-! ### Actions that never fail -/

theorem neverFails_pure (a : α) : (pure a : Host α).NeverFails :=
  fun w => ⟨a, w, rfl⟩

theorem neverFails_read (query : Store → α) : (read query).NeverFails :=
  fun w => ⟨_, w, run_read w query⟩

theorem neverFails_readFiles (query : FileTree → α) : (readFiles query).NeverFails :=
  fun w => ⟨_, w, run_readFiles w query⟩

theorem neverFails_change (step : Store → α × Store) : (change step).NeverFails :=
  fun w => ⟨_, _, run_change w step⟩

theorem neverFails_changeFiles (step : FileTree → α × FileTree) : (changeFiles step).NeverFails :=
  fun w => ⟨_, _, run_changeFiles w step⟩

theorem neverFails_give [ToValue α] (result : α) : (give result).NeverFails :=
  neverFails_change _

theorem NeverFails.bind (first : action.NeverFails) (rest : ∀ a, (next a).NeverFails) :
    (action >>= next).NeverFails :=
  fun w => (first w).bind rest

end ScriptHost.Host
