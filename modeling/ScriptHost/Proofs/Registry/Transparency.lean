import Mathlib.Data.List.Forall2
import ScriptHost.Proofs.Registry.Call

/-!
What calls make of the functions behind them. Once a function is found and the number of arguments
is right, a call ends as the function does, in the world that the function leaves; only an error has
one more note, and a crash may be turned into an error. So a sequence of calls leaves the world that
its functions leave, and a call that fails is nothing special to those after it.
-/

namespace ScriptHost

namespace Host

variable {α : Type}

/-- Runs actions one after the other, whatever becomes of each, and tells how each one ends. -/
def runAll : List (Host α) → World → List (Except Abort α) × World
  | [], w => ([], w)
  | action :: rest, w =>
    let (ended, later) := action.run w
    let (others, last) := runAll rest later
    (ended :: others, last)

theorem runAll_cons (action : Host α) (rest : List (Host α)) (w : World) :
    runAll (action :: rest) w =
      ((action.run w).1 :: (runAll rest (action.run w).2).1,
        (runAll rest (action.run w).2).2) :=
  rfl

end Host

theorem qualifiedName_of_key {d : Descriptor} {space name : String} (key : d.key = (space, name)) :
    d.qualifiedName = space ++ "." ++ name := by
  obtain ⟨rfl, rfl⟩ := Prod.mk.inj key
  rfl

/-- What a script asks for: a function by its namespace and name, and arguments for it. -/
structure Request where
  space : String
  name : String
  args : List Value

namespace Registry

variable {r other : Registry} {space name : String} {args : List Value} {entry : Registration}

/-- The function asked for is registered, and gets as many arguments as it takes. -/
structure Resolves (r : Registry) (q : Request) (entry : Registration) : Prop where
  member : entry ∈ r.entries
  key : entry.key = (q.space, q.name)
  count : q.args.length = entry.function.arity

theorem Resolves.call_eq {q : Request} (resolves : r.Resolves q entry) :
    r.call q.space q.name q.args =
      (entry.function.invoke q.args).mapAbort (r.explain entry.descriptor) := by
  rw [call_of_find? (find?_eq_some_iff.2 ⟨resolves.member, resolves.key⟩),
    callEntry_of_count resolves.count]

/-- A sequence of calls leaves the world that the functions leave on their own, and each call ends
as its function does, but for what calls add to errors and crashes. -/
theorem runAll_call {requests : List Request} {entries : List Registration}
    (resolve : List.Forall₂ r.Resolves requests entries) (w : World) :
    Host.runAll (requests.map fun q => r.call q.space q.name q.args) w =
      let direct :=
        Host.runAll (requests.zipWith (fun q entry => entry.function.invoke q.args) entries) w
      (entries.zipWith (fun entry ended => ended.mapError (r.explain entry.descriptor)) direct.1,
        direct.2) := by
  -- The worlds are the same all along, since what a call adds is no matter of the world.
  induction resolve generalizing w with
  | nil => rfl
  | @cons q entry requests entries resolves _ ih =>
    rw [List.map_cons, List.zipWith_cons_cons, Host.runAll_cons, Host.runAll_cons,
      resolves.call_eq, Host.run_mapAbort, ih]
    rfl

theorem explain_eq_of_table_eq {d : Descriptor} {a : Abort} (calm : ∀ message, a ≠ .crash message) :
    r.explain d a = other.explain d a := by
  cases a with
  | error e => rfl
  | crash message => exact absurd rfl (calm message)

/-- Registries with the same functions differ only where a function crashes. -/
theorem run_call_congr (tables : r.table = other.table) {w : World}
    (calm : ∀ entry, r.Resolves ⟨space, name, args⟩ entry →
      ∀ message later, (entry.function.invoke args).run w ≠ (.error (.crash message), later)) :
    (r.call space name args).run w = (other.call space name args).run w := by
  have found : r.find? space name = other.find? space name := by rw [find?, find?, tables]
  cases here : r.find? space name with
  | none => rw [call_of_unknown here, call_of_unknown (found.symm.trans here)]
  | some entry =>
    rw [call_of_find? here, call_of_find? (found.symm.trans here)]
    by_cases count : args.length = entry.function.arity
    · obtain ⟨member, key⟩ := find?_eq_some_iff.1 here
      have quiet := calm entry ⟨member, key, count⟩
      rw [callEntry_of_count count, callEntry_of_count count, Host.run_mapAbort, Host.run_mapAbort]
      generalize (entry.function.invoke args).run w = ended at quiet
      obtain ⟨result, later⟩ := ended
      cases result with
      | ok v => rfl
      | error a =>
        have same : r.explain entry.descriptor a = other.explain entry.descriptor a :=
          explain_eq_of_table_eq fun message crash => quiet message later (crash ▸ rfl)
        exact congrArg (fun a => (Except.error a, later)) same
    · rw [run_callEntry_of_miscount count, run_callEntry_of_miscount count]

/-- A call of a function that is registered, with the right number of arguments, gives the result of
the function, or its error with one more note behind all others. A crash becomes an error with only
this note, unless the registry lets it through. The world is the one that the function leaves, and
so it is for sequences of calls, each of which ends as its function does, whatever became of those
before it. Whether crashes are caught does not matter to calls without a crash. -/
theorem call_transparent (r : Registry) :
    (∀ q entry, r.Resolves q entry → ∀ w,
      let note := "in call to " ++ (q.space ++ "." ++ q.name)
      match (entry.function.invoke q.args).run w with
      | (.ok v, later) => (r.call q.space q.name q.args).run w = (.ok v, later)
      | (.error (.error e), later) =>
        (r.call q.space q.name q.args).run w =
          (.error (.error
            { cause := e.cause, message := e.message, notes := e.notes ++ [note] }), later)
      | (.error (.crash message), later) =>
        (r.call q.space q.name q.args).run w =
          (if r.catchCrashes then
            .error (.error
              { cause := .nativeFailure (q.space ++ "." ++ q.name)
                  (message.getD "panic with a non-string payload")
                notes := [note] })
          else .error (.crash message), later)) ∧
    (∀ requests entries, List.Forall₂ r.Resolves requests entries → ∀ w,
      Host.runAll (requests.map fun q => r.call q.space q.name q.args) w =
        let direct :=
          Host.runAll (requests.zipWith (fun q entry => entry.function.invoke q.args) entries) w
        (entries.zipWith (fun entry ended => ended.mapError (r.explain entry.descriptor)) direct.1,
          direct.2)) ∧
    ∀ other : Registry, r.table = other.table → ∀ q w,
      (∀ entry, r.Resolves q entry →
        ∀ message later, (entry.function.invoke q.args).run w ≠ (.error (.crash message), later)) →
      (r.call q.space q.name q.args).run w = (other.call q.space q.name q.args).run w := by
  refine ⟨fun q entry resolves w => ?_, fun _ _ => runAll_call, fun _ tables _ _ =>
    run_call_congr tables⟩
  have ends : (r.call q.space q.name q.args).run w = _ :=
    (congrArg (·.run w) resolves.call_eq).trans (Host.run_mapAbort ..)
  have named : entry.descriptor.qualifiedName = q.space ++ "." ++ q.name :=
    qualifiedName_of_key resolves.key
  rw [ends, ← named]
  generalize (entry.function.invoke q.args).run w = ended
  obtain ⟨result, later⟩ := ended
  cases result with
  | ok v => rfl
  | error a =>
    cases a with
    | error e => rfl
    | crash message =>
      cases catching : r.catchCrashes with
      | true => simp only [Except.mapError, explain, catching]; rfl
      | false => simp only [Except.mapError, explain, catching]; rfl

/-- A registry whose only function makes an array and then crashes. -/
def crashing : Registry :=
  (({} : RegistryBuilder).registerAll
    [⟨{ name := "boom" }, .raw 0 fun _ => do
      let _ ← Host.change (·.newArray [])
      Host.crash (some "kaboom")⟩]).1.build

/-- The function crashes twice in a row, and each time the array that it has made stays. -/
theorem call_crashing :
    let boom : Request := ⟨"core", "boom", []⟩
    let w : World := { store := {}, files := { nodes := #[], workingNode := ⟨0⟩, workingPath := [] } }
    let failure : Except Abort Value := .error (.error
      { cause := .nativeFailure "core.boom" "kaboom", notes := ["in call to core.boom"] })
    (crashing.call boom.space boom.name boom.args).run w =
        (failure, { w with store := { arrays := #[[]] } }) ∧
      Host.runAll ([boom, boom].map fun q => crashing.call q.space q.name q.args) w =
        ([failure, failure], { w with store := { arrays := #[[], []] } }) := by
  intro boom w failure
  have resolves : crashing.Resolves boom crashing.entries[0] :=
    ⟨List.mem_singleton_self _, rfl, rfl⟩
  obtain ⟨once, inTurn, -⟩ := call_transparent crashing
  exact ⟨once boom _ resolves w, inTurn _ _ (.cons resolves (.cons resolves .nil)) w⟩

end Registry

end ScriptHost
