import Mathlib.Data.List.Basic
import ScriptHost.Proofs.Registry.Call

/-!
Registries as the outcome of a history of registrations. Which attempts succeed depends only on the
registrations accepted before, and what a registry knows in the end is told by the list of all
accepted ones: every name resolves to the last registration accepted for it, and the names stand in
the order in which they were first accepted.
-/

namespace ScriptHost

/-- An attempt to register a function, with the policy in force at that moment. -/
structure Attempt where
  policy : DuplicatePolicy
  registration : Registration

namespace RegistryBuilder

/-- Makes an attempt and tells why it failed, if it did. -/
def attempt (b : RegistryBuilder) (a : Attempt) : RegistryBuilder × Option RegistryError :=
  match (b.withPolicy a.policy).register a.registration with
  | .ok extended => (extended, none)
  | .error e => (b.withPolicy a.policy, some e)

/-- Makes attempts one after the other, whatever becomes of each. -/
def attemptAll (b : RegistryBuilder) :
    List Attempt → RegistryBuilder × List (Option RegistryError)
  | [] => (b, [])
  | a :: rest =>
    let (b, outcome) := b.attempt a
    let (b, outcomes) := b.attemptAll rest
    (b, outcome :: outcomes)

end RegistryBuilder

namespace Attempt

/-- Why an attempt fails after the registrations accepted so far. Labels count before names. -/
def verdict (accepted : List Registration) (a : Attempt) : Option RegistryError :=
  let r := a.registration
  if r.descriptor.labels ≠ [] ∧ r.descriptor.labels.length ≠ r.function.arity then
    some (.paramCountMismatch r.descriptor.qualifiedName r.descriptor.labels.length
      r.function.arity)
  else if r.key ∈ accepted.map (·.key) ∧ a.policy = .reject then
    some (.duplicate r.descriptor.qualifiedName)
  else none

def record (accepted : List Registration) (a : Attempt) : List Registration :=
  if a.verdict accepted = none then accepted ++ [a.registration] else accepted

def recordAll (accepted : List Registration) (attempts : List Attempt) : List Registration :=
  attempts.foldl record accepted

def verdicts (accepted : List Registration) : List Attempt → List (Option RegistryError)
  | [] => []
  | a :: rest => a.verdict accepted :: verdicts (a.record accepted) rest

end Attempt

/-- The last accepted registration of a name. -/
def latest (accepted : List Registration) (key : String × String) : Option Registration :=
  (accepted.filter (·.key = key)).getLast?

theorem latest_concat (accepted : List Registration) (r : Registration) (key : String × String) :
    latest (accepted ++ [r]) key = if r.key = key then some r else latest accepted key := by
  rw [latest, List.filter_append]
  split
  next same => simp [same]
  next different => simp [different, latest]

theorem latest_eq_none_iff {accepted : List Registration} {key : String × String} :
    latest accepted key = none ↔ key ∉ accepted.map (·.key) := by
  rw [latest, List.getLast?_eq_none_iff, List.filter_eq_nil_iff]
  simp

theorem eraseDups_concat {α : Type} [BEq α] [LawfulBEq α] (l : List α) (a : α) :
    (l ++ [a]).eraseDups = if a ∈ l then l.eraseDups else l.eraseDups ++ [a] := by
  rw [List.eraseDups_append]
  split
  next known => simp [List.removeAll, known]
  next unknown => simp [List.removeAll, unknown, List.eraseDups_cons]

/-- A table reflects a history if names resolve to their last accepted registrations and stand in
the order of first acceptance. -/
structure FunctionTable.Reflects (t : FunctionTable) (accepted : List Registration) : Prop where
  find?_eq : ∀ key, t.find? key = latest accepted key
  keys_eq : t.entries.map (·.key) = (accepted.map (·.key)).eraseDups

namespace FunctionTable

variable {t : FunctionTable} {accepted : List Registration} {r : Registration}

theorem reflects_empty : ({} : FunctionTable).Reflects [] :=
  ⟨fun _ => rfl, rfl⟩

theorem Reflects.slot?_eq_none_iff (reflects : t.Reflects accepted) {key : String × String} :
    t.slot? key = none ↔ key ∉ accepted.map (·.key) := by
  rw [FunctionTable.slot?_eq_none_iff, reflects.find?_eq, latest_eq_none_iff]

theorem Reflects.mem_of_slot? (reflects : t.Reflects accepted) {key : String × String} {slot : Nat}
    (found : t.slot? key = some slot) : key ∈ accepted.map (·.key) := by
  refine Decidable.not_not.1 fun unknown => ?_
  rw [reflects.slot?_eq_none_iff.2 unknown] at found
  cases found

theorem Reflects.replace (reflects : t.Reflects accepted) {slot : Nat}
    (found : t.slot? r.key = some slot) : (t.replace slot r found).Reflects (accepted ++ [r]) := by
  constructor
  · intro key
    rw [find?_replace, latest_concat, reflects.find?_eq]
  · rw [map_key_replace, reflects.keys_eq, List.map_append, List.map_singleton, eraseDups_concat,
      if_pos (reflects.mem_of_slot? found)]

theorem Reflects.append (reflects : t.Reflects accepted) (fresh : t.slot? r.key = none) :
    (t.append r fresh).Reflects (accepted ++ [r]) := by
  constructor
  · intro key
    rw [find?_append, latest_concat, reflects.find?_eq]
  · have entries : (t.append r fresh).entries = t.entries ++ [r] := rfl
    rw [entries, List.map_append, reflects.keys_eq, List.map_append, List.map_singleton,
      eraseDups_concat, if_neg (reflects.slot?_eq_none_iff.1 fresh)]

/-- The entries are the last accepted registrations of the names, in the order of the names. -/
theorem Reflects.entries_eq (reflects : t.Reflects accepted) :
    t.entries = (accepted.map (·.key)).eraseDups.filterMap (latest accepted) := by
  have self : ∀ r ∈ t.entries, (latest accepted ∘ (·.key)) r = some r := by
    intro r member
    rw [Function.comp, ← reflects.find?_eq, find?_eq_some_iff]
    exact ⟨member, rfl⟩
  rw [← reflects.keys_eq, List.filterMap_map, List.filterMap_congr self, List.filterMap_some]

end FunctionTable

namespace RegistryBuilder

variable {b : RegistryBuilder} {accepted : List Registration}

theorem labelsFit_iff {r : Registration} : LabelsFit r ↔
    ¬(r.descriptor.labels ≠ [] ∧ r.descriptor.labels.length ≠ r.function.arity) := by
  rw [LabelsFit, not_and_or, not_not, not_not]

/-- A registration that the history refuses fails for the same reason. -/
theorem register_of_refused (reflects : b.table.Reflects accepted) {a : Attempt}
    (policy : b.policy = a.policy) {e : RegistryError} (refused : a.verdict accepted = some e) :
    b.register a.registration = .error e := by
  dsimp only [Attempt.verdict] at refused
  split at refused
  next misfit =>
    rw [← Option.some.inj refused]
    exact register_of_not_labelsFit fun fit => labelsFit_iff.1 fit misfit
  next fit =>
    split at refused
    next taken =>
      rw [← Option.some.inj refused]
      cases found : b.table.slot? a.registration.key with
      | none => exact absurd taken.1 (reflects.slot?_eq_none_iff.1 found)
      | some slot =>
        exact register_of_reject (labelsFit_iff.2 fit) found (policy.trans taken.2)
    next => cases refused

theorem register_of_accepted (reflects : b.table.Reflects accepted) {a : Attempt}
    (policy : b.policy = a.policy) (fine : a.verdict accepted = none) :
    ∃ table, b.register a.registration = .ok { b with table } ∧
      table.Reflects (accepted ++ [a.registration]) := by
  dsimp only [Attempt.verdict] at fine
  split at fine
  next => cases fine
  next fit =>
    split at fine
    next => cases fine
    next free =>
      cases found : b.table.slot? a.registration.key with
      | none => exact ⟨_, register_of_fresh (labelsFit_iff.2 fit) found, reflects.append found⟩
      | some slot =>
        have replace : b.policy = .replace := by
          have known := reflects.mem_of_slot? found
          cases chosen : b.policy with
          | reject => exact absurd ⟨known, policy ▸ chosen⟩ free
          | replace => rfl
        exact ⟨_, register_of_replace (labelsFit_iff.2 fit) found replace,
          reflects.replace found⟩

theorem attempt_of_refused (reflects : b.table.Reflects accepted) {a : Attempt} {e : RegistryError}
    (refused : a.verdict accepted = some e) :
    b.attempt a = (b.withPolicy a.policy, some e) := by
  have failure : (b.withPolicy a.policy).register a.registration = .error e :=
    register_of_refused (b := b.withPolicy a.policy) reflects rfl refused
  rw [attempt, failure]

theorem attempt_of_accepted (reflects : b.table.Reflects accepted) {a : Attempt}
    (fine : a.verdict accepted = none) :
    ∃ table, b.attempt a = ({ b.withPolicy a.policy with table }, none) ∧
      table.Reflects (accepted ++ [a.registration]) := by
  obtain ⟨table, success, shown⟩ :=
    register_of_accepted (b := b.withPolicy a.policy) reflects rfl fine
  exact ⟨table, by rw [attempt, success], shown⟩

/-- One attempt comes out as the history says, and the table reflects the longer history. -/
theorem attempt_spec (reflects : b.table.Reflects accepted) (a : Attempt) :
    (b.attempt a).2 = a.verdict accepted ∧
      (b.attempt a).1.table.Reflects (a.record accepted) ∧
      (b.attempt a).1.catchCrashes = b.catchCrashes := by
  cases verdict : a.verdict accepted with
  | some e =>
    rw [attempt_of_refused reflects verdict, Attempt.record, if_neg (by simp [verdict])]
    exact ⟨rfl, reflects, rfl⟩
  | none =>
    obtain ⟨table, made, shown⟩ := attempt_of_accepted reflects verdict
    rw [made, Attempt.record, if_pos verdict]
    exact ⟨rfl, shown, rfl⟩

theorem attemptAll_spec (reflects : b.table.Reflects accepted) (attempts : List Attempt) :
    (b.attemptAll attempts).2 = Attempt.verdicts accepted attempts ∧
      (b.attemptAll attempts).1.table.Reflects (Attempt.recordAll accepted attempts) ∧
      (b.attemptAll attempts).1.catchCrashes = b.catchCrashes := by
  -- Each attempt is judged by what was accepted before it, which the table reflects all along.
  induction attempts generalizing b accepted with
  | nil => exact ⟨rfl, reflects, rfl⟩
  | cons a rest ih =>
    obtain ⟨outcome, shown, catches⟩ := attempt_spec reflects a
    obtain ⟨outcomes, final, stillCatches⟩ := ih shown
    refine ⟨?_, final, stillCatches.trans catches⟩
    rw [attemptAll, Attempt.verdicts]
    exact congrArg₂ List.cons outcome outcomes

/-- After any attempts under any policies, each attempt has come out as the history says, and the
registry is an ordered map: every name resolves to its last accepted registration, in every view and
in calls, and the names stand in the order of their first acceptance. An attempt that fails from
there leaves the registry as it is. -/
theorem build_attemptAll (catchCrashes : Bool) (attempts : List Attempt) :
    let start : RegistryBuilder := { catchCrashes }
    let builder := (start.attemptAll attempts).1
    let registry := builder.build
    let accepted := Attempt.recordAll [] attempts
    let names := (accepted.map (·.key)).eraseDups
    (start.attemptAll attempts).2 = Attempt.verdicts [] attempts ∧
      (∀ space name,
        registry.lookup space name = (latest accepted (space, name)).map (·.descriptor) ∧
        registry.arity space name = (latest accepted (space, name)).map (·.function.arity) ∧
        registry.paramTypes space name =
          (latest accepted (space, name)).map (·.function.params.map (·.name)) ∧
        ∀ args, registry.call space name args =
          match latest accepted (space, name) with
          | none => Host.fail (.undefinedFunction space name)
          | some entry => registry.callEntry entry args) ∧
      registry.descriptors.map (·.key) = names ∧
      registry.descriptors =
        names.filterMap (fun key => (latest accepted key).map (·.descriptor)) ∧
      builder.size = names.length ∧ registry.size = names.length ∧
      ∀ a e, a.verdict accepted = some e →
        (builder.attempt a).1.build = registry ∧ (builder.attempt a).1.size = builder.size := by
  intro start builder registry accepted names
  obtain ⟨outcomes, shown, -⟩ := attemptAll_spec (b := start) FunctionTable.reflects_empty attempts
  have reflects : registry.table.Reflects accepted := shown
  have found : ∀ space name, registry.find? space name = latest accepted (space, name) :=
    fun space name => reflects.find?_eq (space, name)
  have count : registry.table.entries.length = names.length := by
    rw [← List.length_map (·.key), reflects.keys_eq]
  refine ⟨outcomes, fun space name => ?_, ?_, ?_, count, count, ?_⟩
  · refine ⟨?_, ?_, ?_, fun args => ?_⟩
    · rw [Registry.lookup, found]
    · rw [Registry.arity, found]
    · rw [Registry.paramTypes, found]
    · cases last : latest accepted (space, name) with
      | none => exact Registry.call_of_unknown ((found space name).trans last)
      | some entry => exact Registry.call_of_find? ((found space name).trans last)
  · rw [Registry.descriptors, List.map_map]
    exact reflects.keys_eq
  · rw [Registry.descriptors, Registry.entries, reflects.entries_eq, List.map_filterMap]
  · intro a e refused
    rw [attempt_of_refused shown refused]
    exact ⟨rfl, rfl⟩

/-- A second registration under the policy to refuse it leaves the one function that is there. -/
theorem build_attemptAll_twice :
    let once : Attempt := ⟨.reject, ⟨{ name := "void" }, .raw 0 fun _ => Host.give ()⟩⟩
    let builder := ((({} : RegistryBuilder).attemptAll [once]).1)
    (builder.attempt once).1.build = builder.build ∧ (builder.attempt once).1.size = 1 := by
  intro once builder
  obtain ⟨-, -, -, -, size, -, unchanged⟩ := build_attemptAll true [once]
  obtain ⟨same, stays⟩ := unchanged once (.duplicate "core.void") rfl
  exact ⟨same, stays.trans size⟩

end RegistryBuilder

end ScriptHost
