import ScriptHost.Proofs.NameMap
import ScriptHost.Proofs.Registry.History

/-!
The views of a registry. Look-ups go through the index, listings through the slots, and calls
through both. They agree because the index leads to every slot from the name that stands there, and
because nothing gets into a slot whose labels do not fit its function.
-/

namespace ScriptHost

/-- The distinct elements of a list stand in the order of their first occurrences. -/
theorem pairwise_idxOf_eraseDups {α : Type} [BEq α] [LawfulBEq α] (l : List α) :
    l.eraseDups.Pairwise fun a b => l.idxOf a < l.idxOf b := by
  induction l using List.reverseRecOn with
  | nil => exact .nil
  | append_singleton front last ih =>
    have kept : front.eraseDups.Pairwise fun a b =>
        (front ++ [last]).idxOf a < (front ++ [last]).idxOf b := by
      refine ih.imp_of_mem fun {a b} inFront behind before => ?_
      rwa [List.idxOf_append_of_mem (List.mem_eraseDups.1 inFront),
        List.idxOf_append_of_mem (List.mem_eraseDups.1 behind)]
    rw [eraseDups_concat]
    split
    next known => exact kept
    next new =>
      refine List.pairwise_append.2 ⟨kept, List.pairwise_singleton _ _, fun a member b single => ?_⟩
      have inside : a ∈ front := List.mem_eraseDups.1 member
      rw [List.mem_singleton.1 single, List.idxOf_append_of_mem inside,
        List.idxOf_append_of_notMem new]
      exact Nat.lt_add_right _ (List.idxOf_lt_length_of_mem inside)

namespace FunctionTable

variable {t : FunctionTable}

/-- No name stands in two slots, as the index leads from each name to one slot only. -/
theorem nodup_keys (t : FunctionTable) : (t.entries.map (·.key)).Nodup := by
  rw [List.nodup_iff_getElem?_ne_getElem?]
  intro i j before inside same
  have there := List.getElem?_eq_getElem inside
  have second := (t.indexed _ j).2 (by rw [← List.getElem?_map, there])
  have first := (t.indexed _ i).2 (by rw [← List.getElem?_map, same, there])
  exact Nat.ne_of_lt before (Option.some.inj (first.symm.trans second))

theorem find?_isSome_iff {key : String × String} :
    (t.find? key).isSome ↔ key ∈ t.entries.map (·.key) := by
  rw [Option.isSome_iff_exists, List.mem_map]
  exact exists_congr fun _ => find?_eq_some_iff

/-- Every slot of the index is one of the table, and the name that leads to it stands there. -/
theorem exists_entry_of_mem_index {space name : String} {names : NameMap Nat} {slot : Nat}
    (inSpaces : (space, names) ∈ t.index.spaces.entries) (inNames : (name, slot) ∈ names.entries) :
    ∃ entry, t.entries[slot]? = some entry ∧ entry.key = (space, name) := by
  have found : t.index.slot? (space, name) = some slot := by
    rw [SlotIndex.slot?, NameMap.mem_entries_iff.1 inSpaces]
    exact NameMap.mem_entries_iff.1 inNames
  exact Option.map_eq_some_iff.1 ((t.indexed (space, name) slot).1 found)

end FunctionTable

namespace Registry

variable {r : Registry} {space name : String}

theorem contains_iff_mem_descriptors :
    r.contains space name ↔ (space, name) ∈ r.descriptors.map (·.key) := by
  rw [contains, find?, FunctionTable.find?_isSome_iff, descriptors, List.map_map]
  rfl

theorem count_descriptors :
    (r.descriptors.map (·.key)).count (space, name) = if r.contains space name then 1 else 0 := by
  have nodup : (r.descriptors.map (·.key)).Nodup := by
    rw [descriptors, List.map_map]
    exact r.table.nodup_keys
  split
  next present =>
    exact List.count_eq_one_of_mem nodup (contains_iff_mem_descriptors.1 present)
  next absent =>
    exact List.count_eq_zero.2 fun member => absent (contains_iff_mem_descriptors.2 member)

/-- The call ends with the error for an unknown function, and without a note on it. -/
def FailsUndefined (r : Registry) (space name : String) (args : List Value) (w : World) : Prop :=
  ∃ e later otherSpace otherName, (r.call space name args).run w = (.error (.error e), later) ∧
    e.cause = .undefinedFunction otherSpace otherName ∧ e.notes = []

/-- All errors of a function that is run get a note. -/
theorem notes_ne_nil_of_explain {d : Descriptor} {a : Abort} {e : EvalError}
    (explained : r.explain d a = .error e) : e.notes ≠ [] := by
  cases a with
  | error inner =>
    cases explained
    exact List.append_ne_nil_of_right_ne_nil _ (List.cons_ne_nil _ _)
  | crash message =>
    rw [explain] at explained
    split at explained
    · cases explained
      exact List.cons_ne_nil _ _
    · cases explained

theorem contains_iff_not_failsUndefined (args : List Value) (w : World) :
    r.contains space name ↔ ¬r.FailsUndefined space name args w := by
  rw [contains]
  cases found : r.find? space name with
  | none =>
    have fails : r.FailsUndefined space name args w :=
      ⟨_, w, space, name, by rw [call_of_unknown found, Host.run_fail], rfl, rfl⟩
    simp [fails]
  | some entry =>
    refine iff_of_true rfl ?_
    rintro ⟨e, later, otherSpace, otherName, run, cause, silent⟩
    rw [call_of_find? found] at run
    by_cases count : args.length = entry.function.arity
    · rw [callEntry_of_count count, Host.run_mapAbort] at run
      generalize (entry.function.invoke args).run w = ended at run
      obtain ⟨result, last⟩ := ended
      cases result with
      | ok v => cases run
      | error a =>
        have explained := Except.error.inj (Prod.mk.inj run).1
        exact notes_ne_nil_of_explain explained silent
    · rw [run_callEntry_of_miscount count] at run
      cases run
      cases cause

theorem lookup_eq_some {d : Descriptor} (found : r.lookup space name = some d) :
    ∃ entry ∈ r.entries, r.find? space name = some entry ∧ entry.descriptor = d ∧
      d.key = (space, name) := by
  obtain ⟨entry, here, rfl⟩ := Option.map_eq_some_iff.1 found
  obtain ⟨member, key⟩ := find?_eq_some_iff.1 here
  exact ⟨entry, member, here, rfl, key⟩

theorem arity_eq_map_length : r.arity space name = (r.paramTypes space name).map List.length := by
  rw [arity, paramTypes, Option.map_map]
  congr 1
  funext entry
  exact (entry.function.length_params.symm).trans (List.length_map _).symm

theorem namespaces_eq :
    r.namespaces = (((r.entries.map (·.key))).map Prod.fst).eraseDups := by
  rw [namespaces, descriptors, List.map_map, List.map_map]
  rfl

end Registry

namespace RegistryBuilder

variable {b extended : RegistryBuilder} {r : Registration} {a : Attempt}

/-- Labels fit in every slot. -/
def AllLabelsFit (b : RegistryBuilder) : Prop :=
  ∀ entry ∈ b.table.entries, LabelsFit entry

theorem AllLabelsFit.register (fit : b.AllLabelsFit) (success : b.register r = .ok extended) :
    extended.AllLabelsFit := by
  obtain ⟨new, ⟨slot, found, _, rfl⟩ | ⟨fresh, rfl⟩⟩ := register_cases success
  · intro entry member
    rcases List.mem_or_eq_of_mem_set member with old | rfl
    · exact fit entry old
    · exact new
  · intro entry member
    rcases List.mem_append.1 member with old | last
    · exact fit entry old
    · exact List.mem_singleton.1 last ▸ new

theorem AllLabelsFit.attempt (fit : b.AllLabelsFit) (a : Attempt) :
    (b.attempt a).1.AllLabelsFit := by
  rw [RegistryBuilder.attempt]
  split
  next success => exact AllLabelsFit.register (b := b.withPolicy a.policy) fit success
  next => exact fit

theorem AllLabelsFit.attemptAll (fit : b.AllLabelsFit) (attempts : List Attempt) :
    (b.attemptAll attempts).1.AllLabelsFit := by
  induction attempts generalizing b with
  | nil => exact fit
  | cons a rest ih => exact ih (fit.attempt a)

/-- An attempt for a name that is there leaves the names in their slots. -/
theorem map_key_attempt
    (present : b.build.contains a.registration.descriptor.space a.registration.descriptor.name) :
    (b.attempt a).1.table.entries.map (·.key) = b.table.entries.map (·.key) := by
  rw [attempt]
  split
  next extended success =>
    obtain ⟨_, ⟨slot, found, _, rfl⟩ | ⟨fresh, rfl⟩⟩ := register_cases success
    · exact FunctionTable.map_key_replace slot found
    · rw [FunctionTable.slot?_eq_none_iff] at fresh
      have missing : b.table.find? a.registration.key = none := fresh
      rw [Registry.contains, show b.build.find? _ _ = none from missing] at present
      cases present
  next => rfl

/-- After any attempts under any policies, all views of the registry agree. -/
theorem build_attemptAll_views (catchCrashes : Bool) (attempts : List Attempt) :
    let builder := (({ catchCrashes } : RegistryBuilder).attemptAll attempts).1
    let registry := builder.build
    (∀ space name,
      let present := registry.contains space name
      ((registry.lookup space name).isSome = present ∧
        (registry.arity space name).isSome = present ∧
        (registry.paramTypes space name).isSome = present) ∧
      (registry.descriptors.map (·.key)).count (space, name) = (if present then 1 else 0) ∧
      (∀ args w, present ↔ ¬registry.FailsUndefined space name args w) ∧
      registry.arity space name = (registry.paramTypes space name).map List.length ∧
      ∀ d, registry.lookup space name = some d → d.space = space ∧ d.name = name ∧
        (d.labels = [] ∨ registry.arity space name = some d.labels.length)) ∧
    (registry.namespaces.Nodup ∧
      (∀ space, space ∈ registry.namespaces ↔ ∃ d ∈ registry.descriptors, d.space = space) ∧
      (registry.namespaces.Pairwise fun space other =>
        (registry.descriptors.map (·.space)).idxOf space <
          (registry.descriptors.map (·.space)).idxOf other) ∧
      ∀ a : Attempt,
        registry.contains a.registration.descriptor.space a.registration.descriptor.name →
          (builder.attempt a).1.build.namespaces = registry.namespaces) ∧
    ∀ space names, (space, names) ∈ registry.table.index.spaces.entries →
      ∀ name slot, (name, slot) ∈ names.entries →
        ∃ entry, registry.entries[slot]? = some entry ∧ entry.key = (space, name) := by
  intro builder registry
  have fits : builder.AllLabelsFit := by
    refine AllLabelsFit.attemptAll ?_ attempts
    intro entry member
    cases member
  have ordered := pairwise_idxOf_eraseDups (registry.descriptors.map (·.space))
  refine ⟨fun space name => ?_, ⟨?_, fun space => ?_, ordered, fun a present => ?_⟩, ?_⟩
  · refine ⟨⟨Option.isSome_map, Option.isSome_map, Option.isSome_map⟩,
      Registry.count_descriptors, Registry.contains_iff_not_failsUndefined, ?_, ?_⟩
    · exact Registry.arity_eq_map_length
    · intro d found
      obtain ⟨entry, member, here, rfl, key⟩ := Registry.lookup_eq_some found
      have arity : registry.arity space name = some entry.function.arity := by
        rw [Registry.arity, here, Option.map_some]
      rw [arity, Option.some_inj]
      exact ⟨congrArg Prod.fst key, congrArg Prod.snd key, (fits entry member).imp_right Eq.symm⟩
  · exact ordered.imp fun {a b} before same => by subst same; exact Nat.lt_irrefl _ before
  · rw [Registry.namespaces, List.mem_eraseDups, List.mem_map]
  · rw [Registry.namespaces_eq, Registry.namespaces_eq]
    exact congrArg (fun keys => (keys.map Prod.fst).eraseDups) (map_key_attempt present)
  · intro space names inSpaces name slot inNames
    exact FunctionTable.exists_entry_of_mem_index inSpaces inNames

/-- A function that takes the place of another one, with another arity. -/
theorem build_attemptAll_views_replaced :
    let first : Attempt := ⟨.reject, ⟨{ name := "void" }, .raw 0 fun _ => Host.give ()⟩⟩
    let second : Attempt :=
      ⟨.replace, ⟨{ name := "void", labels := ["v"] }, .raw 1 fun _ => Host.give ()⟩⟩
    let builder := (({} : RegistryBuilder).attemptAll [first, second]).1
    builder.build.arity "core" "void" = some 1 ∧
      (builder.attempt first).1.build.namespaces = ["core"] := by
  intro first second builder
  have views := build_attemptAll_views true [first, second]
  have labelled := (views.1 "core" "void").2.2.2.2 { name := "void", labels := ["v"] } rfl
  exact ⟨labelled.2.2.resolve_left (List.cons_ne_nil _ _), views.2.1.2.2.2 first rfl⟩

end RegistryBuilder

end ScriptHost
