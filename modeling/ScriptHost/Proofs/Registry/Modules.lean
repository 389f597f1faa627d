import Mathlib.Data.List.Basic
import ScriptHost.Library.Standard

/-!
Functions registered together. A module comes to the registration of its functions one by one, up to
the first that fails, and those before it stay. The names of the standard library all differ and its
labels fit, so with duplicates refused it can be added to any builder that has none of its names,
and with duplicates replaced to any builder at all, once or as often as one likes.
-/

namespace ScriptHost

/-- Nothing changes if a registration is put where it stands already. -/
theorem FunctionTable.replace_eq_self {t : FunctionTable} {r : Registration} {slot : Nat}
    (found : t.slot? r.key = some slot) (here : t.entries[slot]? = some r) :
    t.replace slot r found = t := by
  obtain ⟨bound, value⟩ := List.getElem?_eq_some_iff.1 here
  have entries : t.entries.set slot r = t.entries := by rw [← value, List.set_getElem_self]
  cases t
  simp only [replace, entries]

namespace RegistryBuilder

variable {b later : RegistryBuilder} {r : Registration} {rs : List Registration}

/-! ### One after the other -/

theorem registerAll_eq_none_iff :
    b.registerAll rs = (later, none) ↔ rs.foldlM register b = .ok later := by
  induction rs generalizing b with
  | nil =>
    rw [registerAll, List.foldlM_nil]
    constructor
    · intro same
      rw [(Prod.mk.inj same).1]
      rfl
    · intro same
      rw [Except.ok.inj same]
  | cons r rest ih =>
    rw [registerAll, List.foldlM_cons]
    cases b.register r with
    | ok extended => exact ih
    | error e =>
      constructor
      · intro impossible
        cases impossible
      · intro impossible
        cases impossible

theorem registerAll_eq_some_iff {e : RegistryError} :
    b.registerAll rs = (later, some e) ↔ ∃ front r back, rs = front ++ r :: back ∧
      front.foldlM register b = .ok later ∧ later.register r = .error e := by
  induction rs generalizing b with
  | nil => simp [registerAll]
  | cons r rest ih =>
    rw [registerAll]
    cases step : b.register r with
    | ok extended =>
      refine ih.trans ?_
      constructor
      · rintro ⟨front, failing, back, rfl, reached, failure⟩
        refine ⟨r :: front, failing, back, rfl, ?_, failure⟩
        rw [List.foldlM_cons, step]
        exact reached
      · rintro ⟨front, failing, back, split, reached, failure⟩
        cases front with
        | nil =>
          obtain ⟨rfl, rfl⟩ := List.cons.inj split
          cases reached
          rw [step] at failure
          cases failure
        | cons head front =>
          obtain ⟨rfl, rfl⟩ := List.cons.inj split
          rw [List.foldlM_cons, step] at reached
          exact ⟨front, failing, back, rfl, reached, failure⟩
    | error cause =>
      constructor
      · intro stopped
        obtain ⟨rfl, same⟩ := Prod.mk.inj stopped
        exact ⟨[], r, rest, rfl, rfl, step.trans (congrArg Except.error (Option.some.inj same))⟩
      · rintro ⟨front, failing, back, split, reached, failure⟩
        cases front with
        | nil =>
          obtain ⟨rfl, rfl⟩ := List.cons.inj split
          cases reached
          rw [Except.error.inj (step.symm.trans failure)]
        | cons head front =>
          obtain ⟨rfl, rfl⟩ := List.cons.inj split
          rw [List.foldlM_cons, step] at reached
          cases reached

theorem registerAll_append (b : RegistryBuilder) (first second : List Registration) :
    b.registerAll (first ++ second) =
      match b.registerAll first with
      | (reached, none) => reached.registerAll second
      | failed => failed := by
  induction first generalizing b with
  | nil => rfl
  | cons r rest ih =>
    rw [List.cons_append, registerAll, registerAll]
    cases b.register r with
    | ok extended => exact ih extended
    | error e => rfl

/-! ### New names -/

theorem registerAll_of_fresh (fit : ∀ r ∈ rs, LabelsFit r) (apart : (rs.map (·.key)).Nodup)
    (fresh : ∀ r ∈ rs, b.table.find? r.key = none) :
    ∃ table, b.registerAll rs = ({ b with table }, none) ∧
      table.entries = b.table.entries ++ rs := by
  induction rs generalizing b with
  | nil => exact ⟨b.table, rfl, (List.append_nil _).symm⟩
  | cons r rest ih =>
    rw [List.map_cons, List.nodup_cons] at apart
    obtain ⟨new, apartRest⟩ := apart
    have unknown : b.table.slot? r.key = none :=
      FunctionTable.slot?_eq_none_iff.2 (fresh r List.mem_cons_self)
    have success := register_of_fresh (fit r List.mem_cons_self) unknown
    have stillFresh : ∀ other ∈ rest, (b.table.append r unknown).find? other.key = none := by
      intro other member
      rw [FunctionTable.find?_append, if_neg, fresh other (List.mem_cons_of_mem _ member)]
      intro same
      rw [same] at new
      exact new (List.mem_map_of_mem member)
    obtain ⟨table, registered, entries⟩ := ih (b := { b with table := b.table.append r unknown })
      (fun other member => fit other (List.mem_cons_of_mem _ member)) apartRest stillFresh
    refine ⟨table, ?_, ?_⟩
    · rw [registerAll, success]
      exact registered
    · rw [entries, show (b.table.append r unknown).entries = b.table.entries ++ [r] from rfl,
        List.append_assoc, List.singleton_append]

theorem fresh_of_registerAll (reject : b.policy = .reject)
    (success : b.registerAll rs = (later, none)) : ∀ r ∈ rs, b.table.find? r.key = none := by
  induction rs generalizing b with
  | nil => exact List.forall_mem_nil _
  | cons r rest ih =>
    rw [registerAll] at success
    cases step : b.register r with
    | error e =>
      rw [step] at success
      cases success
    | ok extended =>
      rw [step] at success
      obtain ⟨_, ⟨_, _, replace, _⟩ | ⟨fresh, rfl⟩⟩ := register_cases step
      · rw [reject] at replace
        cases replace
      · have others := ih (b := { b with table := b.table.append r fresh }) reject success
        refine List.forall_mem_cons.2 ⟨FunctionTable.slot?_eq_none_iff.1 fresh, ?_⟩
        intro other member
        have missing := others other member
        rw [FunctionTable.find?_append] at missing
        split at missing
        next => cases missing
        next => exact missing

/-! ### Names that may be taken -/

/-- The registrations are what their names lead to, all other names lead where they led before, and
whatever had a slot still has it. -/
structure Supersedes (rs : List Registration) (b later : RegistryBuilder) : Prop where
  policy_eq : later.policy = b.policy
  slot : ∀ key slot, b.table.slot? key = some slot → later.table.slot? key = some slot
  find?_eq : ∀ r ∈ rs, later.table.find? r.key = some r
  others : ∀ key, key ∉ rs.map (·.key) → later.table.find? key = b.table.find? key

theorem register_supersedes (fit : LabelsFit r) (replace : b.policy = .replace) :
    ∃ later, b.register r = .ok later ∧ Supersedes [r] b later := by
  rcases Option.eq_none_or_eq_some (b.table.slot? r.key) with fresh | ⟨slot, found⟩
  · refine ⟨_, register_of_fresh fit fresh, rfl, fun key other known => ?_, fun _ member => ?_,
      fun key absent => ?_⟩
    · have different : r.key ≠ key := by
        rintro rfl
        rw [fresh] at known
        cases known
      exact (SlotIndex.slot?_assign ..).trans ((if_neg different).trans known)
    · rw [List.mem_singleton.1 member, FunctionTable.find?_append, if_pos rfl]
    · rw [FunctionTable.find?_append, if_neg]
      exact fun same => absent (List.mem_singleton.2 same.symm)
  · refine ⟨_, register_of_replace fit found replace, rfl, fun key other known => known,
      fun _ member => ?_, fun key absent => ?_⟩
    · rw [List.mem_singleton.1 member, FunctionTable.find?_replace, if_pos rfl]
    · rw [FunctionTable.find?_replace, if_neg]
      exact fun same => absent (List.mem_singleton.2 same.symm)

theorem registerAll_supersedes (fit : ∀ r ∈ rs, LabelsFit r) (apart : (rs.map (·.key)).Nodup)
    (replace : b.policy = .replace) :
    ∃ later, b.registerAll rs = (later, none) ∧ Supersedes rs b later := by
  induction rs generalizing b with
  | nil => exact ⟨b, rfl, rfl, fun _ _ => id, List.forall_mem_nil _, fun _ _ => rfl⟩
  | cons r rest ih =>
    rw [List.map_cons, List.nodup_cons] at apart
    obtain ⟨new, apartRest⟩ := apart
    obtain ⟨middle, step, first⟩ := register_supersedes (fit r List.mem_cons_self) replace
    obtain ⟨later, registered, second⟩ := ih (b := middle)
      (fun other member => fit other (List.mem_cons_of_mem _ member)) apartRest
      (first.policy_eq.trans replace)
    refine ⟨later, ?_, ?_⟩
    · rw [registerAll, step]
      exact registered
    · refine ⟨second.policy_eq.trans first.policy_eq,
        fun key slot known => second.slot key slot (first.slot key slot known), ?_, ?_⟩
      · refine List.forall_mem_cons.2 ⟨?_, second.find?_eq⟩
        rw [second.others r.key new, first.find?_eq r (List.mem_singleton_self r)]
      · intro key absent
        rw [List.map_cons, List.mem_cons, not_or] at absent
        rw [second.others key absent.2, first.others key (by simpa using absent.1)]

/-- Registrations that are there already are replaced by themselves. -/
theorem registerAll_of_find? (fit : ∀ r ∈ rs, LabelsFit r) (replace : b.policy = .replace)
    (there : ∀ r ∈ rs, b.table.find? r.key = some r) : b.registerAll rs = (b, none) := by
  induction rs with
  | nil => rfl
  | cons r rest ih =>
    obtain ⟨slot, found, here⟩ := Option.bind_eq_some_iff.1 (there r List.mem_cons_self)
    rw [registerAll, register_of_replace (fit r List.mem_cons_self) found replace,
      FunctionTable.replace_eq_self found here]
    exact ih (fun other member => fit other (List.mem_cons_of_mem _ member))
      fun other member => there other (List.mem_cons_of_mem _ member)

end RegistryBuilder

namespace Library

theorem nodup_keys_standard : (standard.map (·.key)).Nodup := by
  decide

theorem labelsFit_standard : ∀ r ∈ standard, RegistryBuilder.LabelsFit r := by
  decide

end Library

namespace RegistryBuilder

open Library

variable {b : RegistryBuilder}

theorem registerAll_standard_of_reject (reject : b.policy = .reject) :
    ((b.registerAll standard).2 = none ↔ ∀ r ∈ standard, b.table.find? r.key = none) ∧
      ((b.registerAll standard).2 = none →
        (b.registerAll standard).1.table.entries = b.table.entries ++ standard) := by
  have fresh (success : (b.registerAll standard).2 = none) :
      ∀ r ∈ standard, b.table.find? r.key = none :=
    fresh_of_registerAll reject (Prod.ext rfl success)
  refine ⟨⟨fresh, fun free => ?_⟩, fun success => ?_⟩
  · obtain ⟨table, registered, _⟩ :=
      registerAll_of_fresh labelsFit_standard nodup_keys_standard free
    rw [registered]
  · obtain ⟨table, registered, entries⟩ :=
      registerAll_of_fresh labelsFit_standard nodup_keys_standard (fresh success)
    rw [registered]
    exact entries

theorem registerAll_standard_of_replace (replace : b.policy = .replace) :
    ∃ once, b.registerAll standard = (once, none) ∧ Supersedes standard b once ∧
      once.registerAll standard = (once, none) := by
  obtain ⟨once, registered, supersedes⟩ :=
    registerAll_supersedes labelsFit_standard nodup_keys_standard replace
  exact ⟨once, registered, supersedes, registerAll_of_find? labelsFit_standard
    (supersedes.policy_eq.trans replace) supersedes.find?_eq⟩

/-- Functions registered together are registered one by one until one fails, and then the builder is
the one that those before it lead to. For the standard modules, of which the core functions come
first, this means: with duplicates refused they can be registered exactly if none of their names is
taken, and then stand in order behind all others; with duplicates replaced they can always be
registered, whatever had a slot keeps it, and a second time changes nothing. -/
theorem registerAll_in_turn :
    (∀ (b later : RegistryBuilder) (rs : List Registration),
      (b.registerAll rs = (later, none) ↔ rs.foldlM register b = .ok later) ∧
      ∀ e, b.registerAll rs = (later, some e) ↔ ∃ front r back, rs = front ++ r :: back ∧
        front.foldlM register b = .ok later ∧ later.register r = .error e) ∧
    (standard.map (·.key)).Nodup ∧ standard.length = 22 ∧
    ∀ b : RegistryBuilder,
      (b.registerAll standard =
        match b.registerAll Core.registrations with
        | (reached, none) => reached.registerAll Files.registrations
        | failed => failed) ∧
      (b.policy = .reject →
        ((b.registerAll standard).2 = none ↔ ∀ r ∈ standard, b.table.find? r.key = none) ∧
        ((b.registerAll standard).2 = none →
          (b.registerAll standard).1.table.entries = b.table.entries ++ standard)) ∧
      (b.policy = .replace →
        ∃ once, b.registerAll standard = (once, none) ∧
          (∀ key slot, b.table.slot? key = some slot → once.table.slot? key = some slot) ∧
          (∀ r ∈ standard, once.table.find? r.key = some r) ∧
          once.registerAll standard = (once, none)) := by
  refine ⟨fun b later rs => ⟨registerAll_eq_none_iff, fun e => registerAll_eq_some_iff⟩,
    nodup_keys_standard, rfl, fun b => ⟨registerAll_append b _ _, registerAll_standard_of_reject,
      fun replace => ?_⟩⟩
  obtain ⟨once, registered, supersedes, again⟩ := registerAll_standard_of_replace replace
  exact ⟨once, registered, supersedes.slot, supersedes.find?_eq, again⟩

/-- The standard modules can be registered in an empty builder, and again if that is allowed. -/
theorem registerAll_in_turn_empty :
    (({} : RegistryBuilder).registerAll standard).1.table.entries = standard ∧
      ∃ once, ({ policy := .replace } : RegistryBuilder).registerAll standard = (once, none) ∧
        once.registerAll standard = (once, none) := by
  obtain ⟨-, -, -, modules⟩ := registerAll_in_turn
  obtain ⟨free, entries⟩ := (modules {}).2.1 rfl
  obtain ⟨once, registered, -, -, again⟩ := (modules { policy := .replace }).2.2 rfl
  exact ⟨entries (free.2 fun _ _ => rfl), once, registered, again⟩

end RegistryBuilder

end ScriptHost
