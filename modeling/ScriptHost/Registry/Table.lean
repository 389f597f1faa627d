import ScriptHost.Native.Function
import ScriptHost.Registry.Descriptor

/-!
Tables of host functions. The functions stand in the order in which their names first appeared, and
an index leads from namespaces and names to their slots. Index and slots belong to each other: the
index knows every slot under the name that stands there, and nothing else.
-/

namespace ScriptHost

/-- A host function under its descriptor. -/
structure Registration where
  descriptor : Descriptor
  function : Native

/-- The namespace and name that a registration is found by. -/
def Registration.key (r : Registration) : String × String :=
  r.descriptor.key

/-- For every namespace, the slots of the names in it. -/
structure SlotIndex where
  spaces : NameMap (NameMap Nat) := ∅

namespace SlotIndex

def slot? (index : SlotIndex) (key : String × String) : Option Nat :=
  (index.spaces.get? key.1).bind (·.get? key.2)

/-- Gives a namespace and name a slot. -/
def assign (index : SlotIndex) (key : String × String) (slot : Nat) : SlotIndex :=
  { spaces := index.spaces.insert key.1 (((index.spaces.get? key.1).getD ∅).insert key.2 slot) }

theorem slot?_assign (index : SlotIndex) (key other : String × String) (slot : Nat) :
    (index.assign key slot).slot? other = if key = other then some slot else index.slot? other := by
  rcases key with ⟨space, name⟩
  rcases other with ⟨otherSpace, otherName⟩
  simp only [slot?, assign, NameMap.get?_insert, Prod.mk.injEq]
  by_cases spaces : space = otherSpace
  · subst spaces
    simp only [if_true, Option.bind_some, NameMap.get?_insert, true_and]
    split
    · rfl
    · cases index.spaces.get? space <;> rfl
  · simp only [spaces, if_false, false_and]

/-- An index tracks a list if it leads to every slot from the name that stands there, and from no
other name. -/
def Tracks (index : SlotIndex) (entries : List Registration) : Prop :=
  ∀ key slot, index.slot? key = some slot ↔ entries[slot]?.map (·.key) = some key

variable {index : SlotIndex} {entries : List Registration}

theorem tracks_empty : ({} : SlotIndex).Tracks [] := by
  simp [Tracks, slot?]

theorem Tracks.lt_length (tracks : index.Tracks entries) {key : String × String} {slot : Nat}
    (found : index.slot? key = some slot) : slot < entries.length := by
  obtain ⟨r, here, _⟩ := Option.map_eq_some_iff.1 ((tracks key slot).1 found)
  exact (List.getElem?_eq_some_iff.1 here).1

theorem Tracks.set (tracks : index.Tracks entries) {r : Registration} {slot : Nat}
    (found : index.slot? r.key = some slot) : index.Tracks (entries.set slot r) := by
  intro key other
  rw [tracks, List.getElem?_set]
  split
  next same =>
    subst same
    rw [if_pos (tracks.lt_length found), (tracks _ _).1 found, Option.map_some]
  next => rfl

theorem Tracks.concat (tracks : index.Tracks entries) {r : Registration}
    (fresh : index.slot? r.key = none) :
    (index.assign r.key entries.length).Tracks (entries ++ [r]) := by
  intro key slot
  have known := tracks key slot
  rw [slot?_assign, List.getElem?_append]
  by_cases same : r.key = key
  · subst same
    rw [if_pos rfl, Option.some_inj]
    split
    next before =>
      rw [← known, fresh]
      simp only [reduceCtorEq, iff_false]
      exact Nat.ne_of_gt before
    next behind =>
      rcases Nat.eq_or_lt_of_le (Nat.le_of_not_lt behind) with rfl | further
      · simp
      · simp [Nat.ne_of_lt further, Nat.sub_ne_zero_of_lt further]
  · rw [if_neg same, known]
    split
    next before => rfl
    next behind =>
      rw [List.getElem?_eq_none (Nat.le_of_not_lt behind)]
      cases slot - entries.length <;> simp [same]

end SlotIndex

/-- Registrations in slots, with the index that finds them. -/
structure FunctionTable where
  entries : List Registration := []
  index : SlotIndex := {}
  indexed : index.Tracks entries := by exact SlotIndex.tracks_empty

namespace FunctionTable

def slot? (t : FunctionTable) (key : String × String) : Option Nat :=
  t.index.slot? key

def find? (t : FunctionTable) (key : String × String) : Option Registration :=
  (t.slot? key).bind (t.entries[·]?)

/-- Puts another registration of the same name into a slot. -/
def replace (t : FunctionTable) (slot : Nat) (r : Registration)
    (found : t.slot? r.key = some slot) : FunctionTable :=
  { t with
    entries := t.entries.set slot r
    indexed := t.indexed.set found }

/-- Puts a registration of a new name behind all others. -/
def append (t : FunctionTable) (r : Registration) (fresh : t.slot? r.key = none) : FunctionTable :=
  { entries := t.entries ++ [r]
    index := t.index.assign r.key t.entries.length
    indexed := t.indexed.concat fresh }

section Finding

variable {t : FunctionTable} {key : String × String} {r : Registration}

theorem find?_eq_some_iff : t.find? key = some r ↔ r ∈ t.entries ∧ r.key = key := by
  rw [find?, Option.bind_eq_some_iff]
  constructor
  · intro reached
    obtain ⟨slot, found, here⟩ := reached
    have entry := (t.indexed key slot).1 found
    rw [here, Option.map_some, Option.some_inj] at entry
    exact ⟨List.mem_of_getElem? here, entry⟩
  · intro registered
    obtain ⟨member, rfl⟩ := registered
    obtain ⟨slot, here⟩ := List.getElem?_of_mem member
    exact ⟨slot, (t.indexed _ _).2 (by rw [here, Option.map_some]), here⟩

theorem find?_eq_none_iff : t.find? key = none ↔ ∀ r ∈ t.entries, r.key ≠ key := by
  rw [Option.eq_none_iff_forall_ne_some]
  constructor
  · intro missing r member same
    exact missing r (find?_eq_some_iff.2 ⟨member, same⟩)
  · intro absent r found
    have entry := find?_eq_some_iff.1 found
    exact absent r entry.1 entry.2

theorem slot?_eq_none_iff : t.slot? key = none ↔ t.find? key = none := by
  constructor
  · intro missing
    rw [find?, missing, Option.bind_none]
  · intro missing
    rw [Option.eq_none_iff_forall_ne_some]
    intro slot found
    rw [find?, found, Option.bind_some] at missing
    have entry := (t.indexed key slot).1 found
    rw [missing, Option.map_none] at entry
    cases entry

theorem find?_replace (slot : Nat) (found : t.slot? r.key = some slot) :
    (t.replace slot r found).find? key = if r.key = key then some r else t.find? key := by
  have slots : (t.replace slot r found).slot? key = t.slot? key := rfl
  have entries : (t.replace slot r found).entries = t.entries.set slot r := rfl
  rw [find?, slots, entries]
  split
  next same =>
    subst same
    rw [found, Option.bind_some, List.getElem?_set_self (t.indexed.lt_length found)]
  next different =>
    rw [find?]
    cases other : t.slot? key with
    | none => rfl
    | some otherSlot =>
      have apart : slot ≠ otherSlot := by
        intro same
        subst same
        have here := (t.indexed _ _).1 found
        have there := (t.indexed _ _).1 other
        exact different (Option.some_inj.1 (here.symm.trans there))
      rw [Option.bind_some, Option.bind_some, List.getElem?_set_ne apart]

theorem find?_append (fresh : t.slot? r.key = none) :
    (t.append r fresh).find? key = if r.key = key then some r else t.find? key := by
  have slots : (t.append r fresh).slot? key =
      if r.key = key then some t.entries.length else t.slot? key :=
    SlotIndex.slot?_assign t.index r.key key t.entries.length
  have entries : (t.append r fresh).entries = t.entries ++ [r] := rfl
  rw [find?, slots, entries]
  split
  · rw [Option.bind_some, List.getElem?_concat_length]
  · rw [find?]
    cases found : t.slot? key with
    | none => rfl
    | some slot =>
      rw [Option.bind_some, Option.bind_some,
        List.getElem?_append_left (t.indexed.lt_length found)]

/-- A replacement keeps the names in their places. -/
theorem map_key_replace (slot : Nat) (found : t.slot? r.key = some slot) :
    (t.replace slot r found).entries.map (·.key) = t.entries.map (·.key) := by
  have here := (t.indexed _ _).1 found
  rw [← List.getElem?_map] at here
  obtain ⟨bound, value⟩ := List.getElem?_eq_some_iff.1 here
  change (t.entries.set slot r).map (·.key) = _
  rw [List.map_set, ← value, List.set_getElem_self bound]

end Finding

end FunctionTable

end ScriptHost
