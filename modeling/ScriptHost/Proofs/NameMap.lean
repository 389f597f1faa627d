import Mathlib.Data.List.Sublists
import Mathlib.Data.Option.Basic
import ScriptHost.NameMap

/-! Maps compared binding by binding. To find every binding of one map in another of the same size
is to find the bindings of both, because no name is bound twice. -/

namespace ScriptHost.NameMap

variable {α β : Type}

theorem nodup_keys (m : NameMap α) : m.keys.Nodup := by
  apply m.sorted_keys.imp
  intro name other before same
  exact String.lt_irrefl name (same ▸ before)

theorem mem_entries_iff {m : NameMap α} {name : String} {value : α} :
    (name, value) ∈ m.entries ↔ m.get? name = some value := by
  rcases m with ⟨entries, sorted⟩
  change (name, value) ∈ entries ↔ entries.lookup name = some value
  induction entries with
  | nil => simp
  | cons head rest ih =>
    obtain ⟨above, tail⟩ := List.pairwise_cons.1 sorted
    rw [List.mem_cons, lookup_cons, ih tail]
    by_cases here : head.1 = name
    · have absent : rest.lookup name = none := lookup_eq_none_of_above (here ▸ above)
      rw [if_pos here, absent, Option.some_inj]
      constructor
      · intro either
        obtain rfl | impossible := either
        · rfl
        · cases impossible
      · intro same
        exact .inl (Prod.ext here.symm same.symm)
    · rw [if_neg here]
      constructor
      · intro either
        obtain rfl | found := either
        · exact absurd rfl here
        · exact found
      · exact .inr

theorem contains_iff {m : NameMap α} {name : String} :
    m.contains name ↔ ∃ value, m.get? name = some value := by
  rw [contains, Option.isSome_iff_exists]

theorem size_eq_length_keys (m : NameMap α) : m.size = m.keys.length := by
  rw [size, keys, List.length_map]

/-- Maps of one size bind the same names as soon as one of them binds those of the other. -/
theorem contains_of_size_eq {m : NameMap α} {n : NameMap β} (sizes : m.size = n.size)
    (included : ∀ name, m.contains name → n.contains name) {name : String}
    (bound : n.contains name) : m.contains name := by
  have subset : m.keys ⊆ n.keys := fun name member =>
    mem_keys_iff.2 (included name (mem_keys_iff.1 member))
  have lengths : n.keys.length ≤ m.keys.length := by
    rw [← size_eq_length_keys, ← size_eq_length_keys, sizes]
  have perm := (List.subperm_of_subset m.nodup_keys subset).perm_of_length_le lengths
  exact mem_keys_iff.1 (perm.mem_iff.2 (mem_keys_iff.2 bound))

theorem size_eq_of_contains_iff {m : NameMap α} {n : NameMap β}
    (same : ∀ name, m.contains name ↔ n.contains name) : m.size = n.size := by
  have perm : m.keys.Perm n.keys := (List.perm_ext_iff_of_nodup m.nodup_keys n.nodup_keys).2
    fun name => by rw [mem_keys_iff, mem_keys_iff, same]
  rw [size_eq_length_keys, size_eq_length_keys, perm.length_eq]

/-- Two maps bind the same names, and bind them to related values. -/
def Related (R : α → β → Prop) (m : NameMap α) (n : NameMap β) : Prop :=
  ∀ name, Option.Rel R (m.get? name) (n.get? name)

variable {R T : α → β → Prop} {m : NameMap α} {n : NameMap β}

theorem related_def :
    Related R m n ↔ (∀ name, m.contains name ↔ n.contains name) ∧
      ∀ name value other, m.get? name = some value → n.get? name = some other → R value other := by
  constructor
  · intro related
    refine ⟨fun name => ?_, fun name value other left right => ?_⟩
    · have rel := related name
      rw [contains, contains]
      generalize m.get? name = left, n.get? name = right at rel
      cases rel <;> simp
    · have rel := related name
      rw [left, right] at rel
      cases rel with
      | some holds => exact holds
  · intro both name
    obtain ⟨names, values⟩ := both
    have same := names name
    rw [contains, contains] at same
    cases left : m.get? name with
    | none =>
      cases right : n.get? name with
      | none => exact .none
      | some other => simp [left, right] at same
    | some value =>
      cases right : n.get? name with
      | none => simp [left, right] at same
      | some other => exact .some (values name value other left right)

theorem Related.imp (weaker : ∀ a b, R a b → T a b) (related : Related R m n) : Related T m n :=
  related_def.2 ⟨(related_def.1 related).1, fun name value other left right =>
    weaker _ _ ((related_def.1 related).2 name value other left right)⟩

theorem Related.flip (related : Related R m n) : Related (fun b a => R a b) n m := by
  intro name
  have rel := related name
  generalize m.get? name = left, n.get? name = right at rel
  cases rel with
  | none => exact .none
  | some holds => exact .some holds

theorem Related.comp {γ : Type} {o : NameMap γ} {S : β → γ → Prop} {U : α → γ → Prop}
    (first : Related R m n) (second : Related S n o)
    (through : ∀ name b, n.get? name = some b → ∀ a c, R a b → S b c → U a c) :
    Related U m o := by
  intro name
  have left := first name
  have right := second name
  have middle := through name
  generalize m.get? name = x, n.get? name = y, o.get? name = z at left right middle
  cases left with
  | none =>
    cases right with
    | none => exact .none
  | some holds =>
    cases right with
    | some continues => exact .some (middle _ rfl _ _ holds continues)

theorem Related.exists_left (related : Related R m n) {name : String} {b : β}
    (bound : n.get? name = some b) : ∃ a, m.get? name = some a ∧ R a b := by
  have rel := related name
  rw [bound] at rel
  generalize m.get? name = found at rel
  cases rel with
  | some holds => exact ⟨_, rfl, holds⟩

/-- Only a map without bindings is related to one without. -/
theorem Related.eq_empty (related : Related R ∅ n) : n = ∅ := by
  refine eq_of_get?_eq fun name => ?_
  have rel := related name
  rw [get?_empty] at rel ⊢
  generalize n.get? name = found at rel
  cases rel
  rfl

theorem lookup_map (g : α → β) (entries : List (String × α)) (name : String) :
    (entries.map fun entry => (entry.1, g entry.2)).lookup name =
      (entries.lookup name).map g := by
  induction entries with
  | nil => rfl
  | cons head rest ih =>
    rw [List.map_cons, lookup_cons, lookup_cons, ih]
    split <;> rfl

/-- Related maps have the same bindings once related values become the same. -/
theorem Related.map_entries_eq {γ : Type} {g : α → γ} {h : β → γ} (related : Related R m n)
    (same : ∀ name a b, m.get? name = some a → n.get? name = some b → R a b → g a = h b) :
    (m.entries.map fun entry => (entry.1, g entry.2)) =
      n.entries.map fun entry => (entry.1, h entry.2) := by
  refine entries_eq_of_lookup_eq (List.pairwise_map.2 m.sorted) (List.pairwise_map.2 n.sorted)
    fun name => ?_
  have rel := related name
  have become := same name
  rw [get?, get?] at rel become
  rw [lookup_map, lookup_map]
  generalize m.entries.lookup name = left, n.entries.lookup name = right at rel become
  cases rel with
  | none => rfl
  | some holds => exact congrArg some (become _ _ rfl rfl holds)

theorem Related.keys_eq (related : Related R m n) : m.keys = n.keys := by
  have bindings := related.map_entries_eq (g := fun _ => ()) (h := fun _ => ())
    fun _ _ _ _ _ _ => rfl
  have names := congrArg (List.map Prod.fst) bindings
  rwa [List.map_map, List.map_map] at names

theorem related_of_map_entries_eq {γ : Type} {g : α → γ} {h : β → γ}
    (same : (m.entries.map fun entry => (entry.1, g entry.2)) =
      n.entries.map fun entry => (entry.1, h entry.2)) :
    Related (fun a b => g a = h b) m n := by
  intro name
  have become : (m.get? name).map g = (n.get? name).map h := by
    rw [get?, get?, ← lookup_map, ← lookup_map, same]
  generalize m.get? name = left, n.get? name = right at become
  cases left with
  | none =>
    cases right with
    | none => exact .none
    | some _ => cases become
  | some a =>
    cases right with
    | none => cases become
    | some b => exact .some (Option.some.inj become)

/-- It is enough to look for the bindings of one map in the other if both have one size. -/
theorem related_iff_size_eq :
    Related R m n ↔ m.size = n.size ∧
      ∀ entry ∈ m.entries, ∃ other, n.get? entry.1 = some other ∧ R entry.2 other := by
  rw [related_def]
  constructor
  · intro both
    obtain ⟨names, values⟩ := both
    refine ⟨size_eq_of_contains_iff names, ?_⟩
    intro ⟨name, value⟩ member
    have left := mem_entries_iff.1 member
    obtain ⟨other, right⟩ := contains_iff.1 ((names name).1 (contains_iff.2 ⟨value, left⟩))
    exact ⟨other, right, values name value other left right⟩
  · intro covered
    obtain ⟨sizes, found⟩ := covered
    have included : ∀ name, m.contains name → n.contains name := by
      intro name bound
      obtain ⟨value, left⟩ := contains_iff.1 bound
      obtain ⟨other, right, -⟩ := found (name, value) (mem_entries_iff.2 left)
      exact contains_iff.2 ⟨other, right⟩
    refine ⟨fun name => ⟨included name, contains_of_size_eq sizes included⟩, ?_⟩
    intro name value other left right
    obtain ⟨same, bound, holds⟩ := found (name, value) (mem_entries_iff.2 left)
    rw [right, Option.some_inj] at bound
    exact bound ▸ holds

end ScriptHost.NameMap
