/-!
Finite maps from names to values, kept as a list in strictly ascending order of the names. Names are
ordered by code points, which is also the order of their UTF-8 bytes. Two maps with the same
bindings are equal whatever their histories, because the sorted list is unique.
-/

namespace ScriptHost

/-- A finite map from names, as its bindings in ascending order of the names. -/
@[ext]
structure NameMap (α : Type) where
  entries : List (String × α)
  sorted : entries.Pairwise (fun a b => a.1 < b.1)

namespace NameMap

variable {α : Type}

instance : EmptyCollection (NameMap α) :=
  ⟨⟨[], .nil⟩⟩

instance : Inhabited (NameMap α) :=
  ⟨∅⟩

/-- The names bound by the map, in ascending order. -/
def keys (m : NameMap α) : List String :=
  m.entries.map Prod.fst

/-- The values of the map, in the order of their names. -/
def values (m : NameMap α) : List α :=
  m.entries.map Prod.snd

def size (m : NameMap α) : Nat :=
  m.entries.length

def isEmpty (m : NameMap α) : Bool :=
  m.entries.isEmpty

def get? (m : NameMap α) (name : String) : Option α :=
  m.entries.lookup name

def contains (m : NameMap α) (name : String) : Bool :=
  (m.get? name).isSome

/-- Puts a binding into a sorted list, in place of one with the same name. -/
def insertEntry (name : String) (value : α) : List (String × α) → List (String × α)
  | [] => [(name, value)]
  | entry :: rest =>
    if name < entry.1 then (name, value) :: entry :: rest
    else if name = entry.1 then (name, value) :: rest
    else entry :: insertEntry name value rest

theorem mem_insertEntry {name : String} {value : α} {entries : List (String × α)}
    {entry : String × α} (h : entry ∈ insertEntry name value entries) :
    entry = (name, value) ∨ entry ∈ entries := by
  induction entries with
  | nil => exact .inl (by simpa [insertEntry] using h)
  | cons head rest ih =>
    unfold insertEntry at h
    split at h
    · simpa using h
    · split at h
      · rcases List.mem_cons.1 h with rfl | h
        · exact .inl rfl
        · exact .inr (List.mem_cons_of_mem _ h)
      · rcases List.mem_cons.1 h with rfl | h
        · exact .inr List.mem_cons_self
        · exact (ih h).imp id (List.mem_cons_of_mem _)

theorem sorted_insertEntry {name : String} {value : α} {entries : List (String × α)}
    (h : entries.Pairwise (fun a b => a.1 < b.1)) :
    (insertEntry name value entries).Pairwise (fun a b => a.1 < b.1) := by
  induction entries with
  | nil => simp [insertEntry]
  | cons head rest ih =>
    obtain ⟨above, tail⟩ := List.pairwise_cons.1 h
    unfold insertEntry
    split
    next before =>
      refine List.pairwise_cons.2 ⟨?_, h⟩
      intro entry mem
      rcases List.mem_cons.1 mem with rfl | mem
      · exact before
      · exact String.lt_trans before (above entry mem)
    next notBefore =>
      split
      next same =>
        exact List.pairwise_cons.2 ⟨fun entry mem => same ▸ above entry mem, tail⟩
      next different =>
        have after : head.1 < name := by
          rcases Decidable.em (head.1 < name) with after | notAfter
          · exact after
          · exact absurd (String.le_antisymm (String.not_lt.1 notAfter) (String.not_lt.1 notBefore))
              different
        refine List.pairwise_cons.2 ⟨?_, ih tail⟩
        intro entry mem
        rcases mem_insertEntry mem with rfl | mem
        · exact after
        · exact above entry mem

/-- Binds a name to a value, in place of the value it was bound to. -/
def insert (m : NameMap α) (name : String) (value : α) : NameMap α :=
  ⟨insertEntry name value m.entries, sorted_insertEntry m.sorted⟩

def erase (m : NameMap α) (name : String) : NameMap α :=
  ⟨m.entries.filter (fun entry => entry.1 ≠ name), m.sorted.filter _⟩

/-- The map of a list of bindings, of which a later one wins over an earlier one of the same name.
-/
def ofList (bindings : List (String × α)) : NameMap α :=
  bindings.foldl (fun m binding => m.insert binding.1 binding.2) ∅

/-! ### Look-up -/

theorem lookup_cons (name : String) (entry : String × α) (rest : List (String × α)) :
    (entry :: rest).lookup name = if entry.1 = name then some entry.2 else rest.lookup name := by
  rw [List.lookup_cons]
  by_cases same : name = entry.1
  · simp [same]
  · rw [beq_eq_false_iff_ne.2 same, if_neg fun h => same h.symm]

theorem lookup_insertEntry (name other : String) (value : α) (entries : List (String × α)) :
    (insertEntry name value entries).lookup other =
      if name = other then some value else entries.lookup other := by
  induction entries with
  | nil => rw [insertEntry, lookup_cons]
  | cons head rest ih =>
    unfold insertEntry
    split
    · rw [lookup_cons]
    · split
      next same =>
        subst same
        simp only [lookup_cons]
        split <;> rfl
      next different =>
        rw [lookup_cons, lookup_cons, ih]
        by_cases here : head.1 = other
        · have : name ≠ other := fun h => different (h.trans here.symm)
          simp [here, this]
        · simp [here]

theorem lookup_filter_ne (name other : String) (entries : List (String × α)) :
    (entries.filter (fun entry => entry.1 ≠ name)).lookup other =
      if name = other then none else entries.lookup other := by
  induction entries with
  | nil => simp
  | cons head rest ih =>
    by_cases here : head.1 = name
    · rw [List.filter_cons_of_neg (by simpa using here), ih, lookup_cons, here]
      split <;> rfl
    · rw [List.filter_cons_of_pos (by simpa using here), lookup_cons, lookup_cons, ih]
      by_cases found : head.1 = other
      · have : name ≠ other := fun h => here (found.trans h.symm)
        simp [found, this]
      · simp [found]

@[simp]
theorem get?_empty (name : String) : (∅ : NameMap α).get? name = none :=
  rfl

theorem get?_insert (m : NameMap α) (name other : String) (value : α) :
    (m.insert name value).get? other = if name = other then some value else m.get? other :=
  lookup_insertEntry name other value m.entries

theorem get?_erase (m : NameMap α) (name other : String) :
    (m.erase name).get? other = if name = other then none else m.get? other :=
  lookup_filter_ne name other m.entries

theorem sorted_keys (m : NameMap α) : m.keys.Pairwise (· < ·) :=
  List.pairwise_map.2 m.sorted

theorem lookup_eq_none_of_above {name : String} {entries : List (String × α)}
    (h : ∀ entry ∈ entries, name < entry.1) : entries.lookup name = none := by
  induction entries with
  | nil => rfl
  | cons head rest ih =>
    have above := h head List.mem_cons_self
    have : ¬head.1 = name := fun same => String.lt_irrefl name (same ▸ above)
    rw [lookup_cons, if_neg this, ih fun entry mem => h entry (List.mem_cons_of_mem _ mem)]

theorem mem_keys_iff {m : NameMap α} {name : String} : name ∈ m.keys ↔ m.contains name := by
  unfold keys contains get?
  induction m.entries with
  | nil => simp
  | cons head rest ih =>
    rw [List.map_cons, List.mem_cons, lookup_cons, ih]
    by_cases here : head.1 = name
    · simp [here]
    · have : ¬name = head.1 := fun h => here h.symm
      simp [here, this]

theorem entries_eq_of_lookup_eq {a b : List (String × α)}
    (sorted_a : a.Pairwise (fun x y => x.1 < y.1)) (sorted_b : b.Pairwise (fun x y => x.1 < y.1))
    (same : ∀ name, a.lookup name = b.lookup name) : a = b := by
  induction a generalizing b with
  | nil =>
    cases b with
    | nil => rfl
    | cons head rest => exact absurd (same head.1) (by simp [lookup_cons])
  | cons x xs ih =>
    cases b with
    | nil => exact absurd (same x.1) (by simp [lookup_cons])
    | cons y ys =>
      obtain ⟨above_x, sorted_xs⟩ := List.pairwise_cons.1 sorted_a
      obtain ⟨above_y, sorted_ys⟩ := List.pairwise_cons.1 sorted_b
      have absent {n : String} {l : List (String × α)} {e : String × α}
          (above : ∀ entry ∈ l, e.1 < entry.1) (before : n < e.1) :
          (e :: l).lookup n = none :=
        lookup_eq_none_of_above fun entry mem => by
          rcases List.mem_cons.1 mem with rfl | mem
          · exact before
          · exact String.lt_trans before (above entry mem)
      have names : x.1 = y.1 := by
        refine String.le_antisymm (String.not_lt.1 fun before => ?_)
          (String.not_lt.1 fun before => ?_)
        · have := same y.1
          rw [absent above_x before, lookup_cons, if_pos rfl] at this
          exact absurd this (by simp)
        · have := same x.1
          rw [absent above_y before, lookup_cons, if_pos rfl] at this
          exact absurd this (by simp)
      have values : x.2 = y.2 := by
        have := same x.1
        rw [lookup_cons, lookup_cons, if_pos rfl, if_pos names.symm] at this
        exact Option.some.inj this
      have tails : xs = ys := ih sorted_xs sorted_ys fun name => by
        by_cases here : x.1 = name
        · subst here
          rw [lookup_eq_none_of_above above_x, lookup_eq_none_of_above (names ▸ above_y)]
        · have := same name
          rw [lookup_cons, lookup_cons, if_neg here, if_neg (names ▸ here)] at this
          exact this
      rw [tails, show x = y from Prod.ext names values]

/-- A map is determined by what it binds. -/
theorem eq_of_get?_eq {m n : NameMap α} (same : ∀ name, m.get? name = n.get? name) : m = n :=
  NameMap.ext (entries_eq_of_lookup_eq m.sorted n.sorted same)

end NameMap

end ScriptHost
