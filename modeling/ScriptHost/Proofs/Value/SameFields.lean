import ScriptHost.Proofs.Value.Acyclic
import ScriptHost.Proofs.Value.Isomorphism

/-!
Structs with the same fields. Whatever order a struct keeps its fields in, their names come out
sorted, and structs with the same values in the same fields have the same names, are equal as far as
these values are equal to themselves, and look the same unless they lead to cycles.
-/

namespace ScriptHost

namespace Store

variable {s : Store} {listing : StructRef → List (String × Value)}

/-! ### Names -/

/-- The names of the fields, sorted from the order in which they are listed. -/
def namesIn (listing : StructRef → List (String × Value)) (ref : StructRef) : List String :=
  ((listing ref).map Prod.fst).mergeSort (fun a b => a ≤ b)

/-- The fields, walked by their sorted names. -/
def fieldsIn (s : Store) (listing : StructRef → List (String × Value)) (ref : StructRef) :
    List (String × Value) :=
  (namesIn listing ref).filterMap fun name => ((s.fields ref).get? name).map (name, ·)

theorem namesIn_eq (lists : s.Lists listing) (ref : StructRef) :
    namesIn listing ref = (s.fields ref).keys := by
  have perm : (namesIn listing ref).Perm (s.fields ref).keys :=
    (List.mergeSort_perm _ _).trans ((lists ref).map Prod.fst)
  have sorted : (namesIn listing ref).Pairwise (· ≤ ·) := by
    have merged : (namesIn listing ref).Pairwise fun a b => decide (a ≤ b) = true := by
      refine List.pairwise_mergeSort (fun a b c first second => ?_) (fun a b => ?_) _
      · rw [decide_eq_true_iff] at first second ⊢
        exact String.le_trans first second
      · rw [Bool.or_eq_true, decide_eq_true_iff, decide_eq_true_iff]
        exact String.le_total a b
    exact merged.imp of_decide_eq_true
  have ascending : (s.fields ref).keys.Pairwise (· ≤ ·) :=
    (s.fields ref).sorted_keys.imp fun less => String.not_lt.1 fun back =>
      String.lt_irrefl _ (String.lt_trans less back)
  exact perm.eq_of_pairwise (fun _ _ _ _ first second => String.le_antisymm first second) sorted
    ascending

theorem fieldsIn_eq (lists : s.Lists listing) (ref : StructRef) :
    s.fieldsIn listing ref = (s.fields ref).entries := by
  rw [fieldsIn, namesIn_eq lists, NameMap.keys, List.filterMap_map]
  refine (List.filterMap_congr fun field member => ?_).trans List.filterMap_some
  rw [Function.comp_apply, NameMap.mem_entries_iff.1 member]
  rfl

end Store

namespace Renaming

variable {s : Store} {opens : Container → Bool} {a b x y : Value} {c : Container}

theorem Becomes.outline_eq (becomes : Renaming.id.Becomes a x) : s.outline a = s.outline x :=
  (Store.Keeps.refl s).carries.matching.outline_eq
    ⟨s.subset_reached Set.univ (Set.mem_univ a), becomes⟩

theorem Becomes.equal_eq (first : Renaming.id.Becomes a x) (second : Renaming.id.Becomes b y) :
    s.equal a b = s.equal x y :=
  (Store.Keeps.refl s).carries.matching.equal_eq
    ⟨s.subset_reached Set.univ (Set.mem_univ a), first⟩
    ⟨s.subset_reached Set.univ (Set.mem_univ b), second⟩

/-- Strings and tuples that are allocated anew lead to the same containers. -/
theorem Becomes.reaches (becomes : Renaming.id.Becomes a x) (reached : s.Reaches opens x c.value) :
    s.Reaches opens a c.value := by
  induction becomes with
  | array ref => exact reached
  | struct ref => exact reached
  | tuple _ _ first second =>
    rcases Relation.ReflTransGen.cases_head reached with same | ⟨y, child, reached⟩
    · cases c <;> cases same
    · cases child with
      | first => exact .head .first (first reached)
      | second => exact .head .second (second reached)
  | _ =>
    rcases Relation.ReflTransGen.cases_head reached with same | ⟨y, child, reached⟩
    · cases c <;> cases same
    · cases child

theorem Becomes.acyclic (becomes : Renaming.id.Becomes a x) (acyclic : s.Acyclic opens a) :
    s.Acyclic opens x :=
  fun c reached => acyclic c (becomes.reaches reached)

end Renaming

namespace Store

variable {s : Store} {ref other : StructRef}

section Same

variable (same : NameMap.Related Renaming.id.Becomes (s.fields ref) (s.fields other))
include same

theorem outline_eq_of_same_fields (acyclic : s.Acyclic (fun _ => true) (.struct ref)) :
    s.outline (.struct ref) = s.outline (.struct other) := by
  -- A cycle through the other struct would go through a value that the first one has too.
  have back : s.Acyclic (fun _ => true) (.struct other) := by
    refine acyclic_of_children fun y child => ?_
    cases child with
    | @field _ name _ _ bound =>
      obtain ⟨x, found, becomes⟩ := same.exists_left bound
      exact becomes.acyclic (acyclic.child (.field rfl found))
  rw [outline_struct acyclic, outline_struct back]
  exact congrArg Outline.struct (same.map_entries_eq fun _ _ _ _ _ becomes => becomes.outline_eq)

theorem equal_of_same_fields
    (reflexive : ∀ name v, (s.fields ref).get? name = some v → s.equal v v) :
    s.equal (.struct ref) (.struct other) := by
  -- The pair of structs is closed together with all equal pairs, also if a struct is inside itself.
  have closed : s.Closed fun a b => s.equal a b ∨ a = .struct ref ∧ b = .struct other := by
    rintro a b (equal | ⟨rfl, rfl⟩)
    · exact (s.closed_equal a b equal).mono fun _ _ => .inl
    · refine .struct (.inr (NameMap.related_def.2 ⟨(NameMap.related_def.1 same).1, ?_⟩))
      intro name v w left right
      have becomes := (NameMap.related_def.1 same).2 name v w left right
      exact .inl ((Renaming.becomes_id v).equal_eq becomes ▸ reflexive name v left)
  exact equal_of_closed closed (.inr ⟨rfl, rfl⟩)

end Same

end Store

end ScriptHost
