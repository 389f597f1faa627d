import ScriptHost.Store

/-!
Arrays and structs under one name, for traversals of the store that meet both and must not run in
circles: a traversal remembers the containers it has entered, and can enter only finitely many.
-/

namespace ScriptHost

/-- An array or a struct of the store. -/
inductive Container
  | array (ref : ArrayRef)
  | struct (ref : StructRef)
deriving DecidableEq

def Container.isArray : Container → Bool
  | array _ => true
  | struct _ => false

namespace Store

/-- All containers of the store. -/
def containers (s : Store) : List Container :=
  (List.range s.arrays.size).map (fun i => .array ⟨i⟩) ++
    (List.range s.structs.size).map (fun i => .struct ⟨i⟩)

/-- Whether a container is one of the store. -/
def Holds (s : Store) : Container → Prop
  | .array ref => ref.index < s.arrays.size
  | .struct ref => ref.index < s.structs.size

instance (s : Store) (c : Container) : Decidable (s.Holds c) :=
  match c with
  | .array ref => inferInstanceAs (Decidable (ref.index < s.arrays.size))
  | .struct ref => inferInstanceAs (Decidable (ref.index < s.structs.size))

@[simp]
theorem mem_containers {s : Store} {c : Container} : c ∈ s.containers ↔ s.Holds c := by
  rcases c with ⟨⟨i⟩⟩ | ⟨⟨i⟩⟩ <;> simp [containers, Holds]

theorem items_eq_nil {s : Store} {ref : ArrayRef} (h : ¬s.Holds (.array ref)) :
    s.items ref = [] := by
  simp [items, Array.getElem?_eq_none (Nat.le_of_not_lt h)]

theorem fields_eq_empty {s : Store} {ref : StructRef} (h : ¬s.Holds (.struct ref)) :
    s.fields ref = ∅ := by
  simp [fields, Array.getElem?_eq_none (Nat.le_of_not_lt h)]

end Store

section Remaining

variable {α : Type}

/-- How many members of a list have not been seen. -/
def remaining (all : List α) (seen : α → Bool) : Nat :=
  all.countP (fun x => !seen x)

theorem remaining_le {all : List α} {seen later : α → Bool} (grows : ∀ x, seen x → later x) :
    remaining all later ≤ remaining all seen := by
  apply List.countP_mono_left
  intro x _ unseen
  rw [Bool.not_eq_true'] at unseen ⊢
  exact Bool.eq_false_iff.2 fun before => Bool.eq_false_iff.1 unseen (grows x before)

theorem remaining_lt {all : List α} {seen later : α → Bool} {x : α}
    (grows : ∀ y, seen y → later y) (member : x ∈ all) (unseen : ¬seen x) (marked : later x) :
    remaining all later < remaining all seen := by
  obtain ⟨front, back, rfl⟩ := List.append_of_mem member
  have inFront : remaining front later ≤ remaining front seen := remaining_le grows
  have inBack : remaining back later ≤ remaining back seen := remaining_le grows
  unfold remaining at inFront inBack ⊢
  simp only [List.countP_append, List.countP_cons, unseen, marked]
  simp
  omega

end Remaining

end ScriptHost
