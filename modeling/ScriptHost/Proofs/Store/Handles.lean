import Mathlib.Data.Set.Insert
import ScriptHost.Store

/-!
The handles of a store over time. A handle that the store holds stays there with its path, and once
it is closed it stays closed. What a step does to handles is told by the set of those that it
closes, so that a run closes just what its steps close.
-/

namespace ScriptHost.Store

variable {s t u : Store} {ref other : HandleRef} {closed more : Set HandleRef}

def HoldsHandle (s : Store) (ref : HandleRef) : Prop :=
  ref.index < s.handles.size

theorem handle_of_not_holdsHandle (outside : ¬s.HoldsHandle ref) : s.handle ref = default := by
  rw [handle, Array.getElem?_eq_none (Nat.le_of_not_lt outside)]
  rfl

theorem holdsHandle_of_isOpen (isOpen : (s.handle ref).isOpen) : s.HoldsHandle ref := by
  by_contra outside
  rw [handle_of_not_holdsHandle outside] at isOpen
  cases isOpen

/-! ### New handles -/

theorem handle_congr (same : t.handles = s.handles) : t.handle ref = s.handle ref := by
  rw [handle, same, handle]

theorem not_holdsHandle_newHandle (handle : Handle) :
    ¬s.HoldsHandle (s.newHandle handle).1 :=
  Nat.lt_irrefl _

theorem HoldsHandle.newHandle (held : s.HoldsHandle ref) (handle : Handle) :
    (s.newHandle handle).2.HoldsHandle ref := by
  rw [HoldsHandle, Store.newHandle, Array.size_push]
  exact Nat.lt_succ_of_lt held

/-! ### Streams put into a handle -/

theorem holdsHandle_setStream (stream : Option Stream) :
    (s.setStream ref stream).HoldsHandle other ↔ s.HoldsHandle other := by
  rw [HoldsHandle, setStream, Array.size_modify, HoldsHandle]

theorem setStream_eq_self {stream : Option Stream}
    (agrees : s.HoldsHandle ref → (s.handle ref).stream = stream) : s.setStream ref stream = s := by
  have same : s.handles.modify ref.index ({ · with stream }) = s.handles := by
    refine Array.ext (Array.size_modify ..) fun i _ inside => ?_
    rw [Array.getElem_modify]
    split
    next met =>
      subst met
      have here : s.handle ref = s.handles[ref.index] := by
        rw [handle, Array.getElem?_eq_getElem inside, Option.getD_some]
      have stays : s.handles[ref.index].stream = stream := here ▸ agrees inside
      exact congrArg (Handle.mk s.handles[ref.index].path) stays.symm
    next => rfl
  rw [setStream, same]

theorem setStream_of_not_holdsHandle (outside : ¬s.HoldsHandle ref) (stream : Option Stream) :
    s.setStream ref stream = s :=
  setStream_eq_self fun held => absurd held outside

/-- Closing a handle that is closed already does nothing. -/
theorem setStream_none_of_closed (closed : ¬(s.handle ref).isOpen) : s.setStream ref none = s :=
  setStream_eq_self fun _ => Option.not_isSome_iff_eq_none.1 closed

theorem handle_setStream_of_ne (differ : ref ≠ other) (stream : Option Stream) :
    (s.setStream ref stream).handle other = s.handle other := by
  by_cases held : s.HoldsHandle ref
  · rw [handle_setStream held, if_neg differ]
  · rw [setStream_of_not_holdsHandle held]

theorem path_setStream (stream : Option Stream) :
    ((s.setStream ref stream).handle other).path = (s.handle other).path := by
  by_cases held : s.HoldsHandle ref
  · rw [handle_setStream held]
    split <;> rfl
  · rw [setStream_of_not_holdsHandle held]

theorem isOpen_setStream_self (held : s.HoldsHandle ref) (stream : Option Stream) :
    ((s.setStream ref stream).handle ref).isOpen = stream.isSome := by
  rw [handle_setStream held, if_pos rfl, Handle.isOpen]

/-! ### Steps -/

/-- The second store comes after the first, and of the handles that the first one holds just the
given ones were closed on the way. -/
structure Continues (closed : Set HandleRef) (s t : Store) : Prop where
  held : ∀ ref, s.HoldsHandle ref → t.HoldsHandle ref
  path_eq : ∀ ref, s.HoldsHandle ref → (t.handle ref).path = (s.handle ref).path
  isOpen_iff : ∀ ref, s.HoldsHandle ref →
    ((t.handle ref).isOpen ↔ (s.handle ref).isOpen ∧ ref ∉ closed)

namespace Continues

theorem of_handle_eq (kept : ∀ ref, s.HoldsHandle ref → t.HoldsHandle ref)
    (same : ∀ ref, s.HoldsHandle ref → t.handle ref = s.handle ref) : s.Continues ∅ t where
  held := kept
  path_eq ref held := congrArg Handle.path (same ref held)
  isOpen_iff ref held := by
    rw [same ref held]
    exact (and_iff_left (Set.notMem_empty ref)).symm

theorem refl (s : Store) : s.Continues ∅ s :=
  .of_handle_eq (fun _ held => held) fun _ _ => rfl

theorem trans (first : s.Continues closed t) (second : t.Continues more u) :
    s.Continues (closed ∪ more) u where
  held ref held := second.held ref (first.held ref held)
  path_eq ref held := (second.path_eq ref (first.held ref held)).trans (first.path_eq ref held)
  isOpen_iff ref held := by
    rw [second.isOpen_iff ref (first.held ref held), first.isOpen_iff ref held, Set.mem_union,
      not_or, and_assoc]

theorem of_handles_eq (same : t.handles = s.handles) : s.Continues ∅ t :=
  .of_handle_eq (fun _ held => by rwa [HoldsHandle, same]) fun _ _ => handle_congr same

theorem newHandle (s : Store) (handle : Handle) : s.Continues ∅ (s.newHandle handle).2 := by
  refine .of_handle_eq (fun _ held => held.newHandle handle) fun ref held => ?_
  rw [handle_newHandle, if_neg]
  exact fun met => not_holdsHandle_newHandle handle (met ▸ held)

/-- A stream that takes the place of another one leaves the handle open. -/
theorem setStream_some (isOpen : (s.handle ref).isOpen) (stream : Stream) :
    s.Continues ∅ (s.setStream ref (some stream)) where
  held _ held := (holdsHandle_setStream _).2 held
  path_eq _ _ := path_setStream _
  isOpen_iff other _ := by
    refine Iff.trans ?_ (and_iff_left (Set.notMem_empty other)).symm
    by_cases same : ref = other
    · subst same
      rw [isOpen_setStream_self (holdsHandle_of_isOpen isOpen)]
      exact iff_of_true rfl isOpen
    · rw [handle_setStream_of_ne same]

theorem setStream_none (s : Store) (ref : HandleRef) :
    s.Continues {ref} (s.setStream ref none) where
  held _ held := (holdsHandle_setStream _).2 held
  path_eq _ _ := path_setStream _
  isOpen_iff other held := by
    rw [Set.mem_singleton_iff]
    by_cases same : ref = other
    · subst same
      rw [isOpen_setStream_self held]
      exact iff_of_false Bool.false_ne_true fun both => both.2 rfl
    · rw [handle_setStream_of_ne same, and_iff_left (Ne.symm same)]

theorem isOpen (continues : s.Continues ∅ t) (isOpen : (s.handle ref).isOpen) :
    (t.handle ref).isOpen :=
  (continues.isOpen_iff ref (holdsHandle_of_isOpen isOpen)).2 ⟨isOpen, Set.notMem_empty ref⟩

end Continues

end ScriptHost.Store
