import Mathlib
import ScriptHost.Proofs.Value.Bisimulation
import ScriptHost.Proofs.Value.Reachability

/-!
How far equality of values is an equivalence. It is symmetric. It is transitive through every value
that holds no floats anywhere: a float in the middle can be equal to integers that differ. It is
reflexive but for a NaN that stands in tuples only, because a container is equal to itself without a
look at its contents.

All of this is shown for the rules of equality and carried to comparisons by closed relations, so
nothing has to be said about the order in which two comparisons meet their assumptions. That `==` of
floats is symmetric and transitive is an instance that Mathlib only brings along as a whole.
-/

namespace ScriptHost

theorem forall₂_comp {α β γ : Type} {R : α → β → Prop} {S : β → γ → Prop} {T : α → γ → Prop}
    {xs : List α} {ys : List β} {zs : List γ} (first : List.Forall₂ R xs ys)
    (second : List.Forall₂ S ys zs) (through : ∀ y ∈ ys, ∀ x z, R x y → S y z → T x z) :
    List.Forall₂ T xs zs := by
  induction first generalizing zs with
  | nil =>
    cases second with
    | nil => exact .nil
  | cons holds _ ih =>
    cases second with
    | cons continues rest =>
      exact .cons (through _ List.mem_cons_self _ _ holds continues)
        (ih rest fun y member => through y (List.mem_cons_of_mem _ member))

namespace Store

variable {s : Store} {R T U : Value → Value → Prop} {a b c v : Value}

/-! ### Symmetry -/

theorem Alike.flip (alike : s.Alike R a b) : s.Alike (fun x y => R y x) b a := by
  cases alike with
  | string text => exact .string text
  | integer n => exact .integer n
  | byte b => exact .byte b
  | longpointer address => exact .longpointer address
  | float same => exact .float (BEq.symm same)
  | integerFloat same => exact .floatInteger same
  | floatInteger same => exact .integerFloat same
  | void => exact .void
  | filehandle h => exact .filehandle h
  | tuple first second => exact .tuple first second
  | array contents => exact .array (contents.imp Eq.symm fun items => items.flip)
  | struct contents => exact .struct (contents.imp Eq.symm NameMap.Related.flip)

theorem equal_symm (equal : s.equal a b) : s.equal b a :=
  equal_of_closed (R := fun x y => s.equal y x) (fun x y same => (s.closed_equal y x same).flip)
    equal

/-- The order of the operands does not matter to a comparison. -/
theorem equal_comm (s : Store) (a b : Value) : s.equal a b = s.equal b a :=
  Bool.eq_iff_iff.2 ⟨equal_symm, equal_symm⟩

/-! ### Transitivity -/

/-- No float can be reached from the value. -/
def FloatFree (s : Store) (v : Value) : Prop :=
  ∀ x, ¬s.Reaches (fun _ => true) v (.float x)

theorem FloatFree.child (free : s.FloatFree v) (child : s.Child (fun _ => true) v a) :
    s.FloatFree a :=
  fun x reached => free x (.head child reached)

theorem ContentsAlike.comp {c d e : Container} (first : s.ContentsAlike R c d)
    (second : s.ContentsAlike T d e)
    (through : ∀ y, s.Child (fun _ => true) d.value y → ∀ x z, R x y → T y z → U x z) :
    s.ContentsAlike U c e := by
  cases d with
  | array d =>
    cases c with
    | struct _ => exact first.elim
    | array c =>
      cases e with
      | struct _ => exact second.elim
      | array e => exact forall₂_comp first second fun y member => through y (.item rfl member)
  | struct d =>
    cases c with
    | array _ => exact first.elim
    | struct c =>
      cases e with
      | array _ => exact second.elim
      | struct e =>
        exact NameMap.Related.comp first second fun name y bound => through y (.field rfl bound)

/-- Equality, or equality by way of a value without floats. A step down from two containers of which
one is the same as the container in the middle leads to a pair that is simply equal. -/
def EqualThrough (s : Store) (a c : Value) : Prop :=
  s.equal a c ∨ ∃ b, s.FloatFree b ∧ s.equal a b ∧ s.equal b c

theorem Alike.equalThrough (alike : s.Alike (fun x y => s.equal x y) a c) :
    s.Alike s.EqualThrough a c :=
  alike.mono fun _ _ => .inl

theorem alike_equalThrough_of_containers {c d e : Container} (free : s.FloatFree d.value)
    (first : s.Alike (fun x y => s.equal x y) c.value d.value)
    (second : s.Alike (fun x y => s.equal x y) d.value e.value) :
    s.Alike s.EqualThrough c.value e.value := by
  rcases alike_container.1 first with rfl | left
  · exact second.equalThrough
  rcases alike_container.1 second with rfl | right
  · exact first.equalThrough
  refine alike_container.2 (.inr (left.comp right ?_))
  intro y child x z inFront behind
  exact .inr ⟨y, free.child child, inFront, behind⟩

theorem closed_equalThrough (s : Store) : s.Closed s.EqualThrough := by
  intro a c related
  rcases related with equal | ⟨b, free, front, back⟩
  · exact (s.closed_equal a c equal).equalThrough
  have first := s.closed_equal a b front
  have second := s.closed_equal b c back
  cases first with
  | string text =>
    cases second with
    | string text => exact .string text
  | integer n =>
    cases second with
    | integer n => exact .integer n
    | integerFloat same => exact .integerFloat same
  | byte b =>
    cases second with
    | byte b => exact .byte b
  | longpointer address =>
    cases second with
    | longpointer address => exact .longpointer address
  | float | integerFloat => exact absurd .refl (free _)
  | floatInteger same =>
    cases second with
    | integer n => exact .floatInteger same
    | integerFloat other => exact .float (BEq.trans (BEq.symm same) other)
  | void =>
    cases second with
    | void => exact .void
  | filehandle h =>
    cases second with
    | filehandle h => exact .filehandle h
  | tuple first second' =>
    cases second with
    | tuple third fourth =>
      exact .tuple (.inr ⟨_, free.child .first, first, third⟩)
        (.inr ⟨_, free.child .second, second', fourth⟩)
  | @array a b contents =>
    cases second with
    | @array b c others =>
      exact alike_equalThrough_of_containers (c := .array a) (d := .array b) (e := .array c) free
        (.array contents) (.array others)
  | @struct a b contents =>
    cases second with
    | @struct b c others =>
      exact alike_equalThrough_of_containers (c := .struct a) (d := .struct b) (e := .struct c) free
        (.struct contents) (.struct others)

theorem equal_trans (free : s.FloatFree b) (front : s.equal a b) (back : s.equal b c) :
    s.equal a c :=
  equal_of_closed s.closed_equalThrough (.inr ⟨b, free, front, back⟩)

/-! ### Reflexivity -/

/-- The value is no NaN and holds none in the tuples it is made of. -/
def NaNFree (s : Store) (v : Value) : Prop :=
  ∀ x, s.Reaches (fun _ => false) v (.float x) → x == x

theorem equal_container_self (s : Store) (c : Container) : s.equal c.value c.value := by
  cases c <;> exact containersEqual_of_mem (.inl rfl)

theorem equal_tuple {p q : Stamp} {a₁ a₂ b₁ b₂ : Value} :
    s.equal (.tuple p a₁ a₂) (.tuple q b₁ b₂) ↔ s.equal a₁ b₁ ∧ s.equal a₂ b₂ := by
  rw [equal, Value.equalWith, Bool.and_eq_true]
  rfl

theorem NaNFree.of_equal_self (equal : s.equal v v) : s.NaNFree v := by
  intro x reached
  -- Every step down is one into a tuple, and the components of a tuple equal to itself are so too.
  have part : ∀ w, s.Reaches (fun _ => false) v w → s.equal w w := by
    intro w reached
    induction reached with
    | refl => exact equal
    | tail _ child ih =>
      cases child with
      | first => exact (equal_tuple.1 ih).1
      | second => exact (equal_tuple.1 ih).2
      | item opened => cases opened
      | field opened => cases opened
  exact part (.float x) reached

theorem NaNFree.equal_self (free : s.NaNFree v) : s.equal v v := by
  induction v with
  | tuple p a b first second =>
    have inFirst : s.NaNFree a := fun x reached => free x (.head .first reached)
    have inSecond : s.NaNFree b := fun x reached => free x (.head .second reached)
    exact equal_tuple.2 ⟨first inFirst, second inSecond⟩
  | float x => exact free x .refl
  | array ref => exact s.equal_container_self (.array ref)
  | struct ref => exact s.equal_container_self (.struct ref)
  | _ => simp [equal, Value.equalWith]

theorem equal_self_iff : s.equal v v ↔ s.NaNFree v :=
  ⟨.of_equal_self, NaNFree.equal_self⟩

theorem FloatFree.nanFree (free : s.FloatFree v) : s.NaNFree v :=
  fun x reached => absurd (reached.mono fun _ _ => rfl) (free x)

/-- Equality is transitive through values without floats, and reflexive for exactly the values that
show no NaN, among them all containers. Between values without floats it is an equivalence. -/
theorem equal_trans_and_self_iff (s : Store) :
    (∀ a b c, s.FloatFree b → s.equal a b → s.equal b c → s.equal a c) ∧
      (∀ v, s.equal v v ↔ ∀ x, s.Reaches (fun _ => false) v (.float x) → x == x) ∧
      (∀ c : Container, s.equal c.value c.value) ∧
      Equivalence fun a b : {v // s.FloatFree v} => s.equal a b = true := by
  refine ⟨fun a b c => equal_trans, fun v => equal_self_iff, s.equal_container_self, ?_⟩
  constructor
  · intro v
    exact v.2.nanFree.equal_self
  · intro a b
    exact equal_symm
  · intro a b c
    exact equal_trans b.2

/-- Rings of one, two and three arrays, each of which holds the next. -/
def rings : Store where
  arrays := #[[.array ⟨0⟩], [.array ⟨2⟩], [.array ⟨1⟩], [.array ⟨4⟩], [.array ⟨5⟩], [.array ⟨3⟩]]

theorem floatFree_rings : rings.FloatFree (.array ⟨1⟩) := by
  have inRing : ∀ v, rings.Reaches (fun _ => true) (.array ⟨1⟩) v →
      v = .array ⟨1⟩ ∨ v = .array ⟨2⟩ := by
    intro v reached
    induction reached with
    | refl => exact .inl rfl
    | tail _ child ih =>
      rcases ih with rfl | rfl
      · cases child with
        | item _ member => exact .inr (by simpa [rings, items] using member)
      · cases child with
        | item _ member => exact .inl (by simpa [rings, items] using member)
  intro x reached
  simpa using inRing _ reached

theorem equal_rings : rings.equal (.array ⟨0⟩) (.array ⟨3⟩) := by
  have first : rings.equal (.array ⟨0⟩) (.array ⟨1⟩) := by cbv
  have second : rings.equal (.array ⟨1⟩) (.array ⟨3⟩) := by cbv
  exact rings.equal_trans_and_self_iff.1 _ _ _ floatFree_rings first second

end Store

end ScriptHost
