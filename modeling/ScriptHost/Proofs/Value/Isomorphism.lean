import ScriptHost.Proofs.Store.Handles
import ScriptHost.Proofs.Value.FieldOrder
import ScriptHost.Proofs.Value.Matching

/-!
Equality and texts depend only on what values lead to. If the objects that some values lead to are
those that other values of another store lead to, up to a renaming of references, then comparisons
and texts are the same on both sides. So it does not matter where objects are, in which order they
were made, how a struct orders its fields, or what else the store holds.
-/

namespace ScriptHost

/-- For the references of one store, the references of another that stand for them. -/
structure Renaming where
  arrays : ArrayRef → ArrayRef
  structs : StructRef → StructRef
  handles : HandleRef → HandleRef

namespace Renaming

def container (ρ : Renaming) : Container → Container
  | .array ref => .array (ρ.arrays ref)
  | .struct ref => .struct (ρ.structs ref)

/-- What a value becomes under a renaming. Strings and tuples may be allocated anew. -/
inductive Becomes (ρ : Renaming) : Value → Value → Prop
  | string {p q : Stamp} (text : String) : Becomes ρ (.string p text) (.string q text)
  | float (x : Float) : Becomes ρ (.float x) (.float x)
  | integer (n : Integer) : Becomes ρ (.integer n) (.integer n)
  | byte (b : UInt8) : Becomes ρ (.byte b) (.byte b)
  | longpointer (address : UInt64) : Becomes ρ (.longpointer address) (.longpointer address)
  | void : Becomes ρ .void .void
  | filehandle (ref : HandleRef) : Becomes ρ (.filehandle ref) (.filehandle (ρ.handles ref))
  | tuple {p q : Stamp} {a₁ a₂ b₁ b₂ : Value} (first : Becomes ρ a₁ b₁)
      (second : Becomes ρ a₂ b₂) : Becomes ρ (.tuple p a₁ a₂) (.tuple q b₁ b₂)
  | array (ref : ArrayRef) : Becomes ρ (.array ref) (.array (ρ.arrays ref))
  | struct (ref : StructRef) : Becomes ρ (.struct ref) (.struct (ρ.structs ref))

theorem Becomes.container_eq {ρ : Renaming} {c d : Container}
    (becomes : ρ.Becomes c.value d.value) : d = ρ.container c := by
  cases c with
  | array ref =>
    cases d with
    | array _ => cases becomes; rfl
    | struct _ => cases becomes
  | struct ref =>
    cases d with
    | array _ => cases becomes
    | struct _ => cases becomes; rfl

end Renaming

namespace Store

variable {s : Store} {roots : Set Value} {v w : Value}

/-- Everything that some values lead to, the values themselves included. -/
def reached (s : Store) (roots : Set Value) : Set Value :=
  { w | ∃ v ∈ roots, s.Reaches (fun _ => true) v w }

theorem subset_reached (s : Store) (roots : Set Value) : roots ⊆ s.reached roots :=
  fun v member => ⟨v, member, .refl⟩

theorem Child.mem_reached (child : s.Child (fun _ => true) v w) (inside : v ∈ s.reached roots) :
    w ∈ s.reached roots := by
  obtain ⟨root, member, reached⟩ := inside
  exact ⟨root, member, reached.tail child⟩

theorem reached_subset {all : Set Value} (start : roots ⊆ all)
    (step : ∀ v ∈ all, ∀ w, s.Child (fun _ => true) v w → w ∈ all) : s.reached roots ⊆ all := by
  rintro w ⟨root, member, reached⟩
  induction reached with
  | refl => exact start member
  | tail _ child ih => exact step _ ih _ child

end Store

namespace Renaming

/-- The renaming is one to one between the objects that some values of a store lead to and those
that other values of another store lead to, and each of these objects holds the same, renamed. -/
structure Carries (ρ : Renaming) (s t : Store) (roots others : Set Value) : Prop where
  containers : Set.BijOn ρ.container { c | c.value ∈ s.reached roots }
    { c | c.value ∈ t.reached others }
  handles : Set.BijOn ρ.handles { ref | .filehandle ref ∈ s.reached roots }
    { ref | .filehandle ref ∈ t.reached others }
  items : ∀ ref, .array ref ∈ s.reached roots →
    List.Forall₂ ρ.Becomes (s.items ref) (t.items (ρ.arrays ref))
  fields : ∀ ref, .struct ref ∈ s.reached roots →
    NameMap.Related ρ.Becomes (s.fields ref) (t.fields (ρ.structs ref))
  path : ∀ ref, .filehandle ref ∈ s.reached roots →
    (s.handle ref).path = (t.handle (ρ.handles ref)).path
  isOpen : ∀ ref, .filehandle ref ∈ s.reached roots →
    (s.handle ref).isOpen = (t.handle (ρ.handles ref)).isOpen

variable {ρ : Renaming} {s t : Store} {roots others : Set Value}

theorem Carries.matching (carries : ρ.Carries s t roots others) :
    s.Matching t fun v w => v ∈ s.reached roots ∧ ρ.Becomes v w where
  corresponds v w related := by
    obtain ⟨inside, becomes⟩ := related
    cases becomes with
    | string text => exact .string text
    | float x => exact .float x
    | integer n => exact .integer n
    | byte b => exact .byte b
    | longpointer address => exact .longpointer address
    | void => exact .void
    | filehandle ref => exact .filehandle (carries.path ref inside) (carries.isOpen ref inside)
    | tuple first second =>
      exact .tuple ⟨Store.Child.first.mem_reached inside, first⟩
        ⟨Store.Child.second.mem_reached inside, second⟩
    | array ref =>
      have members : ∀ x ∈ s.items ref, x ∈ s.reached roots :=
        fun x member => (Store.Child.item rfl member).mem_reached inside
      exact .array ((List.forall₂_and_left _ _).2 ⟨members, carries.items ref inside⟩)
    | struct ref =>
      obtain ⟨names, values⟩ := NameMap.related_def.1 (carries.fields ref inside)
      exact .struct (NameMap.related_def.2 ⟨names, fun name x y left right =>
        ⟨(Store.Child.field rfl left).mem_reached inside, values name x y left right⟩⟩)
  containers c d e f first second := by
    rw [first.2.container_eq, second.2.container_eq]
    exact (carries.containers.injOn.eq_iff first.1 second.1).symm
  handles h i j k first second := by
    obtain ⟨inFirst, first⟩ := first
    obtain ⟨inSecond, second⟩ := second
    cases first
    cases second
    exact (carries.handles.injOn.eq_iff inFirst inSecond).symm

/-- The renaming that leaves every reference as it is. -/
protected def id : Renaming :=
  ⟨fun ref => ref, fun ref => ref, fun ref => ref⟩

theorem container_id : Renaming.id.container = id := by
  funext c
  cases c <;> rfl

theorem becomes_id (v : Value) : Renaming.id.Becomes v v := by
  induction v with
  | string _ text => exact .string text
  | float x => exact .float x
  | integer n => exact .integer n
  | byte b => exact .byte b
  | filehandle ref => exact .filehandle ref
  | longpointer address => exact .longpointer address
  | void => exact .void
  | struct ref => exact .struct ref
  | tuple _ _ _ first second => exact .tuple first second
  | array ref => exact .array ref

end Renaming

namespace Store

variable {s t u : Store} {roots : Set Value} {v w : Value}

/-! ### Stores that keep what values lead to -/

/-- The second store has all objects that the values lead to as the first one has them. -/
structure Keeps (roots : Set Value) (s t : Store) : Prop where
  items : ∀ ref, .array ref ∈ s.reached roots → t.items ref = s.items ref
  fields : ∀ ref, .struct ref ∈ s.reached roots → t.fields ref = s.fields ref
  handle : ∀ ref, .filehandle ref ∈ s.reached roots → t.handle ref = s.handle ref

/-- What is right inside a value is a matter of that value only. -/
theorem Child.transport {opens : Container → Bool} (child : s.Child opens v w)
    (items : ∀ ref, v = .array ref → t.items ref = s.items ref)
    (fields : ∀ ref, v = .struct ref → t.fields ref = s.fields ref) : t.Child opens v w := by
  cases child with
  | first => exact .first
  | second => exact .second
  | item opened member => exact .item opened (items _ rfl ▸ member)
  | field opened bound => exact .field opened (fields _ rfl ▸ bound)

theorem Keeps.child_iff (keeps : Keeps roots s t) (inside : v ∈ s.reached roots) :
    t.Child (fun _ => true) v w ↔ s.Child (fun _ => true) v w := by
  have items : ∀ ref, v = .array ref → t.items ref = s.items ref :=
    fun ref same => keeps.items ref (same ▸ inside)
  have fields : ∀ ref, v = .struct ref → t.fields ref = s.fields ref :=
    fun ref same => keeps.fields ref (same ▸ inside)
  exact ⟨fun child => child.transport (fun ref same => (items ref same).symm)
    fun ref same => (fields ref same).symm, fun child => child.transport items fields⟩

theorem Keeps.reached_eq (keeps : Keeps roots s t) : t.reached roots = s.reached roots := by
  apply Set.Subset.antisymm
  · exact reached_subset (s.subset_reached roots) fun v inside w child =>
      ((keeps.child_iff inside).1 child).mem_reached inside
  · have both : s.reached roots ⊆ s.reached roots ∩ t.reached roots :=
      reached_subset (Set.subset_inter (s.subset_reached roots) (t.subset_reached roots))
        fun v inside w child => ⟨child.mem_reached inside.1,
          ((keeps.child_iff inside.1).2 child).mem_reached inside.2⟩
    exact both.trans Set.inter_subset_right

theorem Keeps.refl (s : Store) : Keeps roots s s :=
  ⟨fun _ _ => rfl, fun _ _ => rfl, fun _ _ => rfl⟩

theorem Keeps.trans (first : Keeps roots s t) (second : Keeps roots t u) : Keeps roots s u where
  items ref inside :=
    (second.items ref (first.reached_eq ▸ inside)).trans (first.items ref inside)
  fields ref inside :=
    (second.fields ref (first.reached_eq ▸ inside)).trans (first.fields ref inside)
  handle ref inside :=
    (second.handle ref (first.reached_eq ▸ inside)).trans (first.handle ref inside)

theorem Keeps.carries (keeps : Keeps roots s t) : Renaming.id.Carries s t roots roots where
  containers := by
    rw [keeps.reached_eq, Renaming.container_id]
    exact Set.bijOn_id _
  handles := by
    rw [keeps.reached_eq]
    exact Set.bijOn_id _
  items ref inside := by
    rw [show t.items (Renaming.id.arrays ref) = s.items ref from keeps.items ref inside]
    exact List.forall₂_same.2 fun x _ => Renaming.becomes_id x
  fields ref inside := by
    rw [show t.fields (Renaming.id.structs ref) = s.fields ref from keeps.fields ref inside]
    intro name
    cases (s.fields ref).get? name with
    | none => exact .none
    | some x => exact .some (Renaming.becomes_id x)
  path ref inside := congrArg Handle.path (keeps.handle ref inside).symm
  isOpen ref inside := congrArg Handle.isOpen (keeps.handle ref inside).symm

/-! ### Changes elsewhere -/

/-- The values lead to objects of the store only. -/
structure Grounded (s : Store) (roots : Set Value) : Prop where
  containers : ∀ c : Container, c.value ∈ s.reached roots → s.Holds c
  handles : ∀ ref, .filehandle ref ∈ s.reached roots → s.HoldsHandle ref

/-- A change of the store that has nothing to do with the values: something new is made, or an
object is changed that none of them leads to. -/
inductive ChangesElsewhere (roots : Set Value) : Store → Store → Prop
  | newStamp (s : Store) : ChangesElsewhere roots s s.freshStamp.2
  | newArray (s : Store) (items : List Value) : ChangesElsewhere roots s (s.newArray items).2
  | newStruct (s : Store) (fields : NameMap Value) :
      ChangesElsewhere roots s (s.newStruct fields).2
  | newHandle (s : Store) (handle : Handle) : ChangesElsewhere roots s (s.newHandle handle).2
  | setItems {s : Store} {ref : ArrayRef} (apart : .array ref ∉ s.reached roots)
      (items : List Value) : ChangesElsewhere roots s (s.setItems ref items)
  | setFields {s : Store} {ref : StructRef} (apart : .struct ref ∉ s.reached roots)
      (fields : NameMap Value) : ChangesElsewhere roots s (s.setFields ref fields)
  | setStream {s : Store} {ref : HandleRef} (apart : .filehandle ref ∉ s.reached roots)
      (stream : Option Stream) : ChangesElsewhere roots s (s.setStream ref stream)

theorem items_setItems_of_ne {ref other : ArrayRef} (differ : ref ≠ other) (items : List Value) :
    (s.setItems ref items).items other = s.items other := by
  have apart : ref.index ≠ other.index := fun same => differ (congrArg ArrayRef.mk same)
  rw [Store.items, setItems, Array.getElem?_setIfInBounds_ne apart, Store.items]

theorem fields_setFields_of_ne {ref other : StructRef} (differ : ref ≠ other)
    (fields : NameMap Value) : (s.setFields ref fields).fields other = s.fields other := by
  have apart : ref.index ≠ other.index := fun same => differ (congrArg StructRef.mk same)
  rw [Store.fields, setFields, Array.getElem?_setIfInBounds_ne apart, Store.fields]

theorem ChangesElsewhere.keeps (change : ChangesElsewhere roots s t)
    (grounded : s.Grounded roots) : Keeps roots s t := by
  cases change with
  | newStamp => exact ⟨fun _ _ => rfl, fun _ _ => rfl, fun _ _ => rfl⟩
  | newArray items =>
    refine ⟨fun ref inside => ?_, fun _ _ => rfl, fun _ _ => rfl⟩
    rw [items_newArray, if_neg]
    rintro rfl
    exact Nat.lt_irrefl _ (grounded.containers (.array _) inside)
  | newStruct fields =>
    refine ⟨fun _ _ => rfl, fun ref inside => ?_, fun _ _ => rfl⟩
    rw [fields_newStruct, if_neg]
    rintro rfl
    exact Nat.lt_irrefl _ (grounded.containers (.struct _) inside)
  | newHandle handle =>
    refine ⟨fun _ _ => rfl, fun _ _ => rfl, fun ref inside => ?_⟩
    rw [handle_newHandle, if_neg]
    rintro rfl
    exact not_holdsHandle_newHandle handle (grounded.handles _ inside)
  | setItems apart items =>
    refine ⟨fun other inside => ?_, fun _ _ => rfl, fun _ _ => rfl⟩
    refine items_setItems_of_ne ?_ items
    rintro rfl
    exact apart inside
  | setFields apart fields =>
    refine ⟨fun _ _ => rfl, fun other inside => ?_, fun _ _ => rfl⟩
    refine fields_setFields_of_ne ?_ fields
    rintro rfl
    exact apart inside
  | setStream apart stream =>
    refine ⟨fun _ _ => rfl, fun _ _ => rfl, fun other inside => ?_⟩
    refine handle_setStream_of_ne ?_ stream
    rintro rfl
    exact apart inside

/-- Objects stay in the store. -/
theorem ChangesElsewhere.sizes_le (change : ChangesElsewhere roots s t) :
    s.arrays.size ≤ t.arrays.size ∧ s.structs.size ≤ t.structs.size ∧
      s.handles.size ≤ t.handles.size := by
  cases change <;>
    simp [freshStamp, Store.newArray, Store.newStruct, Store.newHandle, Store.setItems,
      Store.setFields, Store.setStream]

theorem ChangesElsewhere.grounded (change : ChangesElsewhere roots s t)
    (grounded : s.Grounded roots) : t.Grounded roots := by
  obtain ⟨arrays, structs, handles⟩ := change.sizes_le
  have same := (change.keeps grounded).reached_eq
  constructor
  · intro c inside
    have held := grounded.containers c (same ▸ inside)
    cases c with
    | array ref => exact Nat.lt_of_lt_of_le held arrays
    | struct ref => exact Nat.lt_of_lt_of_le held structs
  · intro ref inside
    exact Nat.lt_of_lt_of_le (grounded.handles ref (same ▸ inside)) handles

theorem keeps_of_changesElsewhere (grounded : s.Grounded roots)
    (changes : Relation.ReflTransGen (ChangesElsewhere roots) s t) :
    Keeps roots s t ∧ t.Grounded roots := by
  induction changes with
  | refl => exact ⟨.refl s, grounded⟩
  | tail _ change ih =>
    obtain ⟨keeps, stillGrounded⟩ := ih
    exact ⟨keeps.trans (change.keeps stillGrounded), change.grounded stillGrounded⟩

/-- Comparisons and texts are the same for values that lead to the same objects up to a renaming, in
whatever order the fields of structs are walked. In particular they stay the same through any number
of changes elsewhere. -/
theorem equal_eq_and_render_eq :
    (∀ (s t : Store) (ρ : Renaming) (a b x y : Value), ρ.Carries s t {a, b} {x, y} →
      ρ.Becomes a x → ρ.Becomes b y →
        s.equal a b = t.equal x y ∧ s.render a = t.render x ∧
        ∀ listing listing', s.Lists listing → t.Lists listing' →
          s.equalIn listing a b = t.equalIn listing' x y) ∧
    ∀ (s t : Store) (a b : Value), s.Grounded {a, b} →
      Relation.ReflTransGen (ChangesElsewhere {a, b}) s t →
        s.equal a b = t.equal a b ∧ s.render a = t.render a := by
  have carried (s t : Store) (ρ : Renaming) (a b x y : Value) (carries : ρ.Carries s t {a, b} {x, y})
      (first : ρ.Becomes a x) (second : ρ.Becomes b y) :
      s.equal a b = t.equal x y ∧ s.render a = t.render x := by
    have inFirst : a ∈ s.reached {a, b} := s.subset_reached _ (Set.mem_insert a _)
    have inSecond : b ∈ s.reached {a, b} := s.subset_reached _ (Set.mem_insert_of_mem a rfl)
    exact ⟨carries.matching.equal_eq ⟨inFirst, first⟩ ⟨inSecond, second⟩,
      carries.matching.render_eq ⟨inFirst, first⟩⟩
  constructor
  · intro s t ρ a b x y carries first second
    obtain ⟨equal, render⟩ := carried s t ρ a b x y carries first second
    refine ⟨equal, render, fun listing listing' lists lists' => ?_⟩
    rw [equalIn_eq lists, equalIn_eq lists', equal]
  · intro s t a b grounded changes
    have keeps := (keeps_of_changesElsewhere grounded changes).1
    exact carried s t .id a b a b keeps.carries (Renaming.becomes_id a) (Renaming.becomes_id b)

/-- Two arrays that hold each other, of which one holds a number too. -/
def pair : Store where
  arrays := #[[.array ⟨1⟩, .integer 1], [.array ⟨0⟩]]

/-- The same two arrays made in the other order, after an array that has nothing to do with them. -/
def latePair : Store where
  arrays := #[[], [.array ⟨2⟩], [.array ⟨1⟩, .integer 1]]

/-- Where the arrays of `pair` stand in `latePair`. -/
def pairMoved : Renaming :=
  ⟨fun ref => ⟨2 - ref.index⟩, id, id⟩

theorem reached_pair {i j : ArrayRef} (first : s.items i = [.array j, .integer 1])
    (second : s.items j = [.array i]) :
    s.reached {.array i, .array j} = {.array i, .array j, .integer 1} := by
  have start := s.subset_reached {.array i, .array j}
  have number : .integer 1 ∈ s.reached {.array i, .array j} := by
    have member : .integer 1 ∈ s.items i := by simp [first]
    exact (Child.item rfl member).mem_reached (start (Set.mem_insert _ _))
  apply Set.Subset.antisymm
  · refine reached_subset (by simp [Set.insert_subset_iff]) ?_
    rintro v (rfl | rfl | rfl) w child
    · cases child with
      | item _ member =>
        rw [first, List.mem_cons, List.mem_singleton] at member
        exact .inr member
    · cases child with
      | item _ member =>
        rw [second, List.mem_singleton] at member
        exact .inl member
    · cases child
  · rintro v (rfl | rfl | rfl)
    · exact start (Set.mem_insert _ _)
    · exact start (Set.mem_insert_of_mem _ rfl)
    · exact number

theorem containers_reached_pair {i j : ArrayRef} (first : s.items i = [.array j, .integer 1])
    (second : s.items j = [.array i]) :
    { c : Container | c.value ∈ s.reached {.array i, .array j} } = {.array i, .array j} := by
  rw [reached_pair first second]
  ext c
  cases c <;> simp [Container.value]

theorem equal_eq_and_render_eq_pair :
    pair.equal (.array ⟨0⟩) (.array ⟨1⟩) = latePair.equal (.array ⟨2⟩) (.array ⟨1⟩) ∧
      pair.render (.array ⟨0⟩) = latePair.render (.array ⟨2⟩) ∧
      pair.render (.array ⟨0⟩) = (pair.newArray [.array ⟨0⟩]).2.render (.array ⟨0⟩) := by
  have here : pair.reached {.array ⟨0⟩, .array ⟨1⟩} = {.array ⟨0⟩, .array ⟨1⟩, .integer 1} :=
    reached_pair rfl rfl
  have there : latePair.reached {.array ⟨2⟩, .array ⟨1⟩} = {.array ⟨2⟩, .array ⟨1⟩, .integer 1} :=
    reached_pair rfl rfl
  have carries : pairMoved.Carries pair latePair {.array ⟨0⟩, .array ⟨1⟩}
      {.array ⟨2⟩, .array ⟨1⟩} := by
    constructor
    · rw [containers_reached_pair rfl rfl, containers_reached_pair rfl rfl]
      have image : pairMoved.container '' {.array ⟨0⟩, .array ⟨1⟩} = {.array ⟨2⟩, .array ⟨1⟩} :=
        Set.image_pair pairMoved.container _ _
      rw [← image]
      refine Set.InjOn.bijOn_image ?_
      rintro c (rfl | rfl) d (rfl | rfl) same
      · rfl
      · cases same
      · cases same
      · rfl
    · rw [here, there]
      simp
    · intro ref inside
      rw [here] at inside
      obtain ⟨⟨⟩⟩ | ⟨⟨⟩⟩ | ⟨⟨⟩⟩ := inside
      · exact .cons (.array ⟨1⟩) (.cons (.integer 1) .nil)
      · exact .cons (.array ⟨0⟩) .nil
    all_goals
      intro ref inside
      rw [here] at inside
      simp at inside
  have grounded : pair.Grounded {.array ⟨0⟩, .array ⟨1⟩} := by
    constructor
    · intro c inside
      have named : c ∈ { c : Container | c.value ∈ pair.reached _ } := inside
      rw [containers_reached_pair rfl rfl] at named
      rcases named with rfl | rfl <;> decide
    · intro ref inside
      rw [here] at inside
      simp at inside
  have moving := equal_eq_and_render_eq.1 pair latePair pairMoved _ _ _ _ carries (.array ⟨0⟩)
    (.array ⟨1⟩)
  have making := equal_eq_and_render_eq.2 pair _ _ _ grounded
    (.single (.newArray pair [.array ⟨0⟩]))
  exact ⟨moving.1, moving.2.1, making.2⟩

end Store

end ScriptHost
