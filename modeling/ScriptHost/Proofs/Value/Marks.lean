import ScriptHost.Proofs.NameMap
import ScriptHost.Proofs.Value.Reachability
import ScriptHost.Value.Outline

/-!
Where outlines have marks. A mark stands for a container inside itself, so a value whose outline
shows one leads to a cycle. Conversely, whoever follows a cycle down an outline without marks passes
each of its containers, and finds all of them enclosing when the cycle comes round; so a value that
leads to a cycle has a mark somewhere, though maybe that of another container of the cycle.
-/

namespace ScriptHost

namespace Outline

/-- The part stands somewhere in an outline, which may be the outline as a whole. -/
inductive PartOf (part : Outline) : Outline → Prop
  | whole : PartOf part part
  | first {a b : Outline} (inside : PartOf part a) : PartOf part (.tuple a b)
  | second {a b : Outline} (inside : PartOf part b) : PartOf part (.tuple a b)
  | item {items : List Outline} {o : Outline} (member : o ∈ items) (inside : PartOf part o) :
      PartOf part (.array items)
  | field {fields : List (String × Outline)} {field : String × Outline} (member : field ∈ fields)
      (inside : PartOf part field.2) : PartOf part (.struct fields)

section Marks

variable {m : Container}

theorem mark_partOf_tuple {a b : Outline} :
    m.mark.PartOf (tuple a b) ↔ m.mark.PartOf a ∨ m.mark.PartOf b := by
  constructor
  · intro inside
    generalize mark : m.mark = part at inside
    cases inside with
    | whole => cases m <;> cases mark
    | first inside => exact .inl inside
    | second inside => exact .inr inside
  · rintro (inside | inside)
    · exact .first inside
    · exact .second inside

theorem mark_partOf_array {items : List Outline} :
    m.mark.PartOf (array items) ↔ ∃ o ∈ items, m.mark.PartOf o := by
  constructor
  · intro inside
    generalize mark : m.mark = part at inside
    cases inside with
    | whole => cases m <;> cases mark
    | item member inside => exact ⟨_, member, inside⟩
  · rintro ⟨o, member, inside⟩
    exact .item member inside

theorem mark_partOf_struct {fields : List (String × Outline)} :
    m.mark.PartOf (struct fields) ↔ ∃ field ∈ fields, m.mark.PartOf field.2 := by
  constructor
  · intro inside
    generalize mark : m.mark = part at inside
    cases inside with
    | whole => cases m <;> cases mark
    | field member inside => exact ⟨_, member, inside⟩
  · rintro ⟨field, member, inside⟩
    exact .field member inside

theorem mark_partOf_mark {c : Container} (inside : m.mark.PartOf c.mark) : m.mark = c.mark := by
  cases m <;> cases c <;> cases inside <;> rfl

theorem not_mark_partOf_blank {c : Container} : ¬m.mark.PartOf c.blank := by
  cases c with
  | array ref => simp [Container.blank, mark_partOf_array]
  | struct ref => simp [Container.blank, mark_partOf_struct]

end Marks

end Outline

namespace Store

variable {s : Store} {opens : Container → Bool} {enclosing : List Container} {v w : Value}
  {c d m : Container}

/-! ### Where marks stand -/

theorem outlineWith_value (enter : Container → Outline) (c : Container) :
    s.outlineWith enter c.value = enter c := by
  cases c <;> rfl

theorem outlineWithin_of_mem (member : c ∈ enclosing) :
    s.outlineWithin opens enclosing c = c.mark := by
  rw [outlineWithin, if_pos member]

/-- Only a container that the store holds and that is opened has anything inside. -/
theorem Child.entered (child : s.Child opens c.value v) : s.Holds c ∧ opens c := by
  cases c with
  | array ref =>
    cases child with
    | item opened member =>
      refine ⟨Decidable.not_not.1 fun outside => ?_, opened⟩
      rw [items_eq_nil outside] at member
      cases member
  | struct ref =>
    cases child with
    | field opened bound =>
      refine ⟨Decidable.not_not.1 fun outside => ?_, opened⟩
      rw [fields_eq_empty outside, NameMap.get?_empty] at bound
      cases bound

theorem mark_partOf_contents {enter : Container → Outline} (opened : opens c) :
    m.mark.PartOf (s.outlineContents enter c) ↔
      ∃ x, s.Child opens c.value x ∧ m.mark.PartOf (s.outlineWith enter x) := by
  cases c with
  | array ref =>
    rw [outlineContents, Outline.mark_partOf_array]
    constructor
    · rintro ⟨_, member, inside⟩
      obtain ⟨x, held, rfl⟩ := List.mem_map.1 member
      exact ⟨x, .item opened held, inside⟩
    · rintro ⟨x, child, inside⟩
      cases child with
      | item _ held => exact ⟨_, List.mem_map_of_mem held, inside⟩
  | struct ref =>
    rw [outlineContents, Outline.mark_partOf_struct]
    constructor
    · rintro ⟨_, member, inside⟩
      obtain ⟨⟨name, x⟩, held, rfl⟩ := List.mem_map.1 member
      exact ⟨x, .field opened (NameMap.mem_entries_iff.1 held), inside⟩
    · rintro ⟨x, child, inside⟩
      cases child with
      | field _ bound => exact ⟨_, List.mem_map_of_mem (NameMap.mem_entries_iff.2 bound), inside⟩

/-- The outline that a value has inside the given containers shows the mark of a container. -/
def Marks (s : Store) (opens : Container → Bool) (m : Container) (enclosing : List Container)
    (v : Value) : Prop :=
  m.mark.PartOf (s.outlineWith (s.outlineWithin opens enclosing) v)

theorem marks_tuple {p : Stamp} {a b : Value} :
    s.Marks opens m enclosing (.tuple p a b) ↔
      s.Marks opens m enclosing a ∨ s.Marks opens m enclosing b :=
  Outline.mark_partOf_tuple

theorem marks_of_mem (member : c ∈ enclosing) : s.Marks opens c enclosing c.value := by
  rw [Marks, outlineWith_value, outlineWithin_of_mem member]
  exact .whole

theorem marks_of_notMem (new : c ∉ enclosing) :
    s.Marks opens m enclosing c.value ↔
      ∃ x, s.Child opens c.value x ∧ s.Marks opens m (c :: enclosing) x := by
  rw [Marks, outlineWith_value, outlineWithin, if_neg new]
  split
  next entered => exact mark_partOf_contents entered.2
  next blank =>
    constructor
    · intro inside
      exact absurd inside Outline.not_mark_partOf_blank
    · rintro ⟨x, child, _⟩
      exact absurd child.entered blank

/-! ### A mark comes from a cycle -/

/-- The value leads to a container of the same kind that encloses it or comes back to itself. -/
def Returns (s : Store) (opens : Container → Bool) (m : Container) (enclosing : List Container)
    (v : Value) : Prop :=
  ∃ d : Container, d.mark = m.mark ∧ s.Reaches opens v d.value ∧
    (d ∈ enclosing ∨ s.OnCycle opens d.value)

theorem Returns.of_child (child : s.Child opens v w) (returns : s.Returns opens m enclosing w) :
    s.Returns opens m enclosing v := by
  obtain ⟨d, kind, reached, back⟩ := returns
  exact ⟨d, kind, .head child reached, back⟩

/-- A way back to the container that was entered last is a cycle. -/
theorem Returns.leave (child : s.Child opens c.value v)
    (returns : s.Returns opens m (c :: enclosing) v) : s.Returns opens m enclosing c.value := by
  obtain ⟨d, kind, reached, back⟩ := returns
  rcases back with member | cycle
  · rcases List.mem_cons.1 member with rfl | member
    · exact ⟨d, kind, .refl, .inr (.head' child reached)⟩
    · exact ⟨d, kind, .head child reached, .inl member⟩
  · exact ⟨d, kind, .head child reached, .inr cycle⟩

theorem Marks.returns_of_containers
    (containers : ∀ c : Container, s.Marks opens m enclosing c.value →
      s.Returns opens m enclosing c.value)
    (marks : s.Marks opens m enclosing v) : s.Returns opens m enclosing v := by
  induction v with
  | tuple p a b first second =>
    rcases marks_tuple.1 marks with inFirst | inSecond
    · exact (first inFirst).of_child .first
    · exact (second inSecond).of_child .second
  | array ref => exact containers (.array ref) marks
  | struct ref => exact containers (.struct ref) marks
  | _ =>
    rw [Marks, outlineWith] at marks
    cases m <;> cases marks

theorem Marks.returns_container (marks : s.Marks opens m enclosing c.value) :
    s.Returns opens m enclosing c.value := by
  induction enclosing, c using outlineWithin.induct s opens with
  | case1 enclosing c member =>
    rw [Marks, outlineWith_value, outlineWithin_of_mem member] at marks
    exact ⟨c, (Outline.mark_partOf_mark marks).symm, .refl, .inl member⟩
  | case2 enclosing c new entered ih =>
    obtain ⟨x, child, marks⟩ := (marks_of_notMem new).1 marks
    exact (marks.returns_of_containers fun _ => ih _).leave child
  | case3 enclosing c new blank =>
    obtain ⟨x, child, _⟩ := (marks_of_notMem new).1 marks
    exact absurd child.entered blank

theorem Marks.returns (marks : s.Marks opens m enclosing v) : s.Returns opens m enclosing v :=
  marks.returns_of_containers fun _ => Marks.returns_container

/-! ### A cycle comes to a mark -/

theorem not_marks_inside (unmarked : ∀ m, ¬s.Marks opens m enclosing c.value)
    (child : s.Child opens c.value w) : ∀ m, ¬s.Marks opens m (c :: enclosing) w := by
  intro m marks
  have new : c ∉ enclosing := fun member => unmarked c (marks_of_mem member)
  exact unmarked m ((marks_of_notMem new).2 ⟨w, child, marks⟩)

theorem exists_not_marks_of_child (unmarked : ∀ m, ¬s.Marks opens m enclosing v)
    (child : s.Child opens v w) :
    ∃ inner, enclosing ⊆ inner ∧ ∀ m, ¬s.Marks opens m inner w := by
  cases child with
  | first => exact ⟨enclosing, fun _ => id, fun m marks => unmarked m (marks_tuple.2 (.inl marks))⟩
  | second => exact ⟨enclosing, fun _ => id, fun m marks => unmarked m (marks_tuple.2 (.inr marks))⟩
  | @item ref _ opened member =>
    exact ⟨.array ref :: enclosing, List.subset_cons_self _ _,
      not_marks_inside (c := .array ref) unmarked (.item opened member)⟩
  | @field ref _ _ opened bound =>
    exact ⟨.struct ref :: enclosing, List.subset_cons_self _ _,
      not_marks_inside (c := .struct ref) unmarked (.field opened bound)⟩

/-- An outline without marks has none on any way down, on which more and more is enclosing. -/
theorem exists_not_marks_of_reaches (unmarked : ∀ m, ¬s.Marks opens m enclosing v)
    (reached : s.Reaches opens v w) :
    ∃ inner, enclosing ⊆ inner ∧ ∀ m, ¬s.Marks opens m inner w := by
  induction reached with
  | refl => exact ⟨enclosing, fun _ => id, unmarked⟩
  | tail _ child ih =>
    obtain ⟨middle, kept, unmarkedMiddle⟩ := ih
    obtain ⟨inner, more, unmarkedInner⟩ := exists_not_marks_of_child unmarkedMiddle child
    exact ⟨inner, fun _ member => more (kept member), unmarkedInner⟩

theorem exists_marks_of_onCycle (reached : s.Reaches opens v c.value)
    (cycle : s.OnCycle opens c.value) : ∃ m, s.Marks opens m enclosing v := by
  by_contra none
  rw [not_exists] at none
  obtain ⟨outer, _, unmarked⟩ := exists_not_marks_of_reaches none reached
  obtain ⟨x, child, back⟩ := Relation.TransGen.head'_iff.1 cycle
  -- One step down from the container it is enclosing, and so it is when the cycle has come round.
  have entered := not_marks_inside unmarked child
  obtain ⟨inner, kept, unmarkedInner⟩ := exists_not_marks_of_reaches entered back
  exact unmarkedInner c (marks_of_mem (kept List.mem_cons_self))

end Store

end ScriptHost
