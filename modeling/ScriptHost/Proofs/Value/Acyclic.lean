import ScriptHost.Proofs.Value.Matching

/-!
Values without cycles. Their outlines are made of their structure alone, whatever encloses them, so
the outline is a finite tree that induction can follow. Where there are no floats and no file
handles either, two values are equal exactly if their outlines are.
-/

namespace ScriptHost.Store

variable {s : Store} {opens : Container → Bool} {enter enters : Container → Outline}
  {enclosing others : List Container} {a b v w : Value} {c : Container}

/-! ### What encloses a value -/

theorem outlineWith_congr
    (same : ∀ c : Container, s.Reaches opens v c.value → enter c = enters c) :
    s.outlineWith enter v = s.outlineWith enters v := by
  induction v with
  | tuple p a b first second =>
    rw [outlineWith, outlineWith, first fun c reached => same c (.head .first reached),
      second fun c reached => same c (.head .second reached)]
  | array ref => exact same (.array ref) .refl
  | struct ref => exact same (.struct ref) .refl
  | _ => rfl

theorem outlineContents_congr (opened : opens c)
    (same : ∀ x, s.Child opens c.value x → ∀ d : Container, s.Reaches opens x d.value →
      enter d = enters d) :
    s.outlineContents enter c = s.outlineContents enters c := by
  cases c with
  | array ref =>
    rw [outlineContents, outlineContents, List.map_congr_left fun x member =>
      outlineWith_congr (same x (.item opened member))]
  | struct ref =>
    rw [outlineContents, outlineContents]
    refine congrArg Outline.struct (List.map_congr_left fun field member => ?_)
    rw [outlineWith_congr (same field.2 (.field opened (NameMap.mem_entries_iff.1 member)))]

/-- Containers that are not come to may enclose another one or not. -/
theorem outlineWithin_congr
    (same : ∀ d : Container, s.Reaches opens c.value d.value → (d ∈ enclosing ↔ d ∈ others)) :
    s.outlineWithin opens enclosing c = s.outlineWithin opens others c := by
  induction enclosing, c using outlineWithin.induct s opens generalizing others with
  | case1 enclosing c member =>
    rw [outlineWithin_of_mem member, outlineWithin_of_mem ((same c .refl).1 member)]
  | case2 enclosing c new entered ih =>
    have newOther : c ∉ others := fun member => new ((same c .refl).2 member)
    rw [outlineWithin_of_notMem new, outlineWithin_of_notMem newOther, if_pos entered.2,
      if_pos entered.2]
    refine outlineContents_congr entered.2 fun x child d reached => ih d fun e further => ?_
    rw [List.mem_cons, List.mem_cons, same e (.head child (reached.trans further))]
  | case3 enclosing c new blank =>
    have newOther : c ∉ others := fun member => new ((same c .refl).2 member)
    rw [outlineWithin, if_neg new, dif_neg blank, outlineWithin, if_neg newOther, dif_neg blank]

/-! ### Outlines of acyclic values -/

section Outlines

theorem outline_container (acyclic : s.Acyclic (fun _ => true) c.value) :
    s.outline c.value = s.outlineContents (s.outlineWithin (fun _ => true) []) c := by
  rw [outline, outlineWith_value, outlineWithin_of_notMem List.not_mem_nil, if_pos rfl]
  refine outlineContents_congr rfl fun x (child : s.Child (fun _ => true) c.value x) d reached =>
    outlineWithin_congr fun e further => ?_
  rw [List.mem_singleton]
  refine iff_of_false (fun same => ?_) List.not_mem_nil
  -- The container itself would be inside of what it holds.
  exact acyclic c .refl (.head' child (same ▸ reached.trans further))

theorem outline_array {ref : ArrayRef} (acyclic : s.Acyclic (fun _ => true) (.array ref)) :
    s.outline (.array ref) = .array ((s.items ref).map s.outline) :=
  outline_container (c := .array ref) acyclic

theorem outline_struct {ref : StructRef} (acyclic : s.Acyclic (fun _ => true) (.struct ref)) :
    s.outline (.struct ref) =
      .struct ((s.fields ref).entries.map fun field => (field.1, s.outline field.2)) :=
  outline_container (c := .struct ref) acyclic

theorem outline_tuple (p : Stamp) (a b : Value) :
    s.outline (.tuple p a b) = .tuple (s.outline a) (s.outline b) :=
  rfl

theorem sizeOf_outline_lt (acyclic : s.Acyclic (fun _ => true) v)
    (child : s.Child (fun _ => true) v w) : sizeOf (s.outline w) < sizeOf (s.outline v) := by
  cases child with
  | first =>
    rw [outline_tuple, Outline.tuple.sizeOf_spec]
    omega
  | second =>
    rw [outline_tuple, Outline.tuple.sizeOf_spec]
    omega
  | @item ref _ _ member =>
    have inside := List.sizeOf_lt_of_mem (List.mem_map_of_mem (f := s.outline) member)
    rw [outline_array acyclic, Outline.array.sizeOf_spec]
    omega
  | @field ref name _ _ bound =>
    have inside : sizeOf (name, s.outline w) < _ := List.sizeOf_lt_of_mem (List.mem_map_of_mem
      (f := fun field : String × Value => (field.1, s.outline field.2))
      (NameMap.mem_entries_iff.2 bound))
    rw [Prod.mk.sizeOf_spec] at inside
    rw [outline_struct acyclic, Outline.struct.sizeOf_spec]
    omega

end Outlines

/-! ### Plain data -/

/-- The value leads to no file handle. -/
def HandleFree (s : Store) (v : Value) : Prop :=
  ∀ ref, ¬s.Reaches (fun _ => true) v (.filehandle ref)

/-- The value leads to no float, to no file handle and to no cycle. -/
structure PlainData (s : Store) (v : Value) : Prop where
  floatFree : s.FloatFree v
  handleFree : s.HandleFree v
  acyclic : s.Acyclic (fun _ => true) v

namespace PlainData

theorem child (plain : s.PlainData v) (child : s.Child (fun _ => true) v w) : s.PlainData w where
  floatFree := plain.floatFree.child child
  handleFree ref reached := plain.handleFree ref (.head child reached)
  acyclic := plain.acyclic.child child

theorem of_children (noFloat : ∀ x, v ≠ .float x) (noHandle : ∀ ref, v ≠ .filehandle ref)
    (children : ∀ w, s.Child (fun _ => true) v w → s.PlainData w) : s.PlainData v where
  floatFree x reached := by
    rcases Relation.ReflTransGen.cases_head reached with rfl | ⟨w, child, reached⟩
    · exact noFloat x rfl
    · exact (children w child).floatFree x reached
  handleFree ref reached := by
    rcases Relation.ReflTransGen.cases_head reached with rfl | ⟨w, child, reached⟩
    · exact noHandle ref rfl
    · exact (children w child).handleFree ref reached
  acyclic := acyclic_of_children fun w child => (children w child).acyclic

protected theorem string (p : Stamp) (text : String) : s.PlainData (.string p text) :=
  .of_children (by rintro _ ⟨⟩) (by rintro _ ⟨⟩) (by rintro _ ⟨⟩)

protected theorem integer (n : Integer) : s.PlainData (.integer n) :=
  .of_children (by rintro _ ⟨⟩) (by rintro _ ⟨⟩) (by rintro _ ⟨⟩)

protected theorem byte (b : UInt8) : s.PlainData (.byte b) :=
  .of_children (by rintro _ ⟨⟩) (by rintro _ ⟨⟩) (by rintro _ ⟨⟩)

protected theorem array {ref : ArrayRef} (items : ∀ v ∈ s.items ref, s.PlainData v) :
    s.PlainData (.array ref) := by
  refine .of_children (by rintro _ ⟨⟩) (by rintro _ ⟨⟩) fun w child => ?_
  cases child with
  | item _ member => exact items w member

protected theorem struct {ref : StructRef}
    (fields : ∀ field ∈ (s.fields ref).entries, s.PlainData field.2) :
    s.PlainData (.struct ref) := by
  refine .of_children (by rintro _ ⟨⟩) (by rintro _ ⟨⟩) fun w child => ?_
  cases child with
  | field _ bound => exact fields _ (NameMap.mem_entries_iff.2 bound)

/-- What holds of plain data once it holds of all inside of it holds of all plain data. -/
theorem induction {P : Value → Prop} (plain : s.PlainData v)
    (step : ∀ v, s.PlainData v → (∀ w, s.Child (fun _ => true) v w → P w) → P v) : P v := by
  induction size : sizeOf (s.outline v) using Nat.strongRecOn generalizing v with
  | ind n ih =>
    refine step v plain fun w child => ?_
    exact ih _ (size ▸ sizeOf_outline_lt plain.acyclic child) (plain.child child) rfl

end PlainData

/-! ### Equality -/

theorem map_eq_of_forall₂ {α β γ : Type} {R : α → β → Prop} {f : α → γ} {g : β → γ}
    {xs : List α} {ys : List β} (related : List.Forall₂ R xs ys)
    (same : ∀ x ∈ xs, ∀ y ∈ ys, R x y → f x = g y) : xs.map f = ys.map g := by
  induction related with
  | nil => rfl
  | cons holds _ ih =>
    rw [List.map_cons, List.map_cons, same _ List.mem_cons_self _ List.mem_cons_self holds,
      ih fun x inFirst y inSecond =>
        same x (List.mem_cons_of_mem _ inFirst) y (List.mem_cons_of_mem _ inSecond)]

theorem outline_eq_of_equal (first : s.PlainData a) (second : s.PlainData b)
    (equal : s.equal a b) : s.outline a = s.outline b := by
  have all : ∀ b, s.PlainData b → s.equal a b → s.outline a = s.outline b := by
    refine first.induction (P := fun a => ∀ b, s.PlainData b → s.equal a b →
      s.outline a = s.outline b) ?_
    intro a first inside b second equal
    cases s.closed_equal a b equal with
    | float | floatInteger => exact absurd .refl (first.floatFree _)
    | integerFloat => exact absurd .refl (second.floatFree _)
    | tuple equalFirst equalSecond =>
      rw [outline_tuple, outline_tuple,
        inside _ .first _ (second.child .first) equalFirst,
        inside _ .second _ (second.child .second) equalSecond]
    | array contents =>
      rcases contents with rfl | items
      · rfl
      · rw [outline_array first.acyclic, outline_array second.acyclic]
        refine congrArg Outline.array (map_eq_of_forall₂ items fun x inFirst y inSecond same => ?_)
        exact inside x (.item rfl inFirst) y (second.child (.item rfl inSecond)) same
    | struct contents =>
      rcases contents with rfl | fields
      · rfl
      · rw [outline_struct first.acyclic, outline_struct second.acyclic]
        refine congrArg Outline.struct (fields.map_entries_eq fun _ x y inFirst inSecond same => ?_)
        exact inside x (.field rfl inFirst) y (second.child (.field rfl inSecond)) same
    | _ => rfl
  exact all b second equal

/-- How an outline is made of the outlines of the values inside. -/
inductive Unfolds (s : Store) : Value → Outline → Prop
  | string {p : Stamp} (text : String) : Unfolds s (.string p text) (.string text)
  | integer (n : Integer) : Unfolds s (.integer n) (.integer n)
  | byte (b : UInt8) : Unfolds s (.byte b) (.byte b)
  | longpointer (address : UInt64) : Unfolds s (.longpointer address) (.longpointer address)
  | void : Unfolds s .void .void
  | tuple {p : Stamp} {a b : Value} {first second : Outline} (inFirst : s.outline a = first)
      (inSecond : s.outline b = second) : Unfolds s (.tuple p a b) (.tuple first second)
  | array {ref : ArrayRef} {items : List Outline} (inside : (s.items ref).map s.outline = items) :
      Unfolds s (.array ref) (.array items)
  | struct {ref : StructRef} {fields : List (String × Outline)}
      (inside : ((s.fields ref).entries.map fun field => (field.1, s.outline field.2)) = fields) :
      Unfolds s (.struct ref) (.struct fields)

theorem PlainData.unfolds (plain : s.PlainData v) : s.Unfolds v (s.outline v) := by
  cases v with
  | string p text => exact .string text
  | float x => exact absurd .refl (plain.floatFree x)
  | integer n => exact .integer n
  | byte b => exact .byte b
  | filehandle ref => exact absurd .refl (plain.handleFree ref)
  | longpointer address => exact .longpointer address
  | void => exact .void
  | tuple p a b => exact .tuple rfl rfl
  | array ref =>
    rw [outline_array plain.acyclic]
    exact .array rfl
  | struct ref =>
    rw [outline_struct plain.acyclic]
    exact .struct rfl

/-- Plain data with one outline. -/
def SameOutline (s : Store) (a b : Value) : Prop :=
  s.PlainData a ∧ s.PlainData b ∧ s.outline a = s.outline b

theorem forall₂_sameOutline {xs ys : List Value} (first : ∀ x ∈ xs, s.PlainData x)
    (second : ∀ y ∈ ys, s.PlainData y) (same : xs.map s.outline = ys.map s.outline) :
    List.Forall₂ s.SameOutline xs ys := by
  have outlines : List.Forall₂ (fun x y => s.outline x = s.outline y) xs ys :=
    List.forall₂_map_left_iff.1 (List.forall₂_map_right_iff.1 (List.forall₂_eq_eq_eq ▸ same))
  refine List.forall₂_iff_zip.2 ⟨outlines.length_eq, fun member => ?_⟩
  obtain ⟨inFirst, inSecond⟩ := List.of_mem_zip member
  exact ⟨first _ inFirst, second _ inSecond, (List.forall₂_iff_zip.1 outlines).2 member⟩

theorem related_sameOutline {m n : NameMap Value}
    (first : ∀ name x, m.get? name = some x → s.PlainData x)
    (second : ∀ name y, n.get? name = some y → s.PlainData y)
    (same : (m.entries.map fun field => (field.1, s.outline field.2)) =
      n.entries.map fun field => (field.1, s.outline field.2)) :
    NameMap.Related s.SameOutline m n := by
  obtain ⟨names, outlines⟩ := NameMap.related_def.1 (NameMap.related_of_map_entries_eq same)
  exact NameMap.related_def.2 ⟨names, fun name x y left right =>
    ⟨first name x left, second name y right, outlines name x y left right⟩⟩

theorem closed_sameOutline (s : Store) : s.Closed s.SameOutline := by
  rintro a b ⟨first, second, same⟩
  have front := first.unfolds
  have back := second.unfolds
  rw [same] at front
  clear same
  generalize s.outline b = outline at front back
  cases front with
  | string text =>
    cases back with
    | string text => exact .string text
  | integer n =>
    cases back with
    | integer n => exact .integer n
  | byte b =>
    cases back with
    | byte b => exact .byte b
  | longpointer address =>
    cases back with
    | longpointer address => exact .longpointer address
  | void =>
    cases back with
    | void => exact .void
  | tuple inFirst inSecond =>
    cases back with
    | tuple otherFirst otherSecond =>
      exact .tuple ⟨first.child .first, second.child .first, inFirst.trans otherFirst.symm⟩
        ⟨first.child .second, second.child .second, inSecond.trans otherSecond.symm⟩
  | array inside =>
    cases back with
    | array others =>
      exact .array (.inr (forall₂_sameOutline (fun _ member => first.child (.item rfl member))
        (fun _ member => second.child (.item rfl member)) (inside.trans others.symm)))
  | struct inside =>
    cases back with
    | struct others =>
      exact .struct (.inr (related_sameOutline (fun _ _ bound => first.child (.field rfl bound))
        (fun _ _ bound => second.child (.field rfl bound)) (inside.trans others.symm)))

/-- Values without floats, file handles and cycles are equal exactly if their outlines are. -/
theorem equal_iff_outline_eq (first : s.PlainData a) (second : s.PlainData b) :
    s.equal a b ↔ s.outline a = s.outline b :=
  ⟨outline_eq_of_equal first second, fun same =>
    equal_of_closed s.closed_sameOutline ⟨first, second, same⟩⟩

end ScriptHost.Store
