import ScriptHost.Proofs.Value.Equivalence
import ScriptHost.Proofs.Value.Marks

/-!
Values of two stores that differ only in their references. A matching relates values of one store to
values of another so that related values show the same and have related values inside, and so that
containers and handles are related one to one. It carries every closed relation of one store over to
the other, and every stack of enclosing containers too; so comparisons, outlines and texts of
related values come out the same.
-/

namespace ScriptHost.Store

/-- Two values of two stores show the same, and `M` relates what is inside of them. -/
inductive Corresponds (s t : Store) (M : Value → Value → Prop) : Value → Value → Prop
  | string {p q : Stamp} (text : String) : Corresponds s t M (.string p text) (.string q text)
  | float (x : Float) : Corresponds s t M (.float x) (.float x)
  | integer (n : Integer) : Corresponds s t M (.integer n) (.integer n)
  | byte (b : UInt8) : Corresponds s t M (.byte b) (.byte b)
  | longpointer (address : UInt64) :
      Corresponds s t M (.longpointer address) (.longpointer address)
  | void : Corresponds s t M .void .void
  | filehandle {h k : HandleRef} (path : (s.handle h).path = (t.handle k).path)
      (isOpen : (s.handle h).isOpen = (t.handle k).isOpen) :
      Corresponds s t M (.filehandle h) (.filehandle k)
  | tuple {p q : Stamp} {a₁ a₂ b₁ b₂ : Value} (first : M a₁ b₁) (second : M a₂ b₂) :
      Corresponds s t M (.tuple p a₁ a₂) (.tuple q b₁ b₂)
  | array {a b : ArrayRef} (items : List.Forall₂ M (s.items a) (t.items b)) :
      Corresponds s t M (.array a) (.array b)
  | struct {a b : StructRef} (fields : NameMap.Related M (s.fields a) (t.fields b)) :
      Corresponds s t M (.struct a) (.struct b)

/-- Related values correspond to each other, and no two containers or handles of one store are
related to the same one of the other. -/
structure Matching (s t : Store) (M : Value → Value → Prop) : Prop where
  corresponds : ∀ a b, M a b → s.Corresponds t M a b
  containers : ∀ c d e f : Container, M c.value e.value → M d.value f.value → (c = d ↔ e = f)
  handles : ∀ h i j k : HandleRef, M (.filehandle h) (.filehandle j) →
    M (.filehandle i) (.filehandle k) → (h = i ↔ j = k)

variable {s t : Store} {M : Value → Value → Prop} {a b x y : Value} {c d : Container}

theorem Corresponds.flip (corresponds : s.Corresponds t M a b) :
    t.Corresponds s (fun y x => M x y) b a := by
  cases corresponds with
  | string text => exact .string text
  | float x => exact .float x
  | integer n => exact .integer n
  | byte b => exact .byte b
  | longpointer address => exact .longpointer address
  | void => exact .void
  | filehandle path isOpen => exact .filehandle path.symm isOpen.symm
  | tuple first second => exact .tuple first second
  | array items => exact .array items.flip
  | struct fields => exact .struct fields.flip

theorem Matching.flip (matching : s.Matching t M) : t.Matching s fun y x => M x y where
  corresponds y x related := (matching.corresponds x y related).flip
  containers c d e f first second := (matching.containers e f c d first second).symm
  handles h i j k first second := (matching.handles j k h i first second).symm

/-- Containers correspond only to containers of their kind, by what they hold. -/
theorem Corresponds.container_cases (corresponds : s.Corresponds t M c.value d.value) :
    (∃ i j, c = .array i ∧ d = .array j ∧ List.Forall₂ M (s.items i) (t.items j)) ∨
      ∃ i j, c = .struct i ∧ d = .struct j ∧ NameMap.Related M (s.fields i) (t.fields j) := by
  cases c with
  | array i =>
    cases d with
    | array j =>
      cases corresponds with
      | array items => exact .inl ⟨i, j, rfl, rfl, items⟩
    | struct _ => cases corresponds
  | struct i =>
    cases d with
    | array _ => cases corresponds
    | struct j =>
      cases corresponds with
      | struct fields => exact .inr ⟨i, j, rfl, rfl, fields⟩

theorem Matching.mark_eq (matching : s.Matching t M) (related : M c.value d.value) :
    c.mark = d.mark ∧ c.blank = d.blank ∧ c.isArray = d.isArray := by
  obtain ⟨i, j, rfl, rfl, -⟩ | ⟨i, j, rfl, rfl, -⟩ :=
    (matching.corresponds _ _ related).container_cases
  · exact ⟨rfl, rfl, rfl⟩
  · exact ⟨rfl, rfl, rfl⟩

/-! ### Comparisons -/

/-- The pairs that are related to equal pairs of the first store. -/
def EqualVia (s : Store) (M : Value → Value → Prop) (x y : Value) : Prop :=
  ∃ a b, M a x ∧ M b y ∧ s.equal a b

theorem forall₂_equalVia {items others : List Value} {xs ys : List Value}
    (first : List.Forall₂ M items xs) (second : List.Forall₂ M others ys)
    (equal : List.Forall₂ (fun a b => s.equal a b) items others) :
    List.Forall₂ (s.EqualVia M) xs ys := by
  have front : List.Forall₂ (fun x b => ∃ a, M a x ∧ s.equal a b) xs others :=
    forall₂_comp first.flip equal fun a _ x b left right => ⟨a, left, right⟩
  refine forall₂_comp front second fun b _ x y left right => ?_
  obtain ⟨a, related, same⟩ := left
  exact ⟨a, b, related, right, same⟩

theorem related_equalVia {fields others xs ys : NameMap Value}
    (first : NameMap.Related M fields xs) (second : NameMap.Related M others ys)
    (equal : NameMap.Related (fun a b => s.equal a b) fields others) :
    NameMap.Related (s.EqualVia M) xs ys := by
  have front : NameMap.Related (fun x b => ∃ a, M a x ∧ s.equal a b) xs others :=
    first.flip.comp equal fun _ a _ x b left right => ⟨a, left, right⟩
  refine front.comp second fun _ b _ x y left right => ?_
  obtain ⟨a, related, same⟩ := left
  exact ⟨a, b, related, right, same⟩

theorem Matching.closed_equalVia (matching : s.Matching t M) : t.Closed (s.EqualVia M) := by
  rintro x y ⟨a, b, left, right, equal⟩
  have first := matching.corresponds a x left
  have second := matching.corresponds b y right
  cases s.closed_equal a b equal with
  | string text =>
    cases first
    cases second
    exact .string text
  | integer n =>
    cases first
    cases second
    exact .integer n
  | byte b =>
    cases first
    cases second
    exact .byte b
  | longpointer address =>
    cases first
    cases second
    exact .longpointer address
  | float same =>
    cases first
    cases second
    exact .float same
  | integerFloat same =>
    cases first
    cases second
    exact .integerFloat same
  | floatInteger same =>
    cases first
    cases second
    exact .floatInteger same
  | void =>
    cases first
    cases second
    exact .void
  | filehandle h =>
    cases first with
    | @filehandle _ j _ _ =>
      cases second with
      | @filehandle _ k _ _ =>
        obtain rfl : j = k := (matching.handles h h j k left right).1 rfl
        exact .filehandle j
  | tuple equalFirst equalSecond =>
    cases first with
    | tuple leftFirst leftSecond =>
      cases second with
      | tuple rightFirst rightSecond =>
        exact .tuple ⟨_, _, leftFirst, rightFirst, equalFirst⟩
          ⟨_, _, leftSecond, rightSecond, equalSecond⟩
  | @array a b contents =>
    cases first with
    | @array _ c items =>
      cases second with
      | @array _ d others =>
        refine .array (contents.imp (fun same => ?_) (forall₂_equalVia items others))
        have met := matching.containers (.array a) (.array b) (.array c) (.array d) left right
        exact Container.array.inj (met.1 (congrArg Container.array same))
  | @struct a b contents =>
    cases first with
    | @struct _ c fields =>
      cases second with
      | @struct _ d others =>
        refine .struct (contents.imp (fun same => ?_) (related_equalVia fields others))
        have met := matching.containers (.struct a) (.struct b) (.struct c) (.struct d) left right
        exact Container.struct.inj (met.1 (congrArg Container.struct same))

/-- Related values compare alike. -/
theorem Matching.equal_eq (matching : s.Matching t M) (first : M a x) (second : M b y) :
    s.equal a b = t.equal x y := by
  refine Bool.eq_iff_iff.2 ⟨fun equal => ?_, fun equal => ?_⟩
  · exact equal_of_closed matching.closed_equalVia ⟨a, b, first, second, equal⟩
  · exact equal_of_closed matching.flip.closed_equalVia ⟨x, y, first, second, equal⟩

/-! ### Outlines -/

section Outlines

variable {enter enters : Container → Outline}

theorem Matching.outlineWith_eq (matching : s.Matching t M)
    (same : ∀ c d : Container, M c.value d.value → enter c = enters d) (related : M a x) :
    s.outlineWith enter a = t.outlineWith enters x := by
  induction a generalizing x with
  | tuple p a b inFirst inSecond =>
    cases matching.corresponds _ _ related with
    | tuple first second =>
      rw [outlineWith, outlineWith, inFirst first, inSecond second]
  | array ref =>
    cases matching.corresponds _ _ related with
    | @array _ other _ => exact same (.array ref) (.array other) related
  | struct ref =>
    cases matching.corresponds _ _ related with
    | @struct _ other _ => exact same (.struct ref) (.struct other) related
  | filehandle ref =>
    cases matching.corresponds _ _ related with
    | filehandle path isOpen => rw [outlineWith, outlineWith, path, isOpen]
  | _ =>
    cases matching.corresponds _ _ related
    rfl

theorem Matching.outlineContents_eq (matching : s.Matching t M)
    (same : ∀ c d : Container, M c.value d.value → enter c = enters d)
    (related : M c.value d.value) : s.outlineContents enter c = t.outlineContents enters d := by
  obtain ⟨i, j, rfl, rfl, items⟩ | ⟨i, j, rfl, rfl, fields⟩ :=
    (matching.corresponds _ _ related).container_cases
  · have outlines : List.Forall₂ (fun x y => s.outlineWith enter x = t.outlineWith enters y)
        (s.items i) (t.items j) :=
      items.imp fun x y inside => matching.outlineWith_eq same inside
    rw [outlineContents, outlineContents]
    exact congrArg Outline.array (List.forall₂_eq_eq_eq ▸
      List.forall₂_map_right_iff.2 (List.forall₂_map_left_iff.2 outlines))
  · rw [outlineContents, outlineContents,
      fields.map_entries_eq fun _ _ _ _ _ inside => matching.outlineWith_eq same inside]

theorem outlineContents_of_not_holds (missing : ¬s.Holds c) :
    s.outlineContents enter c = c.blank := by
  cases c with
  | array ref => rw [outlineContents, items_eq_nil missing]; rfl
  | struct ref => rw [outlineContents, fields_eq_empty missing]; rfl

/-- Nothing is inside the counterpart of a container that its store does not hold. -/
theorem Corresponds.outlineContents_eq_blank (corresponds : s.Corresponds t M c.value d.value)
    (missing : ¬s.Holds c) : t.outlineContents enters d = d.blank := by
  obtain ⟨i, j, rfl, rfl, items⟩ | ⟨i, j, rfl, rfl, fields⟩ := corresponds.container_cases
  · rw [items_eq_nil missing, List.forall₂_nil_left_iff] at items
    rw [outlineContents, items]
    rfl
  · rw [fields_eq_empty missing] at fields
    rw [outlineContents, fields.eq_empty]
    rfl

end Outlines

theorem outlineWithin_of_notMem {opens : Container → Bool} {enclosing : List Container}
    (new : c ∉ enclosing) :
    s.outlineWithin opens enclosing c =
      if opens c then s.outlineContents (s.outlineWithin opens (c :: enclosing)) c
      else c.blank := by
  rw [outlineWithin, if_neg new]
  by_cases opened : opens c
  · rw [if_pos opened]
    split
    next => rfl
    next outside =>
      rw [outlineContents_of_not_holds fun held => outside ⟨held, opened⟩]
  · rw [if_neg opened, dif_neg fun entered => opened entered.2]

section Stacks

variable {opens : Container → Bool} {enclosing others : List Container}

theorem Matching.mem_iff (matching : s.Matching t M)
    (around : List.Forall₂ (fun c d => M c.value d.value) enclosing others)
    (related : M c.value d.value) : c ∈ enclosing ↔ d ∈ others := by
  induction around with
  | nil => simp
  | cons top _ ih =>
    rw [List.mem_cons, List.mem_cons, matching.containers _ _ _ _ related top, ih]

/-- Going down from related containers inside related ones, one meets the same marks. -/
theorem Matching.outlineWithin_eq (matching : s.Matching t M)
    (kinds : ∀ c d : Container, M c.value d.value → opens c = opens d)
    (around : List.Forall₂ (fun c d => M c.value d.value) enclosing others)
    (related : M c.value d.value) :
    s.outlineWithin opens enclosing c = t.outlineWithin opens others d := by
  have marks := matching.mark_eq related
  induction enclosing, c using outlineWithin.induct s opens generalizing others d with
  | case1 enclosing c member =>
    rw [outlineWithin_of_mem member,
      outlineWithin_of_mem ((matching.mem_iff around related).1 member), marks.1]
  | case2 enclosing c new entered ih =>
    have newOther : d ∉ others := fun member => new ((matching.mem_iff around related).2 member)
    rw [outlineWithin_of_notMem new, outlineWithin_of_notMem newOther, ← kinds c d related,
      if_pos entered.2, if_pos entered.2]
    exact matching.outlineContents_eq
      (fun e f inside => ih e (.cons related around) inside (matching.mark_eq inside)) related
  | case3 enclosing c new blank =>
    have newOther : d ∉ others := fun member => new ((matching.mem_iff around related).2 member)
    rw [outlineWithin_of_notMem new, outlineWithin_of_notMem newOther, ← kinds c d related]
    by_cases opened : opens c
    · -- Nothing is inside a container that the store does not hold, nor inside its counterpart.
      have missing : ¬s.Holds c := fun held => blank ⟨held, opened⟩
      rw [if_pos opened, if_pos opened, outlineContents_of_not_holds missing, marks.2.1,
        (matching.corresponds _ _ related).outlineContents_eq_blank missing]
    · rw [if_neg opened, if_neg opened, marks.2.1]

end Stacks

theorem Matching.surface_eq (matching : s.Matching t M) (related : M a x) :
    s.surface a = t.surface x :=
  matching.outlineWith_eq
    (fun _ _ => matching.outlineWithin_eq (fun _ _ inside => (matching.mark_eq inside).2.2) .nil)
    related

theorem Matching.render_eq (matching : s.Matching t M) (related : M a x) :
    s.render a = t.render x :=
  congrArg Outline.render (matching.surface_eq related)

theorem Matching.outline_eq (matching : s.Matching t M) (related : M a x) :
    s.outline a = t.outline x :=
  matching.outlineWith_eq (fun _ _ => matching.outlineWithin_eq (fun _ _ _ => rfl) .nil) related

end ScriptHost.Store
