import ScriptHost.Proofs.Value.Marks

/-!
The texts of values and cycles. An array inside itself is written as a mark, and everything else as
its structure says. So without cycles the text is the one that is made of the structure alone, and
only with cycles are there marks.
-/

namespace ScriptHost

namespace Store

variable {s : Store} {opens : Container → Bool} {enclosing : List Container} {v : Value}
  {c m : Container}

/-! ### Texts made of the structure alone -/

def arrayText : List String → String
  | [] => "\x7b \x7d"
  | texts => "\x7b " ++ ", ".intercalate texts ++ " \x7d"

/-- The text of a value as one writes it from its structure alone, entering every array that is met.
There is no text if this runs in circles. -/
inductive PlainText (s : Store) : Value → String → Prop
  | string {p : Stamp} {text : String} : PlainText s (.string p text) text
  | float {number : Float} : PlainText s (.float number) (floatText number)
  | integer {number : Integer} : PlainText s (.integer number) number.toText
  | byte {number : UInt8} : PlainText s (.byte number) number.toNat.repr
  | filehandle {ref : HandleRef} :
      PlainText s (.filehandle ref)
        (if (s.handle ref).isOpen then "[filehandle " ++ (s.handle ref).path ++ "]"
          else "[filehandle closed]")
  | longpointer {address : UInt64} : PlainText s (.longpointer address) address.toNat.repr
  | void : PlainText s .void "[void]"
  | struct {ref : StructRef} : PlainText s (.struct ref) "[struct]"
  | tuple {p : Stamp} {a b : Value} {first second : String} (inFirst : PlainText s a first)
      (inSecond : PlainText s b second) :
      PlainText s (.tuple p a b) ("(" ++ first ++ ", " ++ second ++ ")")
  | array {ref : ArrayRef} {texts : Value → String}
      (items : ∀ x ∈ s.items ref, PlainText s x (texts x)) :
      PlainText s (.array ref) (arrayText ((s.items ref).map texts))

/-- The text of a value inside the given containers. An array that encloses the value is written as
a mark and not entered again; all other arrays are entered, however often they are met. -/
inductive MarkedText (s : Store) : List Container → Value → String → Prop
  | leaf {enclosing : List Container} {v : Value} {text : String}
      (noParts : v.tag ≠ .tuple ∧ v.tag ≠ .array) (plain : s.PlainText v text) :
      MarkedText s enclosing v text
  | tuple {enclosing : List Container} {p : Stamp} {a b : Value} {first second : String}
      (inFirst : MarkedText s enclosing a first) (inSecond : MarkedText s enclosing b second) :
      MarkedText s enclosing (.tuple p a b) ("(" ++ first ++ ", " ++ second ++ ")")
  | mark {enclosing : List Container} {ref : ArrayRef} (inside : .array ref ∈ enclosing) :
      MarkedText s enclosing (.array ref) "\x7b ... \x7d"
  | array {enclosing : List Container} {ref : ArrayRef} {texts : Value → String}
      (new : .array ref ∉ enclosing)
      (items : ∀ x ∈ s.items ref, MarkedText s (.array ref :: enclosing) x (texts x)) :
      MarkedText s enclosing (.array ref) (arrayText ((s.items ref).map texts))

theorem PlainText.unique {text other : String} (plain : s.PlainText v text)
    (again : s.PlainText v other) : text = other := by
  induction plain generalizing other with
  | tuple _ _ first second =>
    cases again with
    | tuple inFirst inSecond => rw [first inFirst, second inSecond]
  | array _ each =>
    cases again with
    | array items => rw [List.map_congr_left fun x member => each x member (items x member)]
  | _ => cases again; rfl

theorem MarkedText.unique {text other : String} (marked : s.MarkedText enclosing v text)
    (again : s.MarkedText enclosing v other) : text = other := by
  induction marked generalizing other with
  | leaf noParts plain =>
    cases again with
    | leaf _ plainAgain => exact plain.unique plainAgain
    | tuple => exact absurd rfl noParts.1
    | mark => exact absurd rfl noParts.2
    | array => exact absurd rfl noParts.2
  | tuple _ _ first second =>
    cases again with
    | leaf noParts => exact absurd rfl noParts.1
    | tuple inFirst inSecond => rw [first inFirst, second inSecond]
  | mark inside =>
    cases again with
    | leaf noParts => exact absurd rfl noParts.2
    | mark => rfl
    | array new => exact absurd inside new
  | array new _ each =>
    cases again with
    | leaf noParts => exact absurd rfl noParts.2
    | mark inside => exact absurd inside new
    | array _ items => rw [List.map_congr_left fun x member => each x member (items x member)]

/-- A text without marks is made of the structure alone. -/
theorem MarkedText.plainText {text : String} (marked : s.MarkedText enclosing v text)
    (unmarked : ∀ m, ¬s.Marks Container.isArray m enclosing v) : s.PlainText v text := by
  induction marked with
  | leaf _ plain => exact plain
  | tuple _ _ first second =>
    exact .tuple (first fun m marks => unmarked m (marks_tuple.2 (.inl marks)))
      (second fun m marks => unmarked m (marks_tuple.2 (.inr marks)))
  | mark inside => exact absurd (marks_of_mem inside) (unmarked _)
  | @array _ ref _ _ _ each =>
    exact .array fun x member =>
      each x member (not_marks_inside (c := .array ref) unmarked (.item rfl member))

theorem renderAll_eq_map (items : List Outline) :
    Outline.renderAll items = items.map Outline.render := by
  induction items with
  | nil => rfl
  | cons head tail ih => rw [Outline.renderAll, ih, List.map_cons]

theorem render_array (items : List Outline) :
    (Outline.array items).render = arrayText (items.map Outline.render) := by
  cases items with
  | nil => rfl
  | cons head tail => rw [Outline.render, renderAll_eq_map]; rfl

/-- The text that scripts show, made inside the given containers. -/
def textWithin (s : Store) (enclosing : List Container) (v : Value) : String :=
  (s.outlineWith (s.outlineWithin Container.isArray enclosing) v).render

theorem markedText_of_containers
    (containers : ∀ c : Container,
      s.MarkedText enclosing c.value (s.textWithin enclosing c.value)) :
    s.MarkedText enclosing v (s.textWithin enclosing v) := by
  induction v with
  | tuple p a b first second => exact .tuple first second
  | array ref => exact containers (.array ref)
  | struct ref => exact containers (.struct ref)
  | _ => exact .leaf (by simp [Value.tag]) (by constructor)

theorem markedText_container : s.MarkedText enclosing c.value (s.textWithin enclosing c.value) := by
  induction enclosing, c using outlineWithin.induct s Container.isArray with
  | case1 enclosing c member =>
    rw [textWithin, outlineWith_value, outlineWithin_of_mem member]
    cases c with
    | struct ref => exact .leaf (by simp [Container.value, Value.tag]) .struct
    | array ref => exact .mark member
  | case2 enclosing c new entered ih =>
    cases c with
    | struct ref => cases entered.2
    | array ref =>
      have text : s.textWithin enclosing (.array ref) =
          arrayText ((s.items ref).map (s.textWithin (.array ref :: enclosing))) := by
        rw [textWithin, outlineWith, outlineWithin, if_neg new, dif_pos entered, outlineContents,
          render_array, List.map_map]
        rfl
      rw [Container.value, text]
      exact .array new fun x _ => markedText_of_containers fun _ => ih _
  | case3 enclosing c new blank =>
    rw [textWithin, outlineWith_value, outlineWithin, if_neg new, dif_neg blank]
    cases c with
    | struct ref => exact .leaf (by simp [Container.value, Value.tag]) .struct
    | array ref =>
      have empty : s.items ref = [] := items_eq_nil fun held => blank ⟨held, rfl⟩
      have text : s.MarkedText enclosing (.array ref) (arrayText ((s.items ref).map fun _ => "")) :=
        .array new (by simp [empty])
      rwa [empty] at text

theorem markedText_textWithin (s : Store) (enclosing : List Container) (v : Value) :
    s.MarkedText enclosing v (s.textWithin enclosing v) :=
  markedText_of_containers fun _ => markedText_container

/-! ### Cycles -/

/-- The value leads, through items and components, to an array that so leads to itself. -/
def Circular (s : Store) (v : Value) : Prop :=
  ∃ ref : ArrayRef, s.Reaches Container.isArray v (.array ref) ∧
    s.OnCycle Container.isArray (.array ref)

theorem PlainText.acyclic {text : String} (plain : s.PlainText v text) :
    s.Acyclic Container.isArray v := by
  induction plain with
  | tuple _ _ first second =>
    refine acyclic_of_children fun x child => ?_
    cases child with
    | first => exact first
    | second => exact second
  | array _ each =>
    refine acyclic_of_children fun x child => ?_
    cases child with
    | item _ member => exact each x member
  | struct =>
    refine acyclic_of_children fun x child => ?_
    cases child with
    | field opened => cases opened
  | _ => exact acyclic_of_children fun x child => nomatch child

/-- Nothing leads down from a struct, so every cycle goes through arrays. -/
theorem eq_array_of_onCycle (cycle : s.OnCycle Container.isArray c.value) :
    ∃ ref, c = .array ref := by
  obtain ⟨x, child, _⟩ := Relation.TransGen.head'_iff.1 cycle
  cases c with
  | array ref => exact ⟨ref, rfl⟩
  | struct ref => cases child.entered.2

theorem Marks.circular (marks : s.Marks Container.isArray m [] v) :
    s.Circular v ∧ m.mark = .enclosingArray := by
  obtain ⟨d, kind, reached, back⟩ := marks.returns
  have cycle := back.resolve_left List.not_mem_nil
  obtain ⟨ref, rfl⟩ := eq_array_of_onCycle cycle
  exact ⟨⟨ref, reached, cycle⟩, kind.symm⟩

theorem Circular.exists_marks (circular : s.Circular v) :
    ∃ m, s.Marks Container.isArray m [] v := by
  obtain ⟨ref, reached, cycle⟩ := circular
  exact exists_marks_of_onCycle (c := .array ref) reached cycle

theorem enclosingArray_partOf_surface :
    Outline.enclosingArray.PartOf (s.surface v) ↔ s.Circular v := by
  constructor
  · intro inside
    exact (Marks.circular (m := .array ⟨0⟩) inside).1
  · intro circular
    obtain ⟨m, marks⟩ := circular.exists_marks
    exact marks.circular.2 ▸ marks

theorem plainText_of_not_circular (acyclic : ¬s.Circular v) : s.PlainText v (s.render v) :=
  (markedText_textWithin s [] v).plainText fun _ marks => acyclic marks.circular.1

theorem PlainText.not_circular {text : String} (plain : s.PlainText v text) : ¬s.Circular v := by
  rintro ⟨ref, reached, cycle⟩
  exact plain.acyclic (.array ref) reached cycle

/-- While a value is rendered, the mark for an array inside itself is set if and only if the value
leads to an array that leads to itself. The text that is made of the structure alone exists if and
only if there is no such array, and then it is the text that is rendered, whatever is shared. With
and without such arrays, the text that is rendered is the one that marks just the arrays inside
themselves. -/
theorem render_marks_cycles (s : Store) (v : Value) :
    (Outline.enclosingArray.PartOf (s.surface v) ↔ s.Circular v) ∧
      (∀ text, s.PlainText v text ↔ ¬s.Circular v ∧ s.render v = text) ∧
      ∀ text, s.MarkedText [] v text ↔ s.render v = text := by
  have marked : s.MarkedText [] v (s.render v) := markedText_textWithin s [] v
  refine ⟨enclosingArray_partOf_surface, fun text => ⟨fun plain => ?_, ?_⟩, fun text => ⟨?_, ?_⟩⟩
  · have acyclic := plain.not_circular
    exact ⟨acyclic, (plainText_of_not_circular acyclic).unique plain⟩
  · rintro ⟨acyclic, rfl⟩
    exact plainText_of_not_circular acyclic
  · exact marked.unique
  · rintro rfl
    exact marked

example : Store.render { arrays := #[[.array ⟨0⟩]] } (.array ⟨0⟩) = "\x7b \x7b ... \x7d \x7d" := by
  cbv

example : Store.render { arrays := #[[], [.array ⟨0⟩, .array ⟨0⟩]] } (.array ⟨1⟩) =
    "\x7b \x7b \x7d, \x7b \x7d \x7d" := by
  cbv

end Store

end ScriptHost
