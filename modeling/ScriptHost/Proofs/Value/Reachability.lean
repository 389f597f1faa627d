import Mathlib.Logic.Relation
import ScriptHost.Value.Container

/-! What one comes to on the way down from a value: the components of tuples, and the contents of
the containers that are opened. The ways down may run in circles. -/

namespace ScriptHost

/-- The value that refers to a container. -/
def Container.value : Container → Value
  | array ref => .array ref
  | struct ref => .struct ref

namespace Store

/-- One step down from a value. -/
inductive Child (s : Store) (opens : Container → Bool) : Value → Value → Prop
  | first {p : Stamp} {a b : Value} : Child s opens (.tuple p a b) a
  | second {p : Stamp} {a b : Value} : Child s opens (.tuple p a b) b
  | item {ref : ArrayRef} {x : Value} (opened : opens (.array ref)) (member : x ∈ s.items ref) :
      Child s opens (.array ref) x
  | field {ref : StructRef} {name : String} {x : Value} (opened : opens (.struct ref))
      (bound : (s.fields ref).get? name = some x) : Child s opens (.struct ref) x

/-- Any number of steps down, or none. -/
def Reaches (s : Store) (opens : Container → Bool) : Value → Value → Prop :=
  Relation.ReflTransGen (s.Child opens)

/-- One or more steps down lead back to the value. -/
def OnCycle (s : Store) (opens : Container → Bool) (v : Value) : Prop :=
  Relation.TransGen (s.Child opens) v v

/-- The value leads to no container that leads back to itself. -/
def Acyclic (s : Store) (opens : Container → Bool) (v : Value) : Prop :=
  ∀ c : Container, s.Reaches opens v c.value → ¬s.OnCycle opens c.value

variable {s : Store} {opens others : Container → Bool} {v w : Value}

theorem Child.mono (more : ∀ c, opens c → others c) (child : s.Child opens v w) :
    s.Child others v w := by
  cases child with
  | first => exact .first
  | second => exact .second
  | item opened member => exact .item (more _ opened) member
  | field opened bound => exact .field (more _ opened) bound

theorem Reaches.mono (more : ∀ c, opens c → others c) (reached : s.Reaches opens v w) :
    s.Reaches others v w :=
  Relation.ReflTransGen.mono (fun _ _ child => child.mono more) v w reached

theorem Acyclic.child (acyclic : s.Acyclic opens v) (child : s.Child opens v w) :
    s.Acyclic opens w :=
  fun c reached => acyclic c (.head child reached)

/-- A cycle through a value is one through a value inside of it. -/
theorem acyclic_of_children (children : ∀ w, s.Child opens v w → s.Acyclic opens w) :
    s.Acyclic opens v := by
  intro c reached cycle
  rcases Relation.ReflTransGen.cases_head reached with rfl | ⟨w, child, reached⟩
  · obtain ⟨w, child, back⟩ := Relation.TransGen.head'_iff.1 cycle
    exact children w child c back cycle
  · exact children w child c reached cycle

end Store

end ScriptHost
