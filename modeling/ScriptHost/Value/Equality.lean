import ScriptHost.Value.Container

/-!
Equality of values. Strings and tuples compare by content, numbers by value with integers promoted
to meet a float, and file handles by identity. Arrays and structs are equal to themselves, and to
others with equal contents. Contents may lead back to a pair of containers that is being compared
already; such a pair is taken to be equal when it is met again: if the two differ at all, they
differ somewhere else.
-/

namespace ScriptHost

/-- Whether two values are equal, given which containers are. -/
def Value.equalWith (containers : Container → Container → Bool) : Value → Value → Bool
  | string _ a, string _ b => a == b
  | float a, float b => a == b
  | integer a, integer b => a = b
  | integer a, float b => a.toFloat == b
  | float a, integer b => b.toFloat == a
  | byte a, byte b => a == b
  | longpointer a, longpointer b => a == b
  | void, void => true
  | tuple _ a₁ a₂, tuple _ b₁ b₂ => a₁.equalWith containers b₁ && a₂.equalWith containers b₂
  | array a, array b => containers (.array a) (.array b)
  | struct a, struct b => containers (.struct a) (.struct b)
  | filehandle a, filehandle b => a = b
  | _, _ => false

namespace Store

/-- Whether two containers have equal contents, given which values are equal: arrays of one length
item by item, and structs with equally many fields field by field. -/
def contentsEqual (s : Store) (values : Value → Value → Bool) : Container → Container → Bool
  | .array a, .array b =>
    (s.items a).length = (s.items b).length &&
      ((s.items a).zip (s.items b)).all fun (x, y) => values x y
  | .struct a, .struct b =>
    (s.fields a).size = (s.fields b).size &&
      (s.fields a).entries.all fun (name, x) =>
        match (s.fields b).get? name with
        | some y => values x y
        | none => false
  | _, _ => false

def containerPairs (s : Store) : List (Container × Container) :=
  s.containers.flatMap fun c => s.containers.map fun d => (c, d)

theorem mem_containerPairs {s : Store} {c d : Container} :
    (c, d) ∈ s.containerPairs ↔ s.Holds c ∧ s.Holds d := by
  simp [containerPairs]

/-- Containers that the store does not hold are empty, so no values have to be compared for them. -/
theorem contentsEqual_congr {s : Store} {c d : Container} (outside : ¬(s.Holds c ∧ s.Holds d))
    (values others : Value → Value → Bool) :
    s.contentsEqual values c d = s.contentsEqual others c d := by
  rw [Decidable.not_and_iff_or_not] at outside
  rcases c with a | a <;> rcases d with b | b
  · have nothing : (s.items a).zip (s.items b) = [] := by
      rcases outside with outside | outside <;> simp [items_eq_nil outside]
    simp only [contentsEqual, nothing, List.all_nil]
  · rfl
  · rfl
  · simp only [contentsEqual]
    by_cases sizes : (s.fields a).size = (s.fields b).size
    · have nothing : (s.fields a).entries = [] := by
        rcases outside with outside | outside
        · simp [fields_eq_empty outside, EmptyCollection.emptyCollection]
        · simpa [fields_eq_empty outside, NameMap.size, EmptyCollection.emptyCollection] using sizes
      simp only [nothing, List.all_nil]
    · simp only [sizes, decide_false, Bool.false_and]

/-- Whether two containers are equal while the pairs in `active` are being compared. -/
def containersEqual (s : Store) (active : List (Container × Container)) (c d : Container) : Bool :=
  if c = d then true
  else if _met : (c, d) ∈ active then true
  else if _entered : s.Holds c ∧ s.Holds d then
    s.contentsEqual (Value.equalWith (s.containersEqual ((c, d) :: active))) c d
  else s.contentsEqual (fun _ _ => true) c d
termination_by remaining s.containerPairs active.contains
decreasing_by
  exact remaining_lt (by simp +contextual) (mem_containerPairs.2 (by assumption)) (by simpa)
    (by simp)

theorem containersEqual_of_mem {s : Store} {active : List (Container × Container)}
    {c d : Container} (met : c = d ∨ (c, d) ∈ active) : s.containersEqual active c d = true := by
  rw [containersEqual]
  by_cases same : c = d
  · rw [if_pos same]
  · rw [if_neg same, dif_pos (met.resolve_left same)]

theorem containersEqual_of_notMem {s : Store} {active : List (Container × Container)}
    {c d : Container} (unmet : ¬(c = d ∨ (c, d) ∈ active)) :
    s.containersEqual active c d =
      s.contentsEqual (Value.equalWith (s.containersEqual ((c, d) :: active))) c d := by
  rw [not_or] at unmet
  rw [containersEqual, if_neg unmet.1, dif_neg unmet.2]
  split
  next entered => rfl
  next outside => exact contentsEqual_congr outside _ _

def equal (s : Store) (a b : Value) : Bool :=
  a.equalWith (s.containersEqual []) b

end Store

end ScriptHost
