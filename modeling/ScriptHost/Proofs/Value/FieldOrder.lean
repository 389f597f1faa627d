import ScriptHost.Value.Equality

/-!
The order of fields. Structs are compared field by field and the comparison stops at the first
difference, so it may look at other fields if it walks them in another order. Its answer is the
same: whatever order each struct has, the pairs under comparison that a field is compared with are
those of the containers around it, and not of the fields before it.
-/

namespace ScriptHost.Store

/-- Bindings for every struct of the store, each of them once and in any order. -/
def Lists (s : Store) (listing : StructRef → List (String × Value)) : Prop :=
  ∀ ref, (listing ref).Perm (s.fields ref).entries

section Listing

variable (s : Store) (listing : StructRef → List (String × Value))

/-- Whether two containers have equal contents, where fields are walked as they are listed. -/
def contentsEqualIn (values : Value → Value → Bool) : Container → Container → Bool
  | .struct a, .struct b =>
    (s.fields a).size = (s.fields b).size &&
      (listing a).all fun (name, x) =>
        match (s.fields b).get? name with
        | some y => values x y
        | none => false
  | c, d => s.contentsEqual values c d

/-- Whether two containers are equal while the pairs in `active` are being compared, where fields
are walked as they are listed. -/
def containersEqualIn (active : List (Container × Container)) (c d : Container) : Bool :=
  if c = d then true
  else if _met : (c, d) ∈ active then true
  else if _entered : s.Holds c ∧ s.Holds d then
    s.contentsEqualIn listing (Value.equalWith (containersEqualIn ((c, d) :: active))) c d
  else s.contentsEqualIn listing (fun _ _ => true) c d
termination_by remaining s.containerPairs active.contains
decreasing_by
  exact remaining_lt (by simp +contextual) (mem_containerPairs.2 (by assumption)) (by simpa)
    (by simp)

def equalIn (a b : Value) : Bool :=
  a.equalWith (s.containersEqualIn listing []) b

end Listing

variable {s : Store} {listing : StructRef → List (String × Value)}

theorem contentsEqualIn_eq (lists : s.Lists listing) (values : Value → Value → Bool)
    (c d : Container) : s.contentsEqualIn listing values c d = s.contentsEqual values c d := by
  cases c with
  | array a => rfl
  | struct a =>
    cases d with
    | array b => rfl
    | struct b =>
      rw [contentsEqualIn, contentsEqual]
      exact congrArg (decide ((s.fields a).size = (s.fields b).size) && ·) (lists a).all_eq

theorem containersEqualIn_eq (lists : s.Lists listing) (active : List (Container × Container)) :
    s.containersEqualIn listing active = s.containersEqual active := by
  funext c d
  induction active, c, d using containersEqual.induct s with
  | case1 active c => rw [containersEqualIn, if_pos rfl, containersEqual_of_mem (.inl rfl)]
  | case2 active c d different met =>
    rw [containersEqualIn, if_neg different, dif_pos met, containersEqual_of_mem (.inr met)]
  | case3 active c d different unmet entered ih =>
    have inside : s.containersEqualIn listing ((c, d) :: active) =
        s.containersEqual ((c, d) :: active) := funext fun e => funext (ih e)
    rw [containersEqualIn, if_neg different, dif_neg unmet, dif_pos entered, inside,
      contentsEqualIn_eq lists, containersEqual_of_notMem (not_or.2 ⟨different, unmet⟩)]
  | case4 active c d different unmet outside =>
    rw [containersEqualIn, if_neg different, dif_neg unmet, dif_neg outside,
      contentsEqualIn_eq lists, containersEqual, if_neg different, dif_neg unmet, dif_neg outside]

/-- The order in which fields are walked does not matter to a comparison. -/
theorem equalIn_eq (lists : s.Lists listing) (a b : Value) :
    s.equalIn listing a b = s.equal a b := by
  rw [equalIn, containersEqualIn_eq lists, equal]

end ScriptHost.Store
