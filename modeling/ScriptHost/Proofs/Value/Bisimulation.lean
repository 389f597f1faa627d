import ScriptHost.Proofs.NameMap
import ScriptHost.Proofs.Value.Reachability
import ScriptHost.Value.Equality

/-!
What equality of values decides on heaps with any sharing and any cycles. The rules of equality
say what two values need from the pairs of values inside them. A relation between values is closed
if each of its pairs follows from the rules and the relation itself; two values are equal exactly
if some closed relation holds between them, so equality is the largest closed relation.

The way from the answer of a comparison to a closed relation goes through agreement up to a depth. A
pair that is being compared already is taken to be equal, which is right at every depth once it is
right at the depth below.
-/

namespace ScriptHost

def Value.isScalar : Value → Bool
  | tuple _ _ _ | array _ | struct _ => false
  | _ => true

namespace Store

/-- The rules of equality, with `R` for the values inside tuples and containers. -/
inductive Alike (s : Store) (R : Value → Value → Prop) : Value → Value → Prop
  | string {p q : Stamp} (text : String) : Alike s R (.string p text) (.string q text)
  | integer (n : Integer) : Alike s R (.integer n) (.integer n)
  | byte (b : UInt8) : Alike s R (.byte b) (.byte b)
  | longpointer (address : UInt64) : Alike s R (.longpointer address) (.longpointer address)
  | float {x y : Float} (same : x == y) : Alike s R (.float x) (.float y)
  | integerFloat {n : Integer} {x : Float} (same : n.toFloat == x) :
      Alike s R (.integer n) (.float x)
  | floatInteger {n : Integer} {x : Float} (same : n.toFloat == x) :
      Alike s R (.float x) (.integer n)
  | void : Alike s R .void .void
  | filehandle (h : HandleRef) : Alike s R (.filehandle h) (.filehandle h)
  | tuple {p q : Stamp} {a₁ a₂ b₁ b₂ : Value} (first : R a₁ b₁) (second : R a₂ b₂) :
      Alike s R (.tuple p a₁ a₂) (.tuple q b₁ b₂)
  | array {a b : ArrayRef} (contents : a = b ∨ List.Forall₂ R (s.items a) (s.items b)) :
      Alike s R (.array a) (.array b)
  | struct {a b : StructRef}
      (contents : a = b ∨ NameMap.Related R (s.fields a) (s.fields b)) :
      Alike s R (.struct a) (.struct b)

/-- Every pair of the relation follows from the rules and the relation. -/
def Closed (s : Store) (R : Value → Value → Prop) : Prop :=
  ∀ a b, R a b → s.Alike R a b

variable {s : Store} {R T : Value → Value → Prop}

theorem Alike.mono (weaker : ∀ a b, R a b → T a b) {a b : Value} (alike : s.Alike R a b) :
    s.Alike T a b := by
  cases alike with
  | tuple first second => exact .tuple (weaker _ _ first) (weaker _ _ second)
  | array contents => exact .array (contents.imp_right fun items => items.imp weaker)
  | struct contents => exact .struct (contents.imp_right fun fields => fields.imp weaker)
  | _ => constructor <;> assumption

/-! ### One step of a comparison -/

theorem alike_iff_equalWith {containers : Container → Container → Bool} {a b : Value}
    (scalar : a.isScalar) : s.Alike R a b ↔ a.equalWith containers b := by
  constructor
  · intro alike
    cases alike with
    | tuple | array | struct => cases scalar
    | _ => simp_all [Value.equalWith]
  · intro equal
    cases a <;> cases b <;> simp only [Value.equalWith, Value.isScalar, Bool.false_eq_true,
      beq_iff_eq, decide_eq_true_eq] at equal scalar
    case string.string => exact equal ▸ .string _
    case float.float => exact .float equal
    case float.integer => exact .floatInteger equal
    case integer.float => exact .integerFloat equal
    case integer.integer => exact equal ▸ .integer _
    case byte.byte => exact equal ▸ .byte _
    case filehandle.filehandle => exact equal ▸ .filehandle _
    case longpointer.longpointer => exact equal ▸ .longpointer _
    case void.void => exact .void

/-- The part of the rules that is about different containers. -/
def ContentsAlike (s : Store) (R : Value → Value → Prop) : Container → Container → Prop
  | .array a, .array b => List.Forall₂ R (s.items a) (s.items b)
  | .struct a, .struct b => NameMap.Related R (s.fields a) (s.fields b)
  | _, _ => False

theorem ContentsAlike.mono {c d : Container} (weaker : ∀ a b, R a b → T a b)
    (contents : s.ContentsAlike R c d) : s.ContentsAlike T c d := by
  rcases c with a | a <;> rcases d with b | b
  · exact List.Forall₂.imp weaker contents
  · exact contents
  · exact contents
  · exact NameMap.Related.imp weaker contents

theorem alike_container {c d : Container} :
    s.Alike R c.value d.value ↔ c = d ∨ s.ContentsAlike R c d := by
  constructor
  · rcases c with a | a <;> rcases d with b | b <;> intro alike
    · cases alike with
      | array contents => exact contents.imp_left (congrArg Container.array)
    · cases alike
    · cases alike
    · cases alike with
      | struct contents => exact contents.imp_left (congrArg Container.struct)
  · rcases c with a | a <;> rcases d with b | b <;> intro contents
    · exact .array (contents.imp_left Container.array.inj)
    · exact (contents.resolve_left (by simp)).elim
    · exact (contents.resolve_left (by simp)).elim
    · exact .struct (contents.imp_left Container.struct.inj)

theorem contentsEqual_iff {values : Value → Value → Bool} {c d : Container} :
    s.contentsEqual values c d ↔ s.ContentsAlike (fun x y => values x y) c d := by
  rcases c with a | a <;> rcases d with b | b
  · simp only [contentsEqual, ContentsAlike, List.forall₂_iff_zip, Bool.and_eq_true,
      decide_eq_true_eq, List.all_eq_true, Prod.forall]
  · simp [contentsEqual, ContentsAlike]
  · simp [contentsEqual, ContentsAlike]
  · simp only [contentsEqual, ContentsAlike, NameMap.related_iff_size_eq, Bool.and_eq_true,
      decide_eq_true_eq, List.all_eq_true]
    refine and_congr_right fun _ => forall₂_congr fun field _ => ?_
    cases (s.fields b).get? field.1 <;> simp

/-! ### From the answer to a closed relation -/

/-- Agreement as far as one can see from a number of steps down. -/
def AlikeUpTo (s : Store) : Nat → Value → Value → Prop
  | 0 => fun _ _ => True
  | depth + 1 => s.Alike (s.AlikeUpTo depth)

theorem AlikeUpTo.pred {depth : Nat} {a b : Value} (alike : s.AlikeUpTo (depth + 1) a b) :
    s.AlikeUpTo depth a b := by
  induction depth generalizing a b with
  | zero => trivial
  | succ depth ih => exact alike.mono fun _ _ => ih

theorem alikeUpTo_refl_container (depth : Nat) (c : Container) :
    s.AlikeUpTo depth c.value c.value := by
  cases depth with
  | zero => trivial
  | succ depth => exact alike_container.2 (.inl rfl)

theorem alikeUpTo_of_equalWith {depth : Nat} {containers : Container → Container → Bool}
    (right : ∀ c d, containers c d → s.AlikeUpTo depth c.value d.value) {a b : Value}
    (equal : a.equalWith containers b) : s.AlikeUpTo depth a b := by
  induction a generalizing b depth with
  | tuple p a₁ a₂ first second =>
    cases b with
    | tuple q b₁ b₂ =>
      cases depth with
      | zero => trivial
      | succ depth =>
        rw [Value.equalWith, Bool.and_eq_true] at equal
        have below : ∀ c d, containers c d → s.AlikeUpTo depth c.value d.value :=
          fun c d same => (right c d same).pred
        exact .tuple (first below equal.1) (second below equal.2)
    | _ => simp [Value.equalWith] at equal
  | array a =>
    cases b with
    | array b => exact right (.array a) (.array b) equal
    | _ => simp [Value.equalWith] at equal
  | struct a =>
    cases b with
    | struct b => exact right (.struct a) (.struct b) equal
    | _ => simp [Value.equalWith] at equal
  | _ =>
    cases depth with
    | zero => trivial
    | succ depth => exact (alike_iff_equalWith rfl).2 equal

/-- A comparison that finds no difference is right at every depth at which the pairs that are being
compared are alike. To go into a new pair, it has to be alike one step less far down, and so it is
by the same statement for that depth. -/
theorem alikeUpTo_of_containersEqual {depth : Nat} {active : List (Container × Container)}
    (assumed : ∀ pair ∈ active, s.AlikeUpTo depth pair.1.value pair.2.value) {c d : Container}
    (equal : s.containersEqual active c d) : s.AlikeUpTo depth c.value d.value := by
  induction depth generalizing active c d with
  | zero => trivial
  | succ depth ih =>
    by_cases met : c = d ∨ (c, d) ∈ active
    · rcases met with rfl | met
      · exact alikeUpTo_refl_container _ c
      · exact assumed (c, d) met
    · have above : s.AlikeUpTo depth c.value d.value :=
        ih (fun pair member => (assumed pair member).pred) equal
      have extended : ∀ pair ∈ (c, d) :: active, s.AlikeUpTo depth pair.1.value pair.2.value := by
        intro pair member
        rcases List.mem_cons.1 member with rfl | member
        · exact above
        · exact (assumed pair member).pred
      rw [containersEqual_of_notMem met] at equal
      have contents : s.ContentsAlike (s.AlikeUpTo depth) c d :=
        (contentsEqual_iff.1 equal).mono fun x y same =>
          alikeUpTo_of_equalWith (fun e f inner => ih extended inner) same
      exact alike_container.2 (.inr contents)

theorem alikeUpTo_of_equal {a b : Value} (equal : s.equal a b) (depth : Nat) :
    s.AlikeUpTo depth a b :=
  alikeUpTo_of_equalWith
    (fun _ _ same => alikeUpTo_of_containersEqual (List.forall_mem_nil _) same) equal

/-- The rules never look further than one step, so what holds at every depth is closed. -/
theorem closed_alikeUpTo : s.Closed fun a b => ∀ depth, s.AlikeUpTo depth a b := by
  intro a b alike
  have step : ∀ depth, s.Alike (s.AlikeUpTo depth) a b := fun depth => alike (depth + 1)
  cases step 0 with
  | tuple _ _ =>
    refine .tuple (fun depth => ?_) (fun depth => ?_)
    all_goals cases step depth; assumption
  | @array a b _ =>
    refine .array (or_iff_not_imp_left.2 fun different => ?_)
    have items : ∀ depth, List.Forall₂ (s.AlikeUpTo depth) (s.items a) (s.items b) := by
      intro depth
      cases step depth with
      | array contents => exact contents.resolve_left different
    exact List.forall₂_iff_zip.2 ⟨(items 0).length_eq, fun member depth =>
      (List.forall₂_iff_zip.1 (items depth)).2 member⟩
  | @struct a b _ =>
    refine .struct (or_iff_not_imp_left.2 fun different => ?_)
    have fields : ∀ depth, NameMap.Related (s.AlikeUpTo depth) (s.fields a) (s.fields b) := by
      intro depth
      cases step depth with
      | struct contents => exact contents.resolve_left different
    exact NameMap.related_def.2 ⟨(NameMap.related_def.1 (fields 0)).1,
      fun name value other left right depth =>
        (NameMap.related_def.1 (fields depth)).2 name value other left right⟩
  | _ => constructor <;> assumption

/-! ### From a closed relation to the answer -/

theorem equalWith_of_alike {containers : Container → Container → Bool} (closed : s.Closed R)
    (right : ∀ c d, R c.value d.value → containers c d) {a b : Value} (related : R a b) :
    a.equalWith containers b := by
  induction a generalizing b with
  | tuple p a₁ a₂ first second =>
    cases closed _ _ related with
    | tuple relatedFirst relatedSecond =>
      rw [Value.equalWith, first relatedFirst, second relatedSecond, Bool.and_self]
  | array a =>
    cases closed _ _ related with
    | array _ => exact right (.array a) (.array _) related
  | struct a =>
    cases closed _ _ related with
    | struct _ => exact right (.struct a) (.struct _) related
  | _ => exact (alike_iff_equalWith rfl).1 (closed _ _ related)

theorem containersEqual_of_closed (closed : s.Closed R) (active : List (Container × Container))
    (c d : Container) (related : R c.value d.value) : s.containersEqual active c d := by
  induction active, c, d using containersEqual.induct s with
  | case1 active c => exact containersEqual_of_mem (.inl rfl)
  | case2 active c d _ met => exact containersEqual_of_mem (.inr met)
  | case3 active c d different unmet _ ih =>
    rw [containersEqual_of_notMem (not_or.2 ⟨different, unmet⟩), contentsEqual_iff]
    have contents := (alike_container.1 (closed _ _ related)).resolve_left different
    exact contents.mono fun x y inner => equalWith_of_alike closed ih inner
  | case4 active c d different unmet outside =>
    -- Containers outside of the store are empty, so any comparison of values will do.
    rw [containersEqual_of_notMem (not_or.2 ⟨different, unmet⟩),
      contentsEqual_congr outside _ fun _ _ => true, contentsEqual_iff]
    have contents := (alike_container.1 (closed _ _ related)).resolve_left different
    exact contents.mono fun _ _ _ => rfl

theorem equal_of_closed (closed : s.Closed R) {a b : Value} (related : R a b) : s.equal a b :=
  equalWith_of_alike closed (containersEqual_of_closed closed []) related

theorem closed_equal (s : Store) : s.Closed fun a b => s.equal a b := by
  intro a b equal
  exact (closed_alikeUpTo a b (alikeUpTo_of_equal equal)).mono fun _ _ alike =>
    equal_of_closed closed_alikeUpTo alike

/-- Two values are equal exactly if some closed relation holds between them. -/
theorem equal_iff_exists_closed (s : Store) (a b : Value) :
    s.equal a b = true ↔ ∃ R, s.Closed R ∧ R a b := by
  constructor
  · intro equal
    exact ⟨fun a b => s.equal a b, s.closed_equal, equal⟩
  · intro exhibited
    obtain ⟨R, closed, related⟩ := exhibited
    exact equal_of_closed closed related

end Store

end ScriptHost
