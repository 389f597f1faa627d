import Mathlib.Data.List.Forall2
import ScriptHost.Native.Function

/-!
What typed host functions make of the values they are called with. Every parameter takes the values
of its type, and a list of values is either taken as a whole or has a leftmost value that is not
taken. In the first case the body gets what the values carry, in the second it is not reached.
-/

namespace ScriptHost

namespace ParamType

/-- Whether a value has the type that a parameter asks for. -/
def Takes (t : ParamType) (v : Value) : Prop :=
  t = .any ∨ v.typeName = t.name

instance (t : ParamType) (v : Value) : Decidable (t.Takes v) :=
  inferInstanceAs (Decidable (_ ∨ _))

/-- Whether an argument is the content of a value. -/
def Carries : (t : ParamType) → Value → t.Arg → Prop
  | any, v, arg => v = arg
  | string, v, text => ∃ stamp, v = .string stamp text
  | integer, v, n => v = .integer n
  | float, v, x => v = .float x
  | byte, v, b => v = .byte b
  | longpointer, v, address => v = .longpointer address
  | filehandle, v, ref => v = .filehandle ref
  | array, v, ref => v = .array ref
  | struct, v, ref => v = .struct ref
  | tuple, v, pair => ∃ stamp, v = .tuple stamp pair.1 pair.2

variable {t : ParamType} {v : Value}

theorem accept_eq_some_iff {arg : t.Arg} : t.accept v = some arg ↔ t.Carries v arg := by
  cases t <;> cases v <;>
    simp [accept, Carries, Value.text?, Value.integer?, Value.float?, Value.byte?, Value.address?,
      Value.filehandle?, Value.array?, Value.struct?, Value.pair?, Prod.ext_iff]

theorem accept_eq_none_iff : t.accept v = none ↔ ¬t.Takes v := by
  cases t <;> cases v <;>
    simp [accept, Takes, Value.typeName, Value.tag, name, Tag.name, Value.text?, Value.integer?,
      Value.float?, Value.byte?, Value.address?, Value.filehandle?, Value.array?, Value.struct?,
      Value.pair?]

theorem Takes.exists_carries (takes : t.Takes v) : ∃ arg, t.Carries v arg := by
  cases accepted : t.accept v with
  | none => exact absurd takes (accept_eq_none_iff.1 accepted)
  | some arg => exact ⟨arg, accept_eq_some_iff.1 accepted⟩

theorem convert_of_carries {arg : t.Arg} (carries : t.Carries v arg) (position : Nat) :
    t.convert v position = .ok arg := by
  rw [convert, accept_eq_some_iff.2 carries]

theorem convert_of_not_takes (refused : ¬t.Takes v) (position : Nat) :
    t.convert v position = .error
      { cause := .typeMismatch t.name v.typeName, notes := ["argument " ++ position.repr] } := by
  rw [convert, accept_eq_none_iff.2 refused]
  rfl

end ParamType

@[reducible]
def Arguments : List ParamType → Type
  | [] => Unit
  | t :: ts => t.Arg × Arguments ts

/-- Whether arguments are the contents of values, one by one. -/
def Arguments.Carried : (params : List ParamType) → List Value → Arguments params → Prop
  | [], args, _ => args = []
  | _ :: _, [], _ => False
  | t :: ts, v :: vs, arguments => t.Carries v arguments.1 ∧ Carried ts vs arguments.2

/-- The result of a function of several arguments. -/
def Signature.apply {ρ : Type} : {params : List ParamType} → Signature ρ params →
    Arguments params → ρ
  | [], body, _ => body
  | _ :: _, body, arguments => Signature.apply (body arguments.1) arguments.2

theorem Arguments.Carried.exists_cons {t : ParamType} {ts : List ParamType} {args : List Value}
    {arguments : Arguments (t :: ts)} (carried : Arguments.Carried (t :: ts) args arguments) :
    ∃ v vs, args = v :: vs ∧ t.Carries v arguments.1 ∧ Carried ts vs arguments.2 := by
  cases args with
  | nil => exact carried.elim
  | cons v vs => exact ⟨v, vs, rfl, carried⟩

theorem Arguments.Carried.length_eq {params : List ParamType} {args : List Value}
    {arguments : Arguments params} (carried : Arguments.Carried params args arguments) :
    args.length = params.length := by
  induction params generalizing args with
  | nil => exact congrArg List.length carried
  | cons t ts ih =>
    cases args with
    | nil => exact carried.elim
    | cons v vs => exact congrArg (· + 1) (ih carried.2)

/-- The leftmost value that its parameter does not take. -/
structure FirstMisfit (params : List ParamType) (args : List Value) (index : Nat) (t : ParamType)
    (v : Value) : Prop where
  param : params[index]? = some t
  arg : args[index]? = some v
  refused : ¬t.Takes v
  before : List.Forall₂ ParamType.Takes (params.take index) (args.take index)

section Misfit

variable {t u : ParamType} {ts params : List ParamType} {v x : Value} {vs args : List Value}

theorem FirstMisfit.head (refused : ¬t.Takes v) : FirstMisfit (t :: ts) (v :: vs) 0 t v :=
  ⟨rfl, rfl, refused, .nil⟩

theorem FirstMisfit.tail {index : Nat} (takes : t.Takes v)
    (misfit : FirstMisfit ts vs index u x) :
    FirstMisfit (t :: ts) (v :: vs) (index + 1) u x :=
  ⟨misfit.param, misfit.arg, misfit.refused, .cons takes misfit.before⟩

/-- Values of the right number that are not all taken have a leftmost one that is not. -/
theorem exists_firstMisfit (count : args.length = params.length)
    (refused : ¬List.Forall₂ ParamType.Takes params args) :
    ∃ index t v, FirstMisfit params args index t v := by
  induction params generalizing args with
  | nil =>
    obtain rfl := List.length_eq_zero_iff.1 count
    exact absurd .nil refused
  | cons t ts ih =>
    obtain ⟨v, vs, rfl⟩ := List.exists_cons_of_length_eq_add_one count
    by_cases takes : t.Takes v
    · obtain ⟨index, u, x, misfit⟩ :=
        ih (Nat.succ.inj count) fun rest => refused (.cons takes rest)
      exact ⟨index + 1, u, x, misfit.tail takes⟩
    · exact ⟨0, t, v, .head takes⟩

end Misfit

theorem exists_carried {params : List ParamType} {args : List Value}
    (takes : List.Forall₂ ParamType.Takes params args) :
    ∃ arguments, Arguments.Carried params args arguments := by
  induction takes with
  | nil => exact ⟨(), rfl⟩
  | cons head _ ih =>
    obtain ⟨arg, carries⟩ := head.exists_carries
    obtain ⟨rest, carried⟩ := ih
    exact ⟨(arg, rest), carries, carried⟩

namespace Native

theorem applyFrom_of_carried {ρ : Type} {params : List ParamType} {args : List Value}
    {arguments : Arguments params} (carried : Arguments.Carried params args arguments)
    (body : Signature ρ params) (position : Nat) :
    applyFrom position params body args = .ok (Signature.apply body arguments) := by
  induction params generalizing args position with
  | nil => rfl
  | cons t ts ih =>
    cases args with
    | nil => exact carried.elim
    | cons v vs =>
      obtain ⟨arg, rest⟩ := arguments
      rw [applyFrom, ParamType.convert_of_carries carried.1]
      exact ih carried.2 (body arg) (position + 1)

theorem applyFrom_of_misfit {ρ : Type} {params : List ParamType} {args : List Value} {index : Nat}
    {t : ParamType} {v : Value} (misfit : FirstMisfit params args index t v)
    (body : Signature ρ params) (position : Nat) :
    applyFrom position params body args = .error
      { cause := .typeMismatch t.name v.typeName
        notes := ["argument " ++ (position + index).repr] } := by
  induction params generalizing args index position with
  | nil => cases misfit.param
  | cons head ts ih =>
    cases args with
    | nil => cases misfit.arg
    | cons first vs =>
      cases index with
      | zero =>
        obtain rfl : head = t := Option.some.inj misfit.param
        obtain rfl : first = v := Option.some.inj misfit.arg
        rw [applyFrom, ParamType.convert_of_not_takes misfit.refused]
        rfl
      | succ index =>
        -- A value in front of the misfit is taken, so its conversion is not what fails.
        obtain ⟨takes, before⟩ := List.forall₂_cons.1 misfit.before
        obtain ⟨arg, carries⟩ := takes.exists_carries
        rw [applyFrom, ParamType.convert_of_carries carries, Nat.add_comm index 1,
          ← Nat.add_assoc]
        exact ih ⟨misfit.param, misfit.arg, misfit.refused, before⟩ (body arg) (position + 1)

theorem invoke_of_carried {params : List ParamType} {args : List Value}
    {arguments : Arguments params} (carried : Arguments.Carried params args arguments)
    (body : Signature (Host Value) params) :
    (typed params body).invoke args = Signature.apply body arguments := by
  rw [invoke, if_pos carried.length_eq, applyFrom_of_carried carried]
  exact pure_bind _ _

theorem run_invoke_of_misfit {params : List ParamType} {args : List Value} {index : Nat}
    {t : ParamType} {v : Value} (misfit : FirstMisfit params args index t v)
    (count : args.length = params.length) (body : Signature (Host Value) params) (w : World) :
    ((typed params body).invoke args).run w =
      (.error (.error
        { cause := .typeMismatch t.name v.typeName
          notes := ["argument " ++ (index + 1).repr] }), w) := by
  rw [invoke, if_pos count, applyFrom_of_misfit misfit, Nat.add_comm 1 index, Host.run_bind]
  rfl

theorem apply_giving {ρ : Type} [ToValue ρ] {params : List ParamType}
    (body : Signature (Host ρ) params) (arguments : Arguments params) :
    Signature.apply (giving params body) arguments =
      Signature.apply body arguments >>= Host.give := by
  induction params with
  | nil => rfl
  | cons t ts ih => exact ih (body arguments.1) arguments.2

end Native

end ScriptHost
