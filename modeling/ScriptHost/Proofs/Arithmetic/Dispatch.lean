import Mathlib.Data.Rat.Floor
import ScriptHost.Arithmetic
import ScriptHost.World

/-!
Which rules an operation on two values follows. The tags of the operands decide it before anything
else is looked at: different tags are refused whatever the values are, and so is one tag that the
operator does not apply to; the rest is arithmetic on two numbers of one kind.
-/

namespace ScriptHost

/-- The types that arithmetic is done on. -/
def Tag.IsNumeric (tag : Tag) : Prop :=
  tag = .integer ∨ tag = .float ∨ tag = .byte

/-- Whether two values of a type can be combined. Remainders are taken of integers only. -/
def BinaryOp.AppliesTo (op : BinaryOp) (tag : Tag) : Prop :=
  tag.IsNumeric ∧ (op = .mod → tag = .integer)

namespace Value

variable {v : Value}

theorem tag_eq_integer_iff : v.tag = .integer ↔ ∃ n, v = .integer n := by
  cases v <;> simp [tag]

theorem tag_eq_float_iff : v.tag = .float ↔ ∃ x, v = .float x := by
  cases v <;> simp [tag]

theorem tag_eq_byte_iff : v.tag = .byte ↔ ∃ x, v = .byte x := by
  cases v <;> simp [tag]

end Value

namespace Arithmetic

variable {op : BinaryOp} {a b v : Value}

/-- The rules that an operation can follow, with the result by each of them. -/
inductive Dispatched (op : BinaryOp) : Value → Value → Except EvalError.Cause Value → Prop
  | integers (m n : Integer) : Dispatched op (.integer m) (.integer n) (integers op m n)
  | floats (x y : Float) : Dispatched op (.float x) (.float y) (floats op x y)
  | bytes (x y : UInt8) : Dispatched op (.byte x) (.byte y) (bytes op x y)
  | notNumeric {a b : Value} (same : a.tag = b.tag) (other : ¬a.tag.IsNumeric) :
    Dispatched op a b (.error (.invalidBinaryOp a.typeName op.symbol))
  | mixed {a b : Value} (differ : a.tag ≠ b.tag) :
    Dispatched op a b (.error (.binaryTypeMismatch a.typeName b.typeName))

theorem dispatched_apply (op : BinaryOp) (a b : Value) : Dispatched op a b (apply op a b) := by
  unfold apply
  split
  next m n => exact .integers m n
  next x y => exact .floats x y
  next x y => exact .bytes x y
  next noIntegers noFloats noBytes =>
    split
    next same =>
      refine .notNumeric same ?_
      rintro (isInteger | isFloat | isByte)
      · obtain ⟨m, rfl⟩ := Value.tag_eq_integer_iff.1 isInteger
        obtain ⟨n, rfl⟩ := Value.tag_eq_integer_iff.1 same.symm
        exact noIntegers m n rfl rfl
      · obtain ⟨x, rfl⟩ := Value.tag_eq_float_iff.1 isFloat
        obtain ⟨y, rfl⟩ := Value.tag_eq_float_iff.1 same.symm
        exact noFloats x y rfl rfl
      · obtain ⟨x, rfl⟩ := Value.tag_eq_byte_iff.1 isByte
        obtain ⟨y, rfl⟩ := Value.tag_eq_byte_iff.1 same.symm
        exact noBytes x y rfl rfl
    next differ => exact .mixed differ

/-! ### Refusals -/

theorem apply_of_tag_ne (differ : a.tag ≠ b.tag) :
    apply op a b = .error (.binaryTypeMismatch a.typeName b.typeName) := by
  have dispatched := dispatched_apply op a b
  generalize apply op a b = result at dispatched
  cases dispatched with
  | mixed => rfl
  | notNumeric same => exact absurd same differ
  | _ => exact absurd rfl differ

theorem apply_of_not_appliesTo (same : a.tag = b.tag) (other : ¬op.AppliesTo a.tag) :
    apply op a b = .error (.invalidBinaryOp a.typeName op.symbol) := by
  have dispatched := dispatched_apply op a b
  generalize apply op a b = result at dispatched
  cases dispatched with
  | integers m n => exact absurd ⟨.inl rfl, fun _ => rfl⟩ other
  | floats x y =>
    cases op with
    | mod => rfl
    | _ => exact absurd ⟨.inr (.inl rfl), nofun⟩ other
  | bytes x y =>
    cases op with
    | mod => rfl
    | _ => exact absurd ⟨.inr (.inr rfl), nofun⟩ other
  | notNumeric => rfl
  | mixed differ => exact absurd same differ

/-! ### Arithmetic on numbers -/

/-- The causes that lie in the values of operands and not in their types. -/
inductive NumberError : EvalError.Cause → Prop
  | divisionByZero : NumberError .divisionByZero
  | moduloByZero : NumberError .moduloByZero
  | integerOverflow (operation : String) : NumberError (.integerOverflow operation)

/-- There is a result of the type, or the numbers do not allow one. -/
inductive Settles (tag : Tag) : Except EvalError.Cause Value → Prop
  | ok {v : Value} (same : v.tag = tag) : Settles tag (.ok v)
  | error {cause : EvalError.Cause} (number : NumberError cause) : Settles tag (.error cause)

theorem settles_checked (operation : String) (given : Option Integer) :
    Settles .integer (checked operation given) := by
  cases given with
  | none => exact .error (.integerOverflow operation)
  | some n => exact .ok rfl

theorem settles_integers (op : BinaryOp) (m n : Integer) :
    Settles .integer (integers op m n) := by
  cases op with
  | add | sub | mul => exact settles_checked ..
  | div =>
    dsimp only [integers]
    split
    next => exact .error .divisionByZero
    next => exact settles_checked ..
  | mod =>
    dsimp only [integers]
    split
    next => exact .error .moduloByZero
    next => exact settles_checked ..

theorem exists_floats_eq_ok (other : op ≠ .mod) (x y : Float) :
    ∃ z, floats op x y = .ok (.float z) := by
  cases op with
  | mod => exact absurd rfl other
  | _ => exact ⟨_, rfl⟩

theorem settles_bytes (other : op ≠ .mod) (x y : UInt8) : Settles .byte (bytes op x y) := by
  cases op with
  | add | sub | mul => exact .ok rfl
  | mod => exact absurd rfl other
  | div =>
    dsimp only [bytes]
    split
    next => exact .error .divisionByZero
    next => exact .ok rfl

theorem settles_apply (same : a.tag = b.tag) (applies : op.AppliesTo a.tag) :
    Settles a.tag (apply op a b) := by
  obtain ⟨isNumeric, remainder⟩ := applies
  have dispatched := dispatched_apply op a b
  generalize apply op a b = result at dispatched
  cases dispatched with
  | integers m n => exact settles_integers op m n
  | floats x y =>
    obtain ⟨z, given⟩ := exists_floats_eq_ok (fun isMod => nomatch remainder isMod) x y
    exact given ▸ .ok rfl
  | bytes x y => exact settles_bytes (fun isMod => nomatch remainder isMod) x y
  | notNumeric _ other => exact absurd isNumeric other
  | mixed differ => exact absurd same differ

/-- A result has the one type of both operands. -/
theorem tag_of_apply (ends : apply op a b = .ok v) : v.tag = a.tag ∧ v.tag = b.tag := by
  by_cases same : a.tag = b.tag
  · by_cases applies : op.AppliesTo a.tag
    · have settles := settles_apply same applies
      rw [ends] at settles
      cases settles with
      | ok has => exact ⟨has, has.trans same⟩
    · cases (apply_of_not_appliesTo same applies).symm.trans ends
  · cases (apply_of_tag_ne same).symm.trans ends

end Arithmetic

/-! ### Bytes -/

/-- The result is a byte, which is the exact result up to a multiple of 256. -/
def WrapsAround (exact : Int) (result : Except EvalError Value) : Prop :=
  ∃ c : UInt8, result = .ok (.byte c) ∧ (c.toNat : Int) = exact % 256

/-- Arithmetic on two bytes: it wraps around, but a quotient is the rational one rounded down, which
a zero divisor does not have. There are no remainders. -/
def FollowsByteRules (x y : UInt8) (result : Except EvalError Value) : BinaryOp → Prop
  | .add => WrapsAround (x.toNat + y.toNat) result
  | .sub => WrapsAround (x.toNat - y.toNat) result
  | .mul => WrapsAround (x.toNat * y.toNat) result
  | .div =>
    (result = .error { cause := .divisionByZero } ↔ y.toNat = 0) ∧
      (y.toNat ≠ 0 →
        ∃ c : UInt8, result = .ok (.byte c) ∧ (c.toNat : Int) = ⌊(x.toNat : ℚ) / y.toNat⌋)
  | .mod => result = .error { cause := .invalidBinaryOp Tag.byte.name "%" }

theorem followsByteRules_binary (op : BinaryOp) (x y : UInt8) :
    FollowsByteRules x y (Value.binary op (.byte x) (.byte y)) op := by
  have bound := y.toNat_lt
  cases op with
  | add => exact ⟨x + y, rfl, by rw [UInt8.toNat_add]; omega⟩
  | sub => exact ⟨x - y, rfl, by rw [UInt8.toNat_sub]; omega⟩
  | mul =>
    refine ⟨x * y, rfl, ?_⟩
    rw [UInt8.toNat_mul]
    exact_mod_cast rfl
  | div =>
    have zero_iff : y = 0 ↔ y.toNat = 0 := UInt8.toNat_inj.symm
    by_cases zero : y.toNat = 0
    · obtain rfl := zero_iff.2 zero
      exact ⟨iff_of_true rfl rfl, absurd zero⟩
    · have given : Value.binary .div (.byte x) (.byte y) = .ok (.byte (x / y)) := by
        show (if y = 0 then _ else _ : Except _ _).mapError _ = _
        rw [if_neg (zero_iff.not.2 zero)]
        rfl
      refine ⟨iff_of_false (fun refused => ?_) zero, fun _ => ⟨x / y, given, ?_⟩⟩
      · cases given.symm.trans refused
      · rw [UInt8.toNat_div, Rat.floor_natCast_div_natCast]
        rfl
  | mod => rfl

/-! ### Evaluation -/

theorem binary_eq_ok_iff {op : BinaryOp} {a b v : Value} :
    Value.binary op a b = .ok v ↔ Arithmetic.apply op a b = .ok v := by
  rw [Value.binary]
  cases Arithmetic.apply op a b <;> simp [Except.mapError]

theorem binary_eq_error_iff {op : BinaryOp} {a b : Value} {e : EvalError} :
    Value.binary op a b = .error e ↔
      ∃ cause, Arithmetic.apply op a b = .error cause ∧ e = { cause } := by
  rw [Value.binary]
  cases Arithmetic.apply op a b <;> simp [Except.mapError, eq_comm]

/-- What becomes of an operator and two values, of any types. Different types are refused with the
names of both, and one type that the operator does not apply to with its name and the operator; what
is left fails for the numbers only. A result has the type of the operands: bytes wrap around, and
floats have one unless their remainder is asked for. An error is worded by its cause alone, and the
world stays as it is. -/
theorem binary_dispatch (op : BinaryOp) (a b : Value) :
    (a.tag ≠ b.tag → Value.binary op a b =
      .error { cause := .binaryTypeMismatch a.typeName b.typeName }) ∧
    (a.tag = b.tag → ¬op.AppliesTo a.tag → Value.binary op a b =
      .error { cause := .invalidBinaryOp a.typeName op.symbol }) ∧
    (a.tag = b.tag → op.AppliesTo a.tag → ∀ e, Value.binary op a b = .error e →
      Arithmetic.NumberError e.cause) ∧
    (∀ v, Value.binary op a b = .ok v → v.tag = a.tag ∧ v.tag = b.tag) ∧
    (∀ x y, a = .byte x → b = .byte y → FollowsByteRules x y (Value.binary op a b) op) ∧
    (∀ x y, a = .float x → b = .float y → op ≠ .mod →
      ∃ z, Value.binary op a b = .ok (.float z)) ∧
    (∀ e, Value.binary op a b = .error e → e.notes = [] ∧ e.message = e.cause.message) ∧
    ∀ w, ((Host.ofExcept (Value.binary op a b)).run w).2 = w := by
  refine ⟨fun differ => ?mixed, fun same other => ?refused,
    fun same applies e failed => ?values, fun v given => ?types, fun x y left right => ?bytes,
    fun x y left right other => ?floats, fun e failed => ?errors, fun w => ?world⟩
  case mixed => rw [Value.binary, Arithmetic.apply_of_tag_ne differ]; rfl
  case refused => rw [Value.binary, Arithmetic.apply_of_not_appliesTo same other]; rfl
  case values =>
    obtain ⟨cause, ends, rfl⟩ := binary_eq_error_iff.1 failed
    have settles := Arithmetic.settles_apply same applies
    rw [ends] at settles
    cases settles with
    | error number => exact number
  case types => exact Arithmetic.tag_of_apply (binary_eq_ok_iff.1 given)
  case bytes =>
    subst left right
    exact followsByteRules_binary op x y
  case floats =>
    subst left right
    obtain ⟨z, given⟩ := Arithmetic.exists_floats_eq_ok other x y
    exact ⟨z, binary_eq_ok_iff.2 given⟩
  case errors =>
    obtain ⟨cause, _, rfl⟩ := binary_eq_error_iff.1 failed
    exact ⟨rfl, rfl⟩
  case world => rw [Host.run_ofExcept]

end ScriptHost
