import ScriptHost.Native.Param
import ScriptHost.Native.Result

/-!
Host functions that scripts can call. A typed function gets its arguments converted to its parameter
types, and runs only if every one of them converts; a raw function gets the argument values as they
are and checks them itself.
-/

namespace ScriptHost

/-- Functions of arguments of the given types, one after the other. -/
@[reducible]
def Signature (ρ : Type) : List ParamType → Type
  | [] => ρ
  | t :: ts => t.Arg → Signature ρ ts

/-- A host function. Its arity is stated with it; for a typed function it is stated beside the
parameter types, which have to be as many. -/
inductive Native
  | typed (params : List ParamType) (body : Signature (Host Value) params)
      (arity : Nat := params.length) (counted : params.length = arity := by rfl)
  | raw (arity : Nat) (body : List Value → Host Value)

namespace Native

/-- Turns the result of a function of several arguments into a value. -/
def giving {ρ : Type} [ToValue ρ] :
    (params : List ParamType) → Signature (Host ρ) params → Signature (Host Value) params
  | [], body => body >>= Host.give
  | _ :: ts, body => fun arg => giving ts (body arg)

/-- The typed host function of a given body, whatever result the body has. -/
def ofBody {ρ : Type} [ToValue ρ] (params : List ParamType) (body : Signature (Host ρ) params) :
    Native :=
  typed params (giving params body)

/-- The type of each parameter. A raw function takes any values. -/
def params : Native → List ParamType
  | typed params _ _ _ => params
  | raw arity _ => List.replicate arity .any

def arity : Native → Nat
  | typed _ _ arity _ => arity
  | raw arity _ => arity

/-- A host function has as many parameter types as it takes arguments. -/
theorem length_params (f : Native) : f.params.length = f.arity := by
  cases f with
  | typed params body arity counted => exact counted
  | raw arity body => exact List.length_replicate

/-- The parameter types of a typed function leave no choice for its arity. -/
theorem typed_or_raw (f : Native) :
    (∃ params body, f = typed params body) ∨ ∃ arity body, f = raw arity body := by
  cases f with
  | typed params body arity counted =>
    subst counted
    exact .inl ⟨params, body, rfl⟩
  | raw arity body => exact .inr ⟨arity, body, rfl⟩

/-- Applies a body to arguments, the first of them at the given position. Conversion goes from left
to right, and the body is reached only when all arguments are converted. -/
def applyFrom {ρ : Type} (position : Nat) :
    (params : List ParamType) → Signature ρ params → List Value → Except EvalError ρ
  | [], body, _ => .ok body
  | t :: ts, body, v :: vs =>
    match t.convert v position with
    | .ok arg => applyFrom (position + 1) ts (body arg) vs
    | .error e => .error e
  | t :: ts, _, [] => .error { cause := .arityMismatch "" (t :: ts).length 0 }

/-- Runs a host function. A typed function refuses a wrong number of arguments. -/
def invoke (f : Native) (args : List Value) : Host Value :=
  match f with
  | raw _ body => body args
  | typed params body arity _ =>
    if args.length = params.length then do
      let action ← Host.ofExcept (applyFrom 1 params body args)
      action
    else
      Host.fail (.arityMismatch "" arity args.length)

end Native

end ScriptHost
