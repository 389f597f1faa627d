import ScriptHost.Registry.Table

/-!
Registration of host functions. Functions are kept in the order in which their names first appeared.
A registration that fails leaves everything as it was; of several registrations made together,
those before the first failure stay.
-/

namespace ScriptHost

/-- Why a registration fails. -/
inductive RegistryError
  | duplicate (function : String)
  | paramCountMismatch (function : String) (labels arity : Nat)
  | alreadyInstalled
deriving DecidableEq

def RegistryError.message : RegistryError → String
  | duplicate function => "native function `" ++ function ++ "` is already registered"
  | paramCountMismatch function labels arity =>
    "native function `" ++ function ++ "` has " ++ labels.repr ++ " parameter labels but takes " ++
      arity.repr ++ " arguments"
  | alreadyInstalled => "a global native registry is already installed"

/-- What happens when a name is registered a second time: it is refused, or the new function takes
the place of the old one. -/
inductive DuplicatePolicy
  | reject
  | replace
deriving DecidableEq

theorem DuplicatePolicy.reject_or_replace (policy : DuplicatePolicy) :
    policy = reject ∨ policy = replace := by
  cases policy with
  | reject => exact .inl rfl
  | replace => exact .inr rfl

/-- The registrations made so far, and how the registry made from them is to behave. -/
structure RegistryBuilder where
  table : FunctionTable := {}
  policy : DuplicatePolicy := .reject
  catchCrashes : Bool := true

namespace RegistryBuilder

/-- Sets what happens to names that are registered again from now on. -/
def withPolicy (b : RegistryBuilder) (policy : DuplicatePolicy) : RegistryBuilder :=
  { b with policy }

def size (b : RegistryBuilder) : Nat :=
  b.table.entries.length

def isEmpty (b : RegistryBuilder) : Bool :=
  b.table.entries.isEmpty

/-- Whether a registration labels either none or all of the parameters. -/
def LabelsFit (r : Registration) : Prop :=
  r.descriptor.labels = [] ∨ r.descriptor.labels.length = r.function.arity

instance (r : Registration) : Decidable (LabelsFit r) :=
  inferInstanceAs (Decidable (_ ∨ _))

/-- Registers a function. Labels are checked before the name. A replaced function leaves its place
to the new one. -/
def register (b : RegistryBuilder) (r : Registration) : Except RegistryError RegistryBuilder :=
  if ¬LabelsFit r then
    .error (.paramCountMismatch r.descriptor.qualifiedName r.descriptor.labels.length
      r.function.arity)
  else
    match found : b.table.slot? r.key, b.policy with
    | some _, .reject => .error (.duplicate r.descriptor.qualifiedName)
    | some slot, .replace => .ok { b with table := b.table.replace slot r found }
    | none, _ => .ok { b with table := b.table.append r found }

section Register

variable {b : RegistryBuilder} {r : Registration}

theorem register_of_not_labelsFit (misfit : ¬LabelsFit r) :
    b.register r = .error (.paramCountMismatch r.descriptor.qualifiedName
      r.descriptor.labels.length r.function.arity) :=
  if_pos misfit

theorem register_of_reject (fit : LabelsFit r) {slot : Nat} (found : b.table.slot? r.key = some slot)
    (reject : b.policy = .reject) :
    b.register r = .error (.duplicate r.descriptor.qualifiedName) := by
  rw [register, if_neg (not_not_intro fit)]
  split
  next => rfl
  next replace => rw [reject] at replace; cases replace
  next fresh => rw [found] at fresh; cases fresh

theorem register_of_replace (fit : LabelsFit r) {slot : Nat}
    (found : b.table.slot? r.key = some slot) (replace : b.policy = .replace) :
    b.register r = .ok { b with table := b.table.replace slot r found } := by
  rw [register, if_neg (not_not_intro fit)]
  split
  next reject => rw [replace] at reject; cases reject
  next other here _ =>
    obtain rfl : slot = other := Option.some.inj (found.symm.trans here)
    rfl
  next fresh => rw [found] at fresh; cases fresh

theorem register_of_fresh (fit : LabelsFit r) (fresh : b.table.slot? r.key = none) :
    b.register r = .ok { b with table := b.table.append r fresh } := by
  rw [register, if_neg (not_not_intro fit)]
  split
  next found _ => rw [fresh] at found; cases found
  next found _ => rw [fresh] at found; cases found
  next => rfl

/-- What a registration comes to if it succeeds. -/
theorem register_cases {extended : RegistryBuilder} (success : b.register r = .ok extended) :
    LabelsFit r ∧
      ((∃ slot found, b.policy = .replace ∧
          extended = { b with table := b.table.replace slot r found }) ∨
        ∃ fresh, extended = { b with table := b.table.append r fresh }) := by
  by_cases fit : LabelsFit r
  · refine ⟨fit, ?_⟩
    rcases Option.eq_none_or_eq_some (b.table.slot? r.key) with fresh | ⟨slot, found⟩
    · rw [register_of_fresh fit fresh] at success
      exact .inr ⟨fresh, (Except.ok.inj success).symm⟩
    · rcases b.policy.reject_or_replace with reject | replace
      · rw [register_of_reject fit found reject] at success
        cases success
      · rw [register_of_replace fit found replace] at success
        exact .inl ⟨slot, found, replace, (Except.ok.inj success).symm⟩
  · rw [register_of_not_labelsFit fit] at success
    cases success

end Register

/-- Registers functions one after the other up to the first failure, which is reported together with
what has been registered before it. -/
def registerAll (b : RegistryBuilder) : List Registration → RegistryBuilder × Option RegistryError
  | [] => (b, none)
  | r :: rest =>
    match b.register r with
    | .ok extended => extended.registerAll rest
    | .error e => (b, some e)

end RegistryBuilder

end ScriptHost
