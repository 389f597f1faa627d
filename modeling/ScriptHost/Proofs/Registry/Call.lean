import ScriptHost.Library.Standard
import ScriptHost.Proofs.Native.Arguments

/-!
The checks of a call and their order. An unknown name comes before a wrong number of arguments, and
that before an argument of the wrong type, of which the leftmost is told. A call that fails a check
leaves the world as it is, whatever the body of the function would do; one that passes them all is
one run of the body.
-/

namespace ScriptHost.Registry

variable {r : Registry} {space name : String} {entry : Registration} {args : List Value}

theorem find?_eq_some_iff :
    r.find? space name = some entry ↔ entry ∈ r.entries ∧ entry.key = (space, name) :=
  FunctionTable.find?_eq_some_iff

theorem find?_eq_none_iff :
    r.find? space name = none ↔ ∀ entry ∈ r.entries, entry.key ≠ (space, name) :=
  FunctionTable.find?_eq_none_iff

theorem call_of_unknown (unknown : r.find? space name = none) :
    r.call space name args = Host.fail (.undefinedFunction space name) := by
  rw [call, unknown]

theorem call_of_find? (found : r.find? space name = some entry) :
    r.call space name args = r.callEntry entry args := by
  rw [call, found]

theorem call_of_mem (member : entry ∈ r.entries) :
    r.call entry.descriptor.space entry.descriptor.name args = r.callEntry entry args :=
  call_of_find? (find?_eq_some_iff.2 ⟨member, rfl⟩)

theorem run_callEntry_of_miscount (miscount : args.length ≠ entry.function.arity) (w : World) :
    (r.callEntry entry args).run w =
      (.error (.error { cause := .arityMismatch entry.descriptor.qualifiedName
                          entry.function.arity args.length }), w) := by
  rw [callEntry, if_neg miscount, Host.run_fail]

theorem callEntry_of_count (count : args.length = entry.function.arity) :
    r.callEntry entry args =
      (entry.function.invoke args).mapAbort (r.explain entry.descriptor) := by
  rw [callEntry, if_pos count]

section Typed

variable {params : List ParamType} {body : Signature (Host Value) params}

theorem run_callEntry_of_misfit (typed : entry.function = .typed params body)
    (count : args.length = params.length) {index : Nat} {t : ParamType} {v : Value}
    (misfit : FirstMisfit params args index t v) (w : World) :
    (r.callEntry entry args).run w =
      (.error (.error
        { cause := .typeMismatch t.name v.typeName
          notes := ["argument " ++ (index + 1).repr,
            "in call to " ++ entry.descriptor.qualifiedName] }), w) := by
  rw [callEntry_of_count (by rw [typed]; exact count), typed, Host.run_mapAbort,
    Native.run_invoke_of_misfit misfit count]
  rfl

theorem callEntry_of_carried (typed : entry.function = .typed params body)
    {arguments : Arguments params} (carried : Arguments.Carried params args arguments) :
    r.callEntry entry args =
      (Signature.apply body arguments).mapAbort (r.explain entry.descriptor) := by
  rw [callEntry_of_count (by rw [typed]; exact carried.length_eq), typed,
    Native.invoke_of_carried carried]

end Typed

section Body

variable {ρ : Type} [ToValue ρ] {params : List ParamType}

theorem callEntry_ofBody_of_carried {d : Descriptor} {body : Signature (Host ρ) params}
    {arguments : Arguments params} (carried : Arguments.Carried params args arguments) :
    r.callEntry ⟨d, .ofBody params body⟩ args =
      (Signature.apply body arguments >>= Host.give).mapAbort (r.explain d) := by
  rw [callEntry_of_carried rfl carried, Native.apply_giving]

/-- A call is refused, and then it is refused in every world, or it is one run of the body. -/
theorem callEntry_ofBody_cases (r : Registry) (d : Descriptor) (params : List ParamType)
    (body : Signature (Host ρ) params) (args : List Value) :
    (∃ e, ∀ w, (r.callEntry ⟨d, .ofBody params body⟩ args).run w = (.error (.error e), w)) ∨
      ∃ arguments, Arguments.Carried params args arguments ∧
        r.callEntry ⟨d, .ofBody params body⟩ args =
          (Signature.apply body arguments >>= Host.give).mapAbort (r.explain d) := by
  by_cases count : args.length = params.length
  · by_cases takes : List.Forall₂ ParamType.Takes params args
    · obtain ⟨arguments, carried⟩ := exists_carried takes
      exact .inr ⟨arguments, carried, callEntry_ofBody_of_carried carried⟩
    · obtain ⟨index, t, v, misfit⟩ := exists_firstMisfit count takes
      exact .inl ⟨_, run_callEntry_of_misfit rfl count misfit⟩
  · exact .inl ⟨_, run_callEntry_of_miscount count⟩

end Body

theorem callEntry_of_raw {arity : Nat} {body : List Value → Host Value}
    (raw : entry.function = .raw arity body) (count : args.length = arity) :
    r.callEntry entry args = (body args).mapAbort (r.explain entry.descriptor) := by
  rw [callEntry_of_count (by rw [raw]; exact count), raw]
  rfl

/-- What a call of any function with any arguments comes to. The first check that fails gives the
error and nothing happens to the world; if none fails, the call is one run of the body on the
contents of the arguments, or on the arguments themselves for a raw function. -/
theorem call_spec (r : Registry) (space name : String) (args : List Value) :
    ((∀ entry ∈ r.entries, entry.key ≠ (space, name)) → ∀ w,
      (r.call space name args).run w =
        (.error (.error { cause := .undefinedFunction space name }), w)) ∧
    ∀ entry ∈ r.entries, entry.key = (space, name) →
      (args.length ≠ entry.function.arity → ∀ w,
        (r.call space name args).run w =
          (.error (.error { cause := .arityMismatch (space ++ "." ++ name)
                              entry.function.arity args.length }), w)) ∧
      (∀ params body, entry.function = .typed params body → args.length = params.length →
        (¬List.Forall₂ ParamType.Takes params args →
          ∃ index t v, FirstMisfit params args index t v ∧ ∀ w,
            (r.call space name args).run w =
              (.error (.error
                { cause := .typeMismatch t.name v.typeName
                  notes := ["argument " ++ (index + 1).repr,
                    "in call to " ++ (space ++ "." ++ name)] }), w)) ∧
        (List.Forall₂ ParamType.Takes params args →
          ∃ arguments, Arguments.Carried params args arguments ∧
            r.call space name args =
              (Signature.apply body arguments).mapAbort (r.explain entry.descriptor))) ∧
      ∀ arity body, entry.function = .raw arity body → args.length = arity →
        r.call space name args = (body args).mapAbort (r.explain entry.descriptor) := by
  constructor
  · intro unknown w
    rw [call_of_unknown (find?_eq_none_iff.2 unknown), Host.run_fail]
  intro entry member key
  rw [call_of_find? (find?_eq_some_iff.2 ⟨member, key⟩)]
  have qualified : space ++ "." ++ name = entry.descriptor.qualifiedName := by
    rw [Descriptor.qualifiedName, ← (Prod.mk.inj key).1, ← (Prod.mk.inj key).2]
  rw [qualified]
  refine ⟨run_callEntry_of_miscount, fun params body typed count => ⟨?_, ?_⟩, ?_⟩
  · intro refused
    obtain ⟨index, t, v, misfit⟩ := exists_firstMisfit count refused
    exact ⟨index, t, v, misfit, run_callEntry_of_misfit typed count misfit⟩
  · intro takes
    obtain ⟨arguments, carried⟩ := exists_carried takes
    exact ⟨arguments, carried, callEntry_of_carried typed carried⟩
  · intro arity body raw count
    exact callEntry_of_raw raw count

theorem call_textLength_integer :
    (Library.standardRegistry.call "core" "strLen" [.integer 0]).run
        { store := {}, files := { nodes := #[], workingNode := ⟨0⟩, workingPath := [] } } =
      (.error (.error
        { cause := .typeMismatch "string" "integer"
          notes := ["argument 1", "in call to core.strLen"] }),
        { store := {}, files := { nodes := #[], workingNode := ⟨0⟩, workingPath := [] } }) := by
  have member : Library.Core.registrations[4] ∈ Library.standardRegistry.entries := by
    rw [Library.entries_standardRegistry]
    exact List.mem_append_left _ (List.getElem_mem _)
  have checked := (call_spec Library.standardRegistry "core" "strLen" [.integer 0]).2 _ member rfl
  obtain ⟨index, t, v, misfit, run⟩ := (checked.2.1 [.string] _ rfl rfl).1 (by decide)
  cases index with
  | zero =>
    obtain rfl := Option.some.inj misfit.param
    obtain rfl := Option.some.inj misfit.arg
    exact run _
  | succ index => cases misfit.param

end ScriptHost.Registry
