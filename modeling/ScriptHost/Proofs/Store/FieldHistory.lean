import Mathlib.Data.List.Sort
import ScriptHost.Proofs.Store.Sharing
import ScriptHost.Proofs.Text.ByteOrder
import ScriptHost.Proofs.Value.SameFields

/-!
The history of a struct: the bindings it was made from, and then all operations on it, through
whatever slots. The fields are those that were written and not removed since, each with its last
value, and nothing else of the history can be seen.
-/

namespace ScriptHost

namespace Program

open Store

/-! ### The last write -/

/-- The field that an operation writes or removes. -/
def field? : Effect → Option (StructRef × String)
  | .setField struct name _ | .removeField struct name => some (struct, name)
  | _ => none

def written? : Effect → Option Value
  | .setField _ _ value => some value
  | _ => none

/-- The value was the last to be written to the field, and the field was not removed since. -/
def LastWritten (ref : StructRef) (name : String) (v : Value) (history : List Effect) : Prop :=
  ∃ before after, history = before ++ .setField ref name v :: after ∧
    ∀ effect ∈ after, field? effect ≠ some (ref, name)

variable {ref other : StructRef} {name : String} {v : Value} {history others : List Effect}

theorem eq_setField {effect : Effect} (field : field? effect = some (ref, name))
    (written : written? effect = some v) : effect = .setField ref name v := by
  cases effect with
  | setField _ _ _ =>
    cases field
    cases written
    rfl
  | _ => cases written

theorem lastWritten_nil : ¬LastWritten ref name v [] := by
  rintro ⟨before, after, split, -⟩
  exact List.append_ne_nil_of_right_ne_nil before (List.cons_ne_nil _ after) split.symm

theorem lastWritten_concat {effect : Effect} :
    LastWritten ref name v (history ++ [effect]) ↔
      if field? effect = some (ref, name) then written? effect = some v
      else LastWritten ref name v history := by
  constructor
  · rintro ⟨before, after, split, untouched⟩
    -- The last operation is the write, or comes after it and leaves the field alone.
    rcases List.eq_nil_or_concat after with rfl | ⟨front, last, rfl⟩
    · obtain ⟨-, same⟩ := List.append_inj' split rfl
      obtain rfl := List.singleton_inj.1 same
      have field : field? (.setField ref name v) = some (ref, name) := rfl
      rw [if_pos field]
      rfl
    · rw [List.concat_eq_append, ← List.cons_append, ← List.append_assoc] at split
      obtain ⟨rfl, same⟩ := List.append_inj' split rfl
      obtain rfl := List.singleton_inj.1 same
      rw [List.concat_eq_append] at untouched
      rw [if_neg (untouched effect (List.mem_append_right front (List.mem_singleton_self effect)))]
      exact ⟨before, front, rfl, fun e member => untouched e (List.mem_append_left _ member)⟩
  · split
    next field =>
      intro written
      rw [eq_setField field written]
      exact ⟨history, [], rfl, List.forall_mem_nil _⟩
    next field =>
      rintro ⟨before, after, rfl, untouched⟩
      refine ⟨before, after ++ [effect], by simp, fun e member => ?_⟩
      rcases List.mem_append.1 member with old | new
      · exact untouched e old
      · exact List.mem_singleton.1 new ▸ field

/-- An operation changes what a struct has in a field only if it writes or removes this field. -/
theorem lookup_editFields (effect : Effect) (fields : Fields) :
    (if target? effect = some (.struct ref) then editFields effect fields else fields).lookup name =
      if field? effect = some (ref, name) then written? effect else fields.lookup name := by
  cases effect with
  | setField changed field value =>
    by_cases here : changed = ref
    · subst here
      by_cases same : field = name
      · subst same
        simp [target?, editFields, field?, written?]
      · simp [target?, editFields, field?, same, Finmap.lookup_insert_of_ne _ (Ne.symm same)]
    · simp [target?, field?, here]
  | removeField changed field =>
    by_cases here : changed = ref
    · subst here
      by_cases same : field = name
      · subst same
        simp [target?, editFields, field?, written?]
      · simp [target?, editFields, field?, same, Finmap.lookup_erase_ne (Ne.symm same)]
    · simp [target?, field?, here]
  | _ => simp [target?, field?]

theorem editedFields_append (ref : StructRef) (history others : List Effect) (fields : Fields) :
    editedFields ref (history ++ others) fields =
      editedFields ref others (editedFields ref history fields) := by
  rw [editedFields, List.filter_append, List.foldl_append]
  rfl

theorem editedFields_singleton (ref : StructRef) (effect : Effect) (fields : Fields) :
    editedFields ref [effect] fields =
      if target? effect = some (.struct ref) then editFields effect fields else fields := by
  by_cases met : target? effect = some (.struct ref) <;> simp [editedFields, met]

/-- What a struct without fields comes to have is what was last written. -/
theorem lookup_editedFields_iff :
    (editedFields ref history ∅).lookup name = some v ↔ LastWritten ref name v history := by
  -- From the end, because the last operation on a field hides the earlier ones.
  induction history using List.reverseRecOn with
  | nil => exact iff_of_false (fun found => by cases found) lastWritten_nil
  | append_singleton history effect ih =>
    rw [editedFields_append, editedFields_singleton, lookup_editFields, lastWritten_concat]
    split
    · rfl
    · exact ih

/-! ### Histories -/

/-- The bindings that a struct is made from, as writes to it. -/
def writes (ref : StructRef) (fields : List (String × Value)) : List Effect :=
  fields.map fun field => .setField ref field.1 field.2

/-- The struct was made when programs could be run already, and programs were run since then. Its
history is made of the bindings that it was made from and of all that the programs did after. -/
inductive HasHistory (ref : StructRef) : State Store → List Effect → Prop
  | made {m : State Store} (sound : Sound m) (fields : List (String × Nat)) (into : Nat)
      (new : (step perform m ⟨.struct fields, into⟩).1 = .found (some (.struct ref))) :
      HasHistory ref (step perform m ⟨.struct fields, into⟩).2
        (writes ref (fields.map fun field => (field.1, m.slots field.2)))
  | run {m : State Store} {history : List Effect} (told : HasHistory ref m history)
      (later : List Instruction) :
      HasHistory ref (run perform m later).2 (history ++ effects perform m later)

variable {now : State Store}

theorem editedFields_writes (ref : StructRef) (bindings : List (String × Value)) :
    editedFields ref (writes ref bindings) ∅ = (NameMap.ofList bindings).toFinmap := by
  have all (m : NameMap Value) : editedFields ref (writes ref bindings) m.toFinmap =
      (bindings.foldl (fun m binding => m.insert binding.1 binding.2) m).toFinmap := by
    induction bindings generalizing m with
    | nil => rfl
    | cons binding rest ih =>
      rw [List.foldl_cons, ← ih, NameMap.toFinmap_insert]
      simp [writes, editedFields, target?, editFields]
  exact all ∅

theorem HasHistory.sound (told : HasHistory ref now history) : Sound now := by
  induction told with
  | made sound fields into new => exact sound.step _
  | run _ later sound => exact sound.run later

theorem HasHistory.holds (told : HasHistory ref now history) : now.store.Holds (.struct ref) := by
  induction told with
  | @made m _ fields into new =>
    obtain rfl := Value.struct.inj (Option.some.inj (Answer.found.inj new))
    change m.store.structs.size < (m.store.structs.push _).size
    rw [Array.size_push]
    exact Nat.lt_succ_self _
  | run told later held => exact told.sound.holds_run later held

/-- The fields of a struct are what its history makes of no fields. -/
theorem HasHistory.maps_eq (told : HasHistory ref now history) :
    now.store.ideal.maps ref = editedFields ref history ∅ := by
  induction told with
  | @made m _ fields into new =>
    obtain rfl := Value.struct.inj (Option.some.inj (Answer.found.inj new))
    rw [editedFields_writes]
    exact congrArg NameMap.toFinmap ((m.store.fields_newStruct _ _).trans (if_pos rfl))
  | run told later ih => rw [told.sound.fields_run later told.holds, ih, editedFields_append]

theorem HasHistory.get?_iff (told : HasHistory ref now history) :
    (now.store.fields ref).get? name = some v ↔ LastWritten ref name v history := by
  rw [← lookup_editedFields_iff, ← told.maps_eq, ← NameMap.lookup_toFinmap]
  rfl

/-- Two histories leave the same values in the same fields of two structs. Strings and tuples count
as the same also if they were allocated anew. -/
def SameEnd (ref other : StructRef) (history others : List Effect) : Prop :=
  ∀ name,
    (∀ v, LastWritten ref name v history →
      ∃ w, LastWritten other name w others ∧ Renaming.id.Becomes v w) ∧
    ∀ w, LastWritten other name w others →
      ∃ v, LastWritten ref name v history ∧ Renaming.id.Becomes v w

theorem SameEnd.related (same : SameEnd ref other history others)
    (told : HasHistory ref now history) (toldOther : HasHistory other now others) :
    NameMap.Related Renaming.id.Becomes (now.store.fields ref) (now.store.fields other) := by
  intro name
  obtain ⟨forth, back⟩ := same name
  cases left : (now.store.fields ref).get? name with
  | none =>
    cases right : (now.store.fields other).get? name with
    | none => exact .none
    | some w =>
      obtain ⟨v, last, -⟩ := back w (toldOther.get?_iff.1 right)
      rw [told.get?_iff.2 last] at left
      cases left
  | some v =>
    obtain ⟨w, last, becomes⟩ := forth v (told.get?_iff.1 left)
    rw [toldOther.get?_iff.2 last]
    exact .some becomes

/-- Whatever slot a struct is found in, an operation on it tells the same. -/
theorem step_of_struct {slot : Nat} {effect : StructRef → Effect}
    (held : now.slots slot = .struct ref) (request : Request) (into : Nat)
    (form : resolve now.slots request = (now.slots slot).struct?.map effect) :
    (step perform now ⟨request, into⟩).1 = (now.store.perform (effect ref)).1 := by
  have found : resolve now.slots request = some (effect ref) := by
    rw [form, held]
    rfl
  rw [step_of_resolve found]

/-- A struct is a finite map whatever its history: a field has the value that was last written to it
and not removed since, and all operations tell the same about it, through every slot that has the
struct. In whatever order the fields are kept, their names come out sorted by code points and by
bytes. Structs whose histories leave the same values in the same fields have the same names and, if
they lead to no cycle, the same diagnostic text; they are equal if the values are equal to
themselves. -/
theorem fields_canonical {listing : StructRef → List (String × Value)}
    (told : HasHistory ref now history) (lists : now.store.Lists listing) :
    let fields := now.store.fields ref
    let names := namesIn listing ref
    (∀ name v, fields.get? name = some v ↔ LastWritten ref name v history) ∧
    (∀ slot, now.slots slot = .struct ref → ∀ into name,
      let answer request := (step perform now ⟨request, into⟩).1
      answer (.getField slot name) = .found (fields.get? name) ∧
      (∀ value, answer (.setField slot name value) = answer (.getField slot name)) ∧
      answer (.removeField slot name) = answer (.getField slot name) ∧
      answer (.hasField slot name) = .truth (fields.get? name).isSome ∧
      answer (.fieldCount slot) = .count names.length) ∧
    (names.Pairwise fun a b => a < b ∧ a.toUTF8.data.toList < b.toUTF8.data.toList) ∧
    (∀ name, name ∈ names ↔ fields.contains name) ∧
    now.store.fieldsIn listing ref = fields.entries ∧
    ∀ other others, HasHistory other now others → SameEnd ref other history others →
      names = namesIn listing other ∧
      (now.store.Acyclic (fun _ => true) (.struct ref) →
        now.store.inspect (.struct ref) = now.store.inspect (.struct other)) ∧
      ((∀ name v, fields.get? name = some v → now.store.equal v v) →
        now.store.equalIn listing (.struct ref) (.struct other)) := by
  have names := namesIn_eq lists ref
  refine ⟨fun _ _ => told.get?_iff, fun slot held into name => ?_, ?_, ?_, fieldsIn_eq lists ref,
    fun other others toldOther sameEnd => ?_⟩
  · have get := step_of_struct held (.getField slot name) into rfl
    refine ⟨get, fun value => ?_, ?_, ?_, ?_⟩
    · exact (step_of_struct held (.setField slot name value) into rfl).trans get.symm
    · exact (step_of_struct held (.removeField slot name) into rfl).trans get.symm
    · exact step_of_struct held (.hasField slot name) into rfl
    · rw [names, ← NameMap.size_eq_length_keys]
      exact step_of_struct held (.fieldCount slot) into rfl
  · rw [names]
    exact (now.store.fields ref).sorted_keys.imp fun before => ⟨before, toUTF8_lt before⟩
  · rw [names]
    exact fun _ => NameMap.mem_keys_iff
  · have same := sameEnd.related told toldOther
    refine ⟨?_, fun acyclic => ?_, fun reflexive => ?_⟩
    · rw [names, namesIn_eq lists other, same.keys_eq]
    · exact congrArg (Outline.inspect Quoted.quote) (outline_eq_of_same_fields same acyclic)
    · rw [equalIn_eq lists]
      exact equal_of_same_fields same reflexive

/-- An empty store, and a byte in every slot. -/
def bytesOnly : State Store :=
  ⟨{}, fun n => .byte n.toUInt8⟩

theorem sound_bytesOnly : Sound bytesOnly where
  contained := ⟨fun _ _ member => absurd member List.not_mem_nil, fun _ _ _ bound => by cases bound⟩
  slots _ := trivial

/-- A struct with two fields, one of which was removed through another slot. -/
def withoutField : State Store :=
  (run perform (step perform bytesOnly ⟨.struct [("b", 7), ("a", 5)], 0⟩).2
    [⟨.array [0], 1⟩, ⟨.get 1 0, 2⟩, ⟨.removeField 2 "b", 9⟩]).2

/-- A second struct in the same store. -/
def withSecond : State Store :=
  (step perform withoutField ⟨.struct [("c", 8), ("a", 5)], 3⟩).2

/-- The first struct has got a new field, and the second one another value. -/
def withBoth : State Store :=
  (run perform withSecond [⟨.setField 3 "c" 6, 9⟩, ⟨.setField 2 "c" 6, 9⟩]).2

theorem fields_canonical_withBoth :
    let listing ref := (withBoth.store.fields ref).entries.reverse
    withBoth.slots 2 = .struct ⟨0⟩ ∧
    (step perform withBoth ⟨.setField 2 "c" 5, 9⟩).1 =
      (step perform withBoth ⟨.getField 2 "c", 9⟩).1 ∧
    namesIn listing ⟨0⟩ = namesIn listing ⟨1⟩ ∧
    withBoth.store.inspect (.struct ⟨0⟩) = withBoth.store.inspect (.struct ⟨1⟩) ∧
    withBoth.store.equalIn listing (.struct ⟨0⟩) (.struct ⟨1⟩) := by
  intro listing
  have without : HasHistory ⟨0⟩ withoutField _ :=
    (HasHistory.made sound_bytesOnly [("b", 7), ("a", 5)] 0 rfl).run _
  have first : HasHistory ⟨0⟩ withBoth _ :=
    (without.run [⟨.struct [("c", 8), ("a", 5)], 3⟩]).run _
  have second : HasHistory ⟨1⟩ withBoth _ :=
    (HasHistory.made without.sound [("c", 8), ("a", 5)] 3 rfl).run _
  have entries : (withBoth.store.fields ⟨0⟩).entries = [("a", .byte 5), ("c", .byte 6)] := by cbv
  have same : withBoth.store.fields ⟨0⟩ = withBoth.store.fields ⟨1⟩ := NameMap.ext (by cbv)
  have plain : withBoth.store.PlainData (.struct ⟨0⟩) := by
    refine .struct (entries ▸ fun field member => ?_)
    rcases List.mem_cons.1 member with rfl | member
    · exact .byte 5
    · exact List.mem_singleton.1 member ▸ .byte 6
  have lists : withBoth.store.Lists listing := fun _ => List.reverse_perm _
  have sameEnd : SameEnd ⟨0⟩ ⟨1⟩ _ _ := fun name =>
    ⟨fun v last => ⟨v, second.get?_iff.1 (same ▸ first.get?_iff.2 last), Renaming.becomes_id v⟩,
      fun w last => ⟨w, first.get?_iff.1 (same ▸ second.get?_iff.2 last), Renaming.becomes_id w⟩⟩
  obtain ⟨-, told, -, -, -, both⟩ := fields_canonical first lists
  obtain ⟨-, set, -⟩ := told 2 rfl 9 "c"
  obtain ⟨names, texts, equal⟩ := both ⟨1⟩ _ second sameEnd
  refine ⟨rfl, set 5, names, texts plain.acyclic, equal fun name v bound => ?_⟩
  exact (plain.child (.field rfl bound)).floatFree.nanFree.equal_self

end Program

end ScriptHost
