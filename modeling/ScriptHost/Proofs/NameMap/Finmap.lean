import Mathlib.Data.Finmap
import ScriptHost.Proofs.NameMap

/-! Maps from names as finite maps, which forget the order of the bindings. -/

namespace ScriptHost.NameMap

variable {α : Type}

/-- A binding as a member of a finite map. -/
def binding (entry : String × α) : Sigma fun _ : String => α :=
  ⟨entry.1, entry.2⟩

def toFinmap (m : NameMap α) : Finmap fun _ : String => α :=
  (m.entries.map binding).toFinmap

theorem dlookup_map_binding (name : String) (entries : List (String × α)) :
    (entries.map binding).dlookup name = entries.lookup name := by
  induction entries with
  | nil => rfl
  | cons entry rest ih =>
    rw [List.map_cons, lookup_cons]
    by_cases same : entry.1 = name
    · subst same
      rw [if_pos rfl]
      exact List.dlookup_cons_eq ..
    · rw [if_neg same, ← ih]
      exact List.dlookup_cons_ne _ _ (Ne.symm same)

theorem lookup_toFinmap (m : NameMap α) (name : String) : m.toFinmap.lookup name = m.get? name := by
  rw [toFinmap, Finmap.dlookup_list_toFinmap, dlookup_map_binding, get?]

theorem toFinmap_insert (m : NameMap α) (name : String) (value : α) :
    (m.insert name value).toFinmap = m.toFinmap.insert name value := by
  refine Finmap.ext_lookup fun other => ?_
  rw [lookup_toFinmap, get?_insert]
  by_cases same : name = other
  · subst same
    rw [if_pos rfl, Finmap.lookup_insert]
  · rw [if_neg same, Finmap.lookup_insert_of_ne _ (Ne.symm same), lookup_toFinmap]

theorem toFinmap_erase (m : NameMap α) (name : String) :
    (m.erase name).toFinmap = m.toFinmap.erase name := by
  refine Finmap.ext_lookup fun other => ?_
  rw [lookup_toFinmap, get?_erase]
  by_cases same : name = other
  · subst same
    rw [if_pos rfl, Finmap.lookup_erase]
  · rw [if_neg same, Finmap.lookup_erase_ne (Ne.symm same), lookup_toFinmap]

theorem get?_foldl_insert (bindings : List (String × α)) (m : NameMap α) (name : String) :
    (bindings.foldl (fun m binding => m.insert binding.1 binding.2) m).get? name =
      (bindings.reverse.lookup name).or (m.get? name) := by
  induction bindings generalizing m with
  | nil => rfl
  | cons entry rest ih =>
    rw [List.foldl_cons, ih, get?_insert, List.reverse_cons, List.lookup_append, lookup_cons,
      Option.or_assoc]
    split <;> rfl

/-- Of several bindings of one name, the last one counts. -/
theorem toFinmap_ofList (bindings : List (String × α)) :
    (ofList bindings).toFinmap = (bindings.reverse.map binding).toFinmap := by
  refine Finmap.ext_lookup fun name => ?_
  rw [lookup_toFinmap, Finmap.dlookup_list_toFinmap, dlookup_map_binding]
  exact (get?_foldl_insert bindings ∅ name).trans Option.or_none

theorem card_keys_toFinmap (m : NameMap α) : m.toFinmap.keys.card = m.size := by
  have same : m.toFinmap.keys = m.keys.toFinset := by
    ext name
    rw [Finmap.mem_keys, ← Finmap.lookup_isSome, lookup_toFinmap, List.mem_toFinset, mem_keys_iff,
      contains]
  rw [same, List.toFinset_card_of_nodup m.nodup_keys, size_eq_length_keys]

end ScriptHost.NameMap
