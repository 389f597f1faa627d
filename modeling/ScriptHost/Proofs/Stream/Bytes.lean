import ScriptHost.Proofs.FileTree.Contents
import ScriptHost.Stream

/-!
What streams read and write, told by the bytes of their files. What is read are the bytes from the
position on. What is written stands at the position afterwards, behind zeros if the file ended
before it, and all other bytes are the old ones.
-/

namespace ScriptHost

/-- The new bytes are the old ones after data was written at a position. Writing no data changes
nothing, not even the length. -/
structure Overwrites (old : List UInt8) (position : Nat) (data new : List UInt8) : Prop where
  of_nothing : data = [] → new = old
  length_eq : data ≠ [] → new.length = max old.length (position + data.length)
  written : ∀ i < data.length, new[position + i]? = data[i]?
  zeros : data ≠ [] → ∀ i, old.length ≤ i → i < position → new[i]? = some 0
  kept : ∀ i < old.length, i < position ∨ position + data.length ≤ i → new[i]? = old[i]?

namespace Overwrites

variable {old data new : List UInt8} {position : Nat}

theorem nothing (old : List UInt8) (position : Nat) : Overwrites old position [] old where
  of_nothing _ := rfl
  length_eq nonempty := absurd rfl nonempty
  written _ inside := absurd inside (Nat.not_lt_zero _)
  zeros nonempty := absurd rfl nonempty
  kept _ _ _ := rfl

theorem overwrite (content : FileContent) (position : Nat) (nonempty : data ≠ []) :
    Overwrites content.toList position data (content.overwrite position data).toList where
  of_nothing empty := absurd empty nonempty
  length_eq _ := by
    rw [FileContent.length_toList, FileContent.length_toList, FileContent.length_overwrite]
  written i inside := by
    rw [FileContent.getElem?_overwrite, if_neg (by omega), if_pos (by omega),
      Nat.add_sub_cancel_left]
  zeros _ i past before := by
    rw [FileContent.getElem?_overwrite, if_pos before, List.getElem?_eq_none past]
    rfl
  kept i inside outside := by
    rw [FileContent.getElem?_overwrite]
    rcases outside with before | after
    · rw [if_pos before, List.getElem?_eq_getElem inside]
      rfl
    · rw [if_neg (by omega), if_neg (by omega)]

theorem data_prefix (overwrites : Overwrites old position data new) :
    data <+: new.drop position := by
  refine List.prefix_iff_getElem?.2 fun i inside => ?_
  rw [List.getElem?_drop, overwrites.written i inside, List.getElem?_eq_getElem inside]

/-- What was written is found again at the position. -/
theorem take_drop (overwrites : Overwrites old position data new) {count : Nat}
    (within : count ≤ data.length) : (new.drop position).take count = data.take count := by
  have whole := List.prefix_iff_eq_take.1 overwrites.data_prefix
  conv_rhs => rw [whole, List.take_take, Nat.min_eq_left within]

/-- At the end of a file, writing appends. -/
theorem eq_append (overwrites : Overwrites old old.length data new) : new = old ++ data := by
  by_cases empty : data = []
  · rw [overwrites.of_nothing empty, empty, List.append_nil]
  have length : new.length = old.length + data.length :=
    (overwrites.length_eq empty).trans (Nat.max_eq_right (Nat.le_add_right _ _))
  have front : old <+: new := by
    refine List.prefix_iff_getElem?.2 fun i inside => ?_
    rw [overwrites.kept i inside (.inl inside), List.getElem?_eq_getElem inside]
  have back : data = new.drop old.length :=
    overwrites.data_prefix.eq_of_length (by rw [List.length_drop]; omega)
  conv_rhs => rw [back]
  exact (List.prefix_iff_eq_append.1 front).symm

end Overwrites

namespace Stream

variable {s : Stream} {files : FileTree} {bytes : List UInt8}

theorem rest?_eq (canRead : s.access.canRead) (held : files.bytes? s.node = some bytes) :
    ∃ rest, s.rest? files = some rest ∧ rest.toList = bytes.drop s.position := by
  obtain ⟨content, found, rfl⟩ := Option.map_eq_some_iff.1 held
  refine ⟨content.drop s.position, ?_, FileContent.toList_drop ..⟩
  rw [rest?, if_pos canRead, found]
  rfl

theorem read?_eq (canRead : s.access.canRead) (held : files.bytes? s.node = some bytes)
    (count : Nat) :
    s.read? files count = some ((bytes.drop s.position).take count,
      s.advance ((bytes.drop s.position).take count).length) := by
  obtain ⟨rest, found, list⟩ := rest?_eq canRead held
  unfold read?
  split
  next none =>
    rw [none, List.take_zero]
    rfl
  next =>
    rw [found, ← list, ← FileContent.toList_take]
    rfl

theorem readLine?_eq (canRead : s.access.canRead) (held : files.bytes? s.node = some bytes) :
    let rest := bytes.drop s.position
    let line := rest.takeWhile (· ≠ newline)
    s.readLine? files = some (line, s.advance (min (line.length + 1) rest.length)) := by
  obtain ⟨rest, found, list⟩ := rest?_eq canRead held
  intro _ _
  rw [readLine?, found, Option.map_some, FileContent.firstLine_eq_takeWhile,
    ← FileContent.length_toList, list]

theorem exists_write? (canWrite : s.access.canWrite) (held : files.bytes? s.node = some bytes)
    (data : List UInt8) :
    ∃ new changed, s.write? files data = some (s.advance data.length, changed) ∧
      changed.bytes? s.node = some new ∧ Overwrites bytes s.position data new ∧
      files.Keeps {s.node} changed := by
  by_cases empty : data = []
  · subst empty
    exact ⟨bytes, files, rfl, held, .nothing bytes _, .refl _ _⟩
  obtain ⟨content, found, rfl⟩ := Option.map_eq_some_iff.1 held
  refine ⟨_, files.setContent s.node (content.overwrite s.position data), ?_, ?_,
    .overwrite content s.position empty, FileTree.keeps_setContent _ _ _⟩
  · rw [write?, if_neg empty, if_pos canWrite, found]
    rfl
  · rw [FileTree.bytes?, FileTree.content?_setContent_self found]
    rfl

end Stream

end ScriptHost
