import ScriptHost.LineEncoding
import ScriptHost.Proofs.Stream.Bytes

/-!
Bytes as lines. Every sequence of bytes is empty, a last line without a newline, or a line that ends
in one with more lines behind it. Reading a line is reading byte by byte up to a newline or the end,
which is found after finitely many bytes.
-/

namespace ScriptHost

/-- The lines of a sequence of bytes, without the newlines that end them. After the last newline
there is a line only if there are bytes. -/
def linesOf : List UInt8 → List (List UInt8)
  | [] => []
  | b :: rest =>
    if b = newline then [] :: linesOf rest
    else
      match linesOf rest with
      | [] => [[b]]
      | line :: others => (b :: line) :: others

section Lines

variable {line rest bytes : List UInt8}

theorem linesOf_append_newline (unbroken : newline ∉ line) (rest : List UInt8) :
    linesOf (line ++ newline :: rest) = line :: linesOf rest := by
  induction line with
  | nil => rfl
  | cons b line ih =>
    obtain ⟨other, unbroken⟩ := not_or.1 (mt List.mem_cons.2 unbroken)
    rw [List.cons_append, linesOf, if_neg (Ne.symm other), ih unbroken]

theorem linesOf_of_notMem (nonempty : line ≠ []) (unbroken : newline ∉ line) :
    linesOf line = [line] := by
  induction line with
  | nil => exact absurd rfl nonempty
  | cons b line ih =>
    obtain ⟨other, unbroken⟩ := not_or.1 (mt List.mem_cons.2 unbroken)
    rw [linesOf, if_neg (Ne.symm other)]
    cases line with
    | nil => rfl
    | cons c line => rw [ih (List.cons_ne_nil c line) unbroken]

/-- Bytes are taken apart line by line. -/
theorem lines_induction {motive : List UInt8 → Prop} (nil : motive [])
    (last : ∀ line, line ≠ [] → newline ∉ line → motive line)
    (cons : ∀ line rest, newline ∉ line → motive rest → motive (line ++ newline :: rest))
    (bytes : List UInt8) : motive bytes := by
  induction length : bytes.length using Nat.strongRecOn generalizing bytes with
  | ind n ih =>
    by_cases broken : newline ∈ bytes
    · obtain ⟨line, rest, rfl, unbroken⟩ := List.eq_append_cons_of_mem broken
      refine cons line rest unbroken (ih rest.length ?_ rest rfl)
      rw [← length, List.length_append, List.length_cons]
      omega
    · by_cases empty : bytes = []
      · rwa [empty]
      · exact last bytes empty broken

theorem linesOf_eq_nil_iff : linesOf bytes = [] ↔ bytes = [] := by
  induction bytes using lines_induction with
  | nil => exact iff_of_true rfl rfl
  | last line nonempty unbroken =>
    rw [linesOf_of_notMem nonempty unbroken]
    exact iff_of_false (List.cons_ne_nil _ _) nonempty
  | cons line rest unbroken _ =>
    rw [linesOf_append_newline unbroken]
    exact iff_of_false (List.cons_ne_nil _ _)
      (List.append_ne_nil_of_right_ne_nil _ (List.cons_ne_nil _ _))

theorem getLast?_append_newline (line : List UInt8) (nonempty : rest ≠ []) :
    (line ++ newline :: rest).getLast? = rest.getLast? := by
  rw [List.getLast?_append, List.getLast?_cons, List.getLast?_eq_some_getLast nonempty]
  rfl

/-- There is a line for each newline, and one more for bytes behind the last newline. -/
theorem length_linesOf (bytes : List UInt8) :
    (linesOf bytes).length = bytes.count newline +
      if bytes ≠ [] ∧ bytes.getLast? ≠ some newline then 1 else 0 := by
  induction bytes using lines_induction with
  | nil => rfl
  | last line nonempty unbroken =>
    have unended : line.getLast? ≠ some newline := fun same => unbroken (List.mem_of_getLast? same)
    rw [linesOf_of_notMem nonempty unbroken, List.count_eq_zero_of_not_mem unbroken,
      if_pos ⟨nonempty, unended⟩]
    rfl
  | cons line rest unbroken ih =>
    rw [linesOf_append_newline unbroken, List.length_cons, ih, List.count_append,
      List.count_cons_self, List.count_eq_zero_of_not_mem unbroken]
    by_cases ended : rest = []
    · simp [ended]
    · rw [getLast?_append_newline line ended]
      simp [ended]
      omega

/-- With a newline behind each of them, or between them if there is none at the end, the lines make
up the bytes. -/
theorem join_linesOf (bytes : List UInt8) :
    (bytes.getLast? = some newline → (linesOf bytes).flatMap (· ++ [newline]) = bytes) ∧
      (bytes.getLast? ≠ some newline → [newline].intercalate (linesOf bytes) = bytes) := by
  induction bytes using lines_induction with
  | nil => exact ⟨nofun, fun _ => rfl⟩
  | last line nonempty unbroken =>
    refine ⟨fun same => absurd (List.mem_of_getLast? same) unbroken, fun _ => ?_⟩
    rw [linesOf_of_notMem nonempty unbroken, List.intercalate_singleton]
  | cons line rest unbroken ih =>
    rw [linesOf_append_newline unbroken]
    by_cases ended : rest = []
    · subst ended
      exact ⟨fun _ => List.append_nil _, absurd List.getLast?_concat⟩
    · rw [getLast?_append_newline line ended, List.flatMap_cons,
        List.intercalate_cons_of_ne_nil (linesOf_eq_nil_iff.not.2 ended)]
      refine ⟨fun same => ?_, fun other => ?_⟩
      · rw [ih.1 same, List.append_assoc]
        rfl
      · rw [ih.2 other, List.append_assoc]
        rfl

/-- How many bytes the first line takes, with its newline if it has one. -/
def firstLineSize (bytes : List UInt8) : Nat :=
  min ((bytes.takeWhile (· ≠ newline)).length + 1) bytes.length

theorem firstLineSize_le (bytes : List UInt8) : firstLineSize bytes ≤ bytes.length :=
  Nat.min_le_right ..

@[simp]
theorem takeWhile_newline_cons (rest : List UInt8) :
    (newline :: rest).takeWhile (· ≠ newline) = [] := rfl

theorem takeWhile_cons_of_ne {b : UInt8} (other : b ≠ newline) (rest : List UInt8) :
    (b :: rest).takeWhile (· ≠ newline) = b :: rest.takeWhile (· ≠ newline) := by
  rw [List.takeWhile_cons, if_pos (decide_eq_true other)]

theorem takeWhile_append_newline (unbroken : newline ∉ line) (rest : List UInt8) :
    (line ++ newline :: rest).takeWhile (· ≠ newline) = line := by
  rw [List.takeWhile_append_of_pos, takeWhile_newline_cons, List.append_nil]
  exact fun b member => decide_eq_true fun same => unbroken (same ▸ member)

theorem takeWhile_of_notMem (unbroken : newline ∉ line) : line.takeWhile (· ≠ newline) = line := by
  rw [← List.append_nil line, List.takeWhile_append_of_pos]
  · rfl
  · exact fun b member => decide_eq_true fun same => unbroken (same ▸ member)

theorem headD_linesOf (bytes : List UInt8) :
    (linesOf bytes).headD [] = bytes.takeWhile (· ≠ newline) := by
  induction bytes using lines_induction with
  | nil => rfl
  | last line nonempty unbroken =>
    rw [linesOf_of_notMem nonempty unbroken, takeWhile_of_notMem unbroken]
    rfl
  | cons line rest unbroken _ =>
    rw [linesOf_append_newline unbroken, takeWhile_append_newline unbroken]
    rfl

theorem tail_linesOf (bytes : List UInt8) :
    (linesOf bytes).tail = linesOf (bytes.drop (firstLineSize bytes)) := by
  unfold firstLineSize
  induction bytes using lines_induction with
  | nil => rfl
  | last line nonempty unbroken =>
    rw [linesOf_of_notMem nonempty unbroken, takeWhile_of_notMem unbroken,
      Nat.min_eq_right (Nat.le_succ _), List.drop_length]
    rfl
  | cons line rest unbroken _ =>
    have size : min (line.length + 1) (line ++ newline :: rest).length = line.length + 1 := by
      rw [List.length_append, List.length_cons]
      omega
    rw [linesOf_append_newline unbroken, takeWhile_append_newline unbroken, size, List.drop_append,
      Nat.add_sub_cancel_left, List.drop_of_length_le (Nat.le_succ _)]
    rfl

theorem firstLineSize_cons {b : UInt8} (other : b ≠ newline) (rest : List UInt8) :
    firstLineSize (b :: rest) = firstLineSize rest + 1 := by
  rw [firstLineSize, takeWhile_cons_of_ne other, List.length_cons, List.length_cons,
    Nat.add_min_add_right, firstLineSize]

/-- The position behind the first line: after its newline, or at the end. -/
theorem firstLineSize_eq (bytes : List UInt8) :
    firstLineSize bytes =
      if newline ∈ bytes then (bytes.takeWhile (· ≠ newline)).length + 1 else bytes.length := by
  induction bytes with
  | nil => rfl
  | cons b rest ih =>
    by_cases same : b = newline
    · subst same
      rw [if_pos List.mem_cons_self, firstLineSize, takeWhile_newline_cons]
      exact Nat.min_eq_left (Nat.le_add_left 1 _)
    · have member : newline ∈ b :: rest ↔ newline ∈ rest := by
        rw [List.mem_cons, or_iff_right (Ne.symm same)]
      rw [firstLineSize_cons same, ih, takeWhile_cons_of_ne same]
      simp only [member]
      split <;> rfl

/-- All bytes are behind a position where no lines are left. -/
theorem position_eq_length_iff {position n : Nat} {lines : List (List UInt8)}
    (within : position ≤ bytes.length)
    (remain : linesOf (bytes.drop position) = lines.drop n) :
    position = bytes.length ↔ lines.length ≤ n := by
  rw [← List.drop_eq_nil_iff, ← remain, linesOf_eq_nil_iff, List.drop_eq_nil_iff]
  exact ⟨fun same => same.ge, fun past => Nat.le_antisymm within past⟩

end Lines

namespace Stream

/-- Behind the first line, a stream is behind its newline or at the end of the file, or stays where
it is past the end. -/
theorem advance_firstLineSize (s : Stream) (bytes : List UInt8) :
    let rest := bytes.drop s.position
    s.advance (firstLineSize rest) =
      { s with position :=
          if newline ∈ rest then s.position + (rest.takeWhile (· ≠ newline)).length + 1
          else max s.position bytes.length } := by
  intro rest
  rw [advance, firstLineSize_eq]
  split
  · rfl
  · have past : s.position + rest.length = max s.position bytes.length := by
      rw [List.length_drop]
      omega
    rw [past]

/-- Reading a line byte by byte, up to a newline or to the end. -/
inductive ReadsLine (files : FileTree) : Stream → List UInt8 → Stream → Prop
  | ended {s t : Stream} (read : s.read? files 1 = some ([], t)) : ReadsLine files s [] t
  | broken {s t : Stream} (read : s.read? files 1 = some ([newline], t)) : ReadsLine files s [] t
  | byte {s t u : Stream} {b : UInt8} {line : List UInt8} (read : s.read? files 1 = some ([b], t))
    (other : b ≠ newline) (more : ReadsLine files t line u) : ReadsLine files s (b :: line) u

theorem readsLine {s : Stream} {files : FileTree} {bytes : List UInt8}
    (canRead : s.access.canRead) (held : files.bytes? s.node = some bytes) :
    ReadsLine files s ((bytes.drop s.position).takeWhile (· ≠ newline))
      (s.advance (firstLineSize (bytes.drop s.position))) := by
  -- The loop ends because the bytes in front of it become fewer.
  generalize ahead : bytes.drop s.position = rest
  induction rest generalizing s with
  | nil =>
    have read := read?_eq canRead held 1
    rw [ahead] at read
    exact .ended read
  | cons b rest ih =>
    have read := read?_eq canRead held 1
    rw [ahead] at read
    by_cases same : b = newline
    · subst same
      rw [firstLineSize_eq, if_pos List.mem_cons_self, takeWhile_newline_cons]
      exact .broken read
    · have next : bytes.drop (s.advance 1).position = rest := by
        rw [advance, ← List.drop_drop, ahead, List.drop_one, List.tail_cons]
      rw [takeWhile_cons_of_ne same, firstLineSize_cons same]
      have more := ih (s := s.advance 1) canRead held next
      rw [advance, advance, Nat.add_assoc, Nat.add_comm 1] at more
      exact .byte read same more

end Stream

end ScriptHost
