/-!
The bytes of a file. A gap, which is left when something is written past the end, reads as zeros and
is kept as its size only, so that it takes no space however long it is. `toList` gives all bytes,
and each operation comes with an equation that says what it does to them.
-/

namespace ScriptHost

/-- The content of a file, from its first byte on: bytes that were written, and gaps. -/
inductive FileContent
  | empty
  | data (bytes : List UInt8) (rest : FileContent)
  | gap (size : Nat) (rest : FileContent)
deriving DecidableEq

/-- The byte that ends a line. -/
def newline : UInt8 := 10

namespace FileContent

/-- All bytes of a content. -/
def toList : FileContent → List UInt8
  | empty => []
  | data bytes rest => bytes ++ rest.toList
  | gap size rest => List.replicate size 0 ++ rest.toList

def length : FileContent → Nat
  | empty => 0
  | data bytes rest => bytes.length + rest.length
  | gap size rest => size + rest.length

@[simp]
theorem length_toList (c : FileContent) : c.toList.length = c.length := by
  induction c with
  | empty => rfl
  | data bytes rest ih => simp [toList, length, ih]
  | gap size rest ih => simp [toList, length, ih]

/-- The first bytes, up to a number. -/
def take : Nat → FileContent → FileContent
  | _, empty => empty
  | count, data bytes rest =>
    if bytes.length ≤ count then data bytes (rest.take (count - bytes.length))
    else data (bytes.take count) empty
  | count, gap size rest =>
    if size ≤ count then gap size (rest.take (count - size)) else gap count empty

@[simp]
theorem toList_take (count : Nat) (c : FileContent) :
    (c.take count).toList = c.toList.take count := by
  induction c generalizing count with
  | empty => simp [take, toList]
  | data bytes rest ih =>
    unfold take
    split
    next whole => simp [toList, ih, List.take_append, List.take_of_length_le whole]
    next part => simp [toList, List.take_append, Nat.sub_eq_zero_of_le (Nat.le_of_not_le part)]
  | gap size rest ih =>
    unfold take
    split
    next whole => simp [toList, ih, List.take_append, whole]
    next part =>
      have fits := Nat.le_of_not_le part
      simp [toList, List.take_append, Nat.sub_eq_zero_of_le fits, Nat.min_eq_left fits]

/-- The bytes after the first ones. -/
def drop : Nat → FileContent → FileContent
  | _, empty => empty
  | count, data bytes rest =>
    if bytes.length ≤ count then rest.drop (count - bytes.length) else data (bytes.drop count) rest
  | count, gap size rest =>
    if size ≤ count then rest.drop (count - size) else gap (size - count) rest

@[simp]
theorem toList_drop (count : Nat) (c : FileContent) :
    (c.drop count).toList = c.toList.drop count := by
  induction c generalizing count with
  | empty => simp [drop, toList]
  | data bytes rest ih =>
    unfold drop
    split
    next whole => simp [toList, ih, List.drop_append, List.drop_of_length_le whole]
    next part => simp [toList, List.drop_append, Nat.sub_eq_zero_of_le (Nat.le_of_not_le part)]
  | gap size rest ih =>
    unfold drop
    split
    next whole => simp [toList, ih, List.drop_append, Nat.sub_eq_zero_of_le whole]
    next part => simp [toList, List.drop_append, Nat.sub_eq_zero_of_le (Nat.le_of_not_le part)]

/-- The bytes of one content and then those of another. -/
def append : FileContent → FileContent → FileContent
  | empty, more => more
  | data bytes rest, more => data bytes (rest.append more)
  | gap size rest, more => gap size (rest.append more)

@[simp]
theorem toList_append (c more : FileContent) :
    (c.append more).toList = c.toList ++ more.toList := by
  induction c with
  | empty => rfl
  | data bytes rest ih => simp [append, toList, ih]
  | gap size rest ih => simp [append, toList, ih]

/-- The bytes in front of the first newline, or all bytes if there is none. -/
def firstLine : FileContent → List UInt8
  | empty => []
  | data bytes rest =>
    if newline ∈ bytes then bytes.takeWhile (· ≠ newline) else bytes ++ rest.firstLine
  | gap size rest => List.replicate size 0 ++ rest.firstLine

theorem firstLine_eq_takeWhile (c : FileContent) :
    c.firstLine = c.toList.takeWhile (· ≠ newline) := by
  induction c with
  | empty => rfl
  | data bytes rest ih =>
    unfold firstLine toList
    split
    next here =>
      rw [List.takeWhile_append, if_neg]
      intro whole
      have all : (bytes.takeWhile (· ≠ newline)).all (· ≠ newline) := List.all_takeWhile
      rw [(List.takeWhile_prefix _).eq_of_length whole] at all
      simpa using List.all_eq_true.1 all newline here
    next elsewhere =>
      rw [List.takeWhile_append_of_pos, ih]
      intro b mem
      simpa using fun h : b = newline => elsewhere (h ▸ mem)
  | gap size rest ih =>
    unfold firstLine toList
    rw [List.takeWhile_append_of_pos, ih]
    intro b mem
    rw [(List.mem_replicate.1 mem).2]
    decide

/-- The bytes after `bytes` was written at `position`: a gap in front is filled with zeros, what
stood there is overwritten, and all other bytes stay. -/
def overwrite (c : FileContent) (position : Nat) (bytes : List UInt8) : FileContent :=
  let tail := data bytes (c.drop (position + bytes.length))
  let missing := position - c.length
  (c.take position).append (if missing = 0 then tail else gap missing tail)

theorem toList_overwrite (c : FileContent) (position : Nat) (bytes : List UInt8) :
    (c.overwrite position bytes).toList =
      c.toList.take position ++ List.replicate (position - c.length) 0 ++ bytes ++
        c.toList.drop (position + bytes.length) := by
  by_cases reached : position - c.length = 0 <;> simp [overwrite, toList, reached]

theorem length_overwrite (c : FileContent) (position : Nat) (bytes : List UInt8) :
    (c.overwrite position bytes).length = max c.length (position + bytes.length) := by
  rw [← length_toList, toList_overwrite]
  simp
  omega

theorem length_front (c : FileContent) (position : Nat) :
    (c.toList.take position ++ List.replicate (position - c.length) 0).length = position := by
  simp
  omega

/-- In front of the position stand the old bytes and then zeros, from there on the new bytes, and
after them the old bytes again. -/
theorem getElem?_overwrite (c : FileContent) (position : Nat) (bytes : List UInt8) (i : Nat) :
    (c.overwrite position bytes).toList[i]? =
      if i < position then some (c.toList[i]?.getD 0)
      else if i < position + bytes.length then bytes[i - position]?
      else c.toList[i]? := by
  rw [toList_overwrite, List.append_assoc _ bytes]
  split
  next before =>
    rw [List.getElem?_append_left (by rw [length_front]; exact before)]
    by_cases old : i < c.length
    · rw [List.getElem?_append_left (by simp; omega), List.getElem?_take_of_lt before]
      simp [old]
    · rw [List.getElem?_append_right (by simp; omega),
        List.getElem?_replicate_of_lt (by simp; omega)]
      simp [old]
  next notBefore =>
    rw [List.getElem?_append_right (by rw [length_front]; omega), length_front]
    split
    next within => exact List.getElem?_append_left (by omega)
    next after =>
      rw [List.getElem?_append_right (by omega), List.getElem?_drop]
      congr 1
      omega

end FileContent

end ScriptHost
