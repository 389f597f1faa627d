import Mathlib.Algebra.GroupWithZero.Nat
import ScriptHost.Proofs.Library.OpenFile
import ScriptHost.Proofs.Registry.Transparency

/-!
Reading a file in chunks. One call gives the bytes from the position of the handle on, as many as
are asked for or as there are, and moves behind them; so calls one after the other give what a
single call gives for all their bytes together.
-/

namespace ScriptHost

/-- The bytes that are ahead, taken apart into chunks of given sizes; the last chunks are shorter if
there are not enough bytes. -/
def chunksOf (rest : List UInt8) : List Nat → List (List UInt8)
  | [] => []
  | count :: counts => rest.take count :: chunksOf (rest.drop count) counts

theorem flatten_chunksOf (rest : List UInt8) (counts : List Nat) :
    (chunksOf rest counts).flatten = rest.take counts.sum := by
  induction counts generalizing rest with
  | nil => rw [chunksOf, List.sum_nil, List.take_zero, List.flatten_nil]
  | cons count counts ih => rw [chunksOf, List.flatten_cons, ih, List.sum_cons, List.take_add]

/-- A count that reaches past the end stands for the bytes up to the end. -/
theorem take_drop_eq_extract (bytes : List UInt8) (position count : Nat) :
    (bytes.drop position).take count =
      bytes.extract position (min (position + count) bytes.length) := by
  rw [List.extract_eq_take_drop, List.take_eq_take_iff, List.length_drop]
  omega

namespace Stream

theorem advance_advance (s : Stream) (first second : Nat) :
    (s.advance first).advance second = s.advance (first + second) := by
  rw [advance, advance, Nat.add_assoc]
  rfl

/-- What is ahead of a stream that has moved behind bytes that were taken. -/
theorem drop_position_advance (s : Stream) (bytes : List UInt8) (count : Nat) :
    bytes.drop (s.advance ((bytes.drop s.position).take count).length).position =
      (bytes.drop s.position).drop count := by
  rw [advance, ← List.drop_drop, List.length_take]
  rcases Nat.le_total count (bytes.drop s.position).length with enough | short
  · rw [Nat.min_eq_left enough]
  · rw [Nat.min_eq_right short, List.drop_length, List.drop_of_length_le short]

end Stream

/-- A call that reads ended with the bytes, in an array that the store holds, or without a result
and without bytes. -/
inductive GivesBytes (s : Store) : Except Abort Value → List UInt8 → Prop
  | array {copy : ArrayRef} {data : List UInt8} (held : s.Holds (.array copy))
    (items : s.items copy = data.map .byte) : GivesBytes s (.ok (.array copy)) data
  | void : GivesBytes s (.ok .void) []

theorem GivesBytes.mono {s t : Store} {ended : Except Abort Value} {data : List UInt8}
    (gives : GivesBytes s ended data) (keeps : s.KeepsArrays t) : GivesBytes t ended data := by
  cases gives with
  | array held items => exact .array (keeps _ held).1 ((keeps _ held).2.trans items)
  | void => exact .void

namespace Library

section Chunks

variable {r : Registry} (provides : ∀ f ∈ standard, f ∈ r.entries) {w : World} {ref : HandleRef}
  {stream : Stream} {bytes : List UInt8} (here : w.OnFile ref stream bytes)
  (canRead : stream.access.canRead)
include provides here canRead

/-- Every count gives the bytes ahead, and a negative one none of them. -/
theorem run_read_chunk (count : Integer) :
    let data := (bytes.drop stream.position).take count.val.toNat
    ∃ ended later, (r.call "fileio" "fRead" [.filehandle ref, .integer count]).run w =
        (ended, later) ∧
      GivesBytes later.store ended data ∧ later.OnFile ref (stream.advance data.length) bytes ∧
      later.files = w.files ∧ w.store.KeepsArrays later.store := by
  intro data
  by_cases negative : count.val < 0
  · have none : data = [] := by
      show List.take count.val.toNat _ = []
      rw [Int.toNat_of_nonpos negative.le, List.take_zero]
    rw [none]
    exact ⟨_, w, run_read_negative provides here negative, .void, here, rfl, .refl _⟩
  · obtain ⟨copy, later, run, items, moved, files, held, keeps⟩ :=
      run_read provides here canRead (not_lt.1 negative)
    exact ⟨_, later, run, .array held items, moved, files, keeps⟩

/-- Calls one after the other give the chunks of what is ahead, and all of these are there
afterwards. -/
theorem runAll_read (counts : List Integer) :
    let chunks := chunksOf (bytes.drop stream.position) (counts.map (·.val.toNat))
    ∃ ended later,
      Host.runAll (counts.map fun count =>
        r.call "fileio" "fRead" [.filehandle ref, .integer count]) w = (ended, later) ∧
      List.Forall₂ (GivesBytes later.store) ended chunks ∧
      later.OnFile ref (stream.advance chunks.flatten.length) bytes ∧ later.files = w.files ∧
      w.store.KeepsArrays later.store := by
  induction counts generalizing w stream with
  | nil => exact ⟨[], w, rfl, .nil, here, rfl, .refl _⟩
  | cons count counts ih =>
    intro chunks
    obtain ⟨first, next, run, gives, moved, files, keeps⟩ :=
      run_read_chunk provides here canRead count
    obtain ⟨ended, later, runs, others, there, same, keepsOthers⟩ := ih moved canRead
    rw [Stream.drop_position_advance] at others there
    have length : stream.advance chunks.flatten.length =
        (stream.advance ((bytes.drop stream.position).take count.val.toNat).length).advance
          (chunksOf ((bytes.drop stream.position).drop count.val.toNat)
            (counts.map (·.val.toNat))).flatten.length := by
      rw [Stream.advance_advance, ← List.length_append]
      rfl
    rw [length]
    refine ⟨first :: ended, later, ?_, .cons (gives.mono keepsOthers) others, there,
      same.trans files, keeps.trans keepsOthers⟩
    rw [List.map_cons, Host.runAll_cons, run, runs]

end Chunks

/-- What reading bytes through an open handle on a regular file gives, where the handle has the
right to read. A call gives the bytes between the position and the position moved by the count, or
the end of the file, and moves behind them; a negative count gives nothing and moves nothing. Two
calls give together what one call gives for the sum of their counts, and end at the same position.
Any calls one after the other give chunks of what is ahead without a gap. No call changes a file. -/
theorem read_in_chunks {r : Registry} (provides : ∀ f ∈ standard, f ∈ r.entries) {w : World}
    {ref : HandleRef} {stream : Stream} {bytes : List UInt8} (here : w.OnFile ref stream bytes)
    (canRead : stream.access.canRead) :
    (∀ count : Integer, 0 ≤ count.val →
      let data := bytes.extract stream.position
        (min (stream.position + count.val.toNat) bytes.length)
      ∃ copy later, (r.call "fileio" "fRead" [.filehandle ref, .integer count]).run w =
          (.ok (.array copy), later) ∧
        later.store.items copy = data.map .byte ∧
        later.OnFile ref { stream with position := stream.position + data.length } bytes ∧
        later.files = w.files) ∧
    (∀ count : Integer, count.val < 0 →
      (r.call "fileio" "fRead" [.filehandle ref, .integer count]).run w = (.ok .void, w)) ∧
    (∀ n m sum : Integer, 0 ≤ n.val → 0 ≤ m.val → sum.val = n.val + m.val →
      ∃ first between second later whole once moved,
        (r.call "fileio" "fRead" [.filehandle ref, .integer n]).run w =
          (.ok (.array first), between) ∧
        (r.call "fileio" "fRead" [.filehandle ref, .integer m]).run between =
          (.ok (.array second), later) ∧
        (r.call "fileio" "fRead" [.filehandle ref, .integer sum]).run w =
          (.ok (.array whole), once) ∧
        later.store.items first ++ later.store.items second = once.store.items whole ∧
        later.OnFile ref moved bytes ∧ once.OnFile ref moved bytes) ∧
    ∀ counts : List Integer, ∃ ended later chunks,
      Host.runAll (counts.map fun count =>
        r.call "fileio" "fRead" [.filehandle ref, .integer count]) w = (ended, later) ∧
      List.Forall₂ (GivesBytes later.store) ended chunks ∧
      chunks.flatten <+: bytes.drop stream.position ∧
      chunks.flatten.length =
        min (counts.map (·.val.toNat)).sum (bytes.length - stream.position) ∧
      later.OnFile ref { stream with position := stream.position + chunks.flatten.length } bytes ∧
      later.files = w.files := by
  refine ⟨fun count valid => ?one, fun count negative => run_read_negative provides here negative,
    fun n m sum nonnegN nonnegM total => ?two, fun counts => ?any⟩
  case one =>
    rw [← take_drop_eq_extract]
    obtain ⟨copy, later, run, items, moved, files, -⟩ := run_read provides here canRead valid
    exact ⟨copy, later, run, items, moved, files⟩
  case two =>
    obtain ⟨first, between, runFirst, itemsFirst, moved, -, held, -⟩ :=
      run_read provides here canRead nonnegN
    obtain ⟨second, later, runSecond, itemsSecond, there, -, -, keeps⟩ :=
      run_read provides moved canRead nonnegM
    have nonneg : 0 ≤ sum.val := by omega
    obtain ⟨whole, once, runWhole, itemsWhole, same, -⟩ := run_read provides here canRead nonneg
    have split : (bytes.drop stream.position).take sum.val.toNat =
        (bytes.drop stream.position).take n.val.toNat ++
          ((bytes.drop stream.position).drop n.val.toNat).take m.val.toNat := by
      rw [total, Int.toNat_add nonnegN nonnegM, List.take_add]
    rw [Stream.drop_position_advance] at itemsSecond there
    rw [split, List.length_append, ← Stream.advance_advance] at same
    refine ⟨first, between, second, later, whole, once, _, runFirst, runSecond, runWhole, ?_,
      there, same⟩
    rw [(keeps first held).2, itemsFirst, itemsSecond, itemsWhole, split, List.map_append]
  case any =>
    obtain ⟨ended, later, runs, chunks, there, files, -⟩ :=
      runAll_read provides here canRead counts
    refine ⟨ended, later, _, runs, chunks, ?_, ?_, there, files⟩
    · rw [flatten_chunksOf]
      exact List.take_prefix ..
    · rw [flatten_chunksOf, List.length_take, List.length_drop]

/-- Three bytes, of which the first is behind the handle: a byte, and then more than there is. -/
theorem read_in_chunks_short :
    (∃ ended later chunks,
      Host.runAll ([1, 0, ⟨-1, by decide, by decide⟩, .ofNat 0x7FFFFFFFFFFFFFFF].map fun count =>
        standardRegistry.call "fileio" "fRead" [.filehandle ⟨0⟩, .integer count])
          (World.oneFile (.data [7, 8, 9] .empty) 1) = (ended, later) ∧
      List.Forall₂ (GivesBytes later.store) ended chunks ∧ chunks.flatten = [8, 9] ∧
      later.OnFile ⟨0⟩ ⟨⟨1⟩, 3, .readWrite⟩ [7, 8, 9]) := by
  have here := World.oneFile_onFile (.data [7, 8, 9] .empty) 1
  obtain ⟨_, _, _, any⟩ := read_in_chunks provides_standardRegistry here rfl
  obtain ⟨ended, later, chunks, runs, gives, ahead, length, there, _⟩ :=
    any [1, 0, ⟨-1, by decide, by decide⟩, .ofNat 0x7FFFFFFFFFFFFFFF]
  have whole : chunks.flatten.length = 2 := length
  have bytes : chunks.flatten = [8, 9] := ahead.eq_of_length whole
  rw [whole] at there
  exact ⟨ended, later, chunks, runs, gives, bytes, there⟩

end Library

end ScriptHost
