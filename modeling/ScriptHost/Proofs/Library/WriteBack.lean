import ScriptHost.Proofs.Library.OpenFile

/-!
Writing bytes and reading them back. A write through a handle with the right to read and write puts
the bytes at its position; from there they are read again, as many as are asked for, and the array
that is read can be written like the one that was there first.
-/

namespace ScriptHost

theorem Overwrites.eq_of_empty {data new : List UInt8} (overwrites : Overwrites [] 0 data new) :
    new = data :=
  overwrites.eq_append.trans (List.nil_append data)

namespace Library

variable {r : Registry} {w : World} {ref : HandleRef} {stream : Stream} {old data : List UInt8}

/-- After a write, the bytes are read back from where they were written. -/
theorem run_read_written (provides : ∀ f ∈ standard, f ∈ r.entries) {new : List UInt8}
    (here : w.OnFile ref stream new) (canRead : stream.access.canRead)
    (overwrites : Overwrites old stream.position data new) {count : Integer}
    (valid : 0 ≤ count.val) (within : count.val ≤ data.length) :
    ∃ copy later, (r.call "fileio" "fRead" [.filehandle ref, .integer count]).run w =
        (.ok (.array copy), later) ∧
      later.store.items copy = (data.take count.val.toNat).map .byte ∧
      later.OnFile ref (stream.advance count.val.toNat) new := by
  obtain ⟨copy, later, run, items, kept, -⟩ := run_read provides here canRead valid
  have inside : count.val.toNat ≤ data.length := by omega
  rw [overwrites.take_drop inside] at items kept
  rw [List.length_take, Nat.min_eq_left inside] at kept
  exact ⟨copy, later, run, items, kept⟩

/-- What becomes of bytes that are written through an open handle on a regular file, with the right
to read and write. The bytes of the file are overwritten at the position of the handle, and nothing
else is touched; the position moves behind what was written. From the old position any number of the
written bytes can be read again, and an array that was read in this way is written through any other
handle as the same bytes. Lengths and positions are told where they are integers. -/
theorem write_then_read {r : Registry} (provides : ∀ f ∈ standard, f ∈ r.entries) {w : World}
    {ref : HandleRef} {stream : Stream} {old : List UInt8} (here : w.OnFile ref stream old)
    (rights : stream.access = .readWrite) {array : ArrayRef} {data : List UInt8}
    (items : w.store.items array = data.map .byte) :
    ∃ new written,
      (r.call "fileio" "fWrite" [.filehandle ref, .array array]).run w =
        (.ok (.integer 1), written) ∧
      written.OnFile ref (stream.advance data.length) new ∧
      Overwrites old stream.position data new ∧
      ({ touched := {ref}, opened := ∅, changed := {stream.node} } : Footprint).Covers w written ∧
      (∀ n : Integer, n.val = stream.position + data.length →
        (r.call "fileio" "fGetPos" [.filehandle ref]).run written = (.ok (.integer n), written)) ∧
      (∀ n : Integer, n.val = new.length →
        (r.call "fileio" "fLen" [.filehandle ref]).run written = (.ok (.integer n), written)) ∧
      ∀ start : Integer, start.val = stream.position → ∃ back,
        (r.call "fileio" "fSetPos" [.filehandle ref, .integer start]).run written =
          (.ok .void, back) ∧
        back.OnFile ref stream new ∧
        (r.call "fileio" "fGetPos" [.filehandle ref]).run back = (.ok (.integer start), back) ∧
        ∀ count : Integer, 0 ≤ count.val → count.val ≤ data.length → ∃ copy later,
          (r.call "fileio" "fRead" [.filehandle ref, .integer count]).run back =
            (.ok (.array copy), later) ∧
          later.store.items copy = (data.take count.val.toNat).map .byte ∧
          later.OnFile ref (stream.advance count.val.toNat) new ∧
          ∀ other target bytes, later.OnFile other target bytes → target.access.canWrite →
            ∃ result last,
              (r.call "fileio" "fWrite" [.filehandle other, .array copy]).run later =
                (.ok (.integer 1), last) ∧
              last.OnFile other (target.advance count.val.toNat) result ∧
              Overwrites bytes target.position (data.take count.val.toNat) result ∧
              (bytes = [] → target.position = 0 → result = data.take count.val.toNat) := by
  have canRead : stream.access.canRead := by rw [rights]; rfl
  have canWrite : stream.access.canWrite := by rw [rights]; rfl
  obtain ⟨new, written, wrote, kept, overwrites, covers⟩ :=
    run_write provides here canWrite (.bytes items)
  refine ⟨new, written, wrote, kept, overwrites, covers, fun n same => ?position,
    fun n same => ?length, fun start same => ?_⟩
  case position =>
    rw [run_getPosition provides kept, Integer.ofNat_eq (i := n) (by simpa [Stream.advance])]
  case length => rw [run_length provides kept, Integer.ofNat_eq same]
  obtain ⟨back, moved, returned, -⟩ := run_setPosition provides kept start (by omega)
  have here : back.OnFile ref stream new := by
    have position : start.val.toNat = stream.position := by omega
    rw [position] at returned
    exact returned
  refine ⟨back, moved, here, ?_, fun count valid within => ?_⟩
  · rw [run_getPosition provides here, Integer.ofNat_eq same]
  obtain ⟨copy, later, read, copied, kept⟩ :=
    run_read_written provides here canRead overwrites valid within
  refine ⟨copy, later, read, copied, kept, fun other target bytes there canWrite => ?_⟩
  obtain ⟨result, last, rewrote, kept, overwrites, -⟩ :=
    run_write provides there canWrite (.bytes copied)
  rw [List.length_take, Nat.min_eq_left (by omega)] at kept
  refine ⟨result, last, rewrote, kept, overwrites, ?_⟩
  rintro rfl start
  rw [start] at overwrites
  exact overwrites.eq_of_empty

/-- A file of one byte, a handle that stands two bytes past its end, and two bytes to be written. -/
def pastTheEnd : World where
  store := { (World.oneFile (.data [1] .empty) 3).store with arrays := #[[.byte 7, .byte 8]] }
  files := (World.oneFile (.data [1] .empty) 3).files

/-- The bytes are written behind two zeros and read again from there. -/
theorem write_then_read_pastTheEnd :
    ∃ new written back copy later,
      (standardRegistry.call "fileio" "fWrite" [.filehandle ⟨0⟩, .array ⟨0⟩]).run pastTheEnd =
        (.ok (.integer 1), written) ∧
      new.length = 5 ∧ new[1]? = some 0 ∧ new[2]? = some 0 ∧
      (standardRegistry.call "fileio" "fSetPos" [.filehandle ⟨0⟩, .integer (.ofNat 3)]).run
        written = (.ok .void, back) ∧
      (standardRegistry.call "fileio" "fRead" [.filehandle ⟨0⟩, .integer (.ofNat 2)]).run back =
        (.ok (.array copy), later) ∧
      later.store.items copy = [.byte 7, .byte 8] ∧
      later.OnFile ⟨0⟩ ⟨⟨1⟩, 5, .readWrite⟩ new := by
  have here : pastTheEnd.OnFile ⟨0⟩ ⟨⟨1⟩, 3, .readWrite⟩ [1] := ⟨rfl, rfl⟩
  have items : pastTheEnd.store.items ⟨0⟩ = [7, 8].map .byte := rfl
  obtain ⟨new, written, wrote, _, overwrites, _, _, _, rest⟩ :=
    write_then_read provides_standardRegistry here rfl items
  obtain ⟨back, moved, _, _, reads⟩ := rest (.ofNat 3) rfl
  obtain ⟨copy, later, read, copied, kept, _⟩ := reads (.ofNat 2) (by decide) (by decide)
  have nonempty : [(7 : UInt8), 8] ≠ [] := List.cons_ne_nil _ _
  exact ⟨new, written, back, copy, later, wrote, overwrites.length_eq nonempty,
    overwrites.zeros nonempty 1 (by decide) (by decide),
    overwrites.zeros nonempty 2 (by decide) (by decide), moved, read, copied, kept⟩

end Library

end ScriptHost
