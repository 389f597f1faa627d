import ScriptHost.Proofs.Library.OpenFile
import ScriptHost.Proofs.LineEncoding
import ScriptHost.Proofs.Registry.Transparency
import ScriptHost.Proofs.Stream.Lines

/-!
Reading and writing the lines of a file. Calls that read lines give the lines of the file one by one
and empty texts at its end, and leave the file as it is. Lines that are written at the end of a file
in an encoding that keeps ASCII are read again from there.
-/

namespace ScriptHost

/-- A call ended with a text. -/
def GivesText (ended : Except Abort Value) (text : String) : Prop :=
  ∃ stamp, ended = .ok (.string stamp text)

/-- A line that is to be written, and the name of the encoding it is to be written in. -/
structure WrittenLine where
  lineStamp : Stamp
  text : String
  stamp : Stamp
  encoding : String

namespace WrittenLine

def args (l : WrittenLine) (ref : HandleRef) : List Value :=
  [.filehandle ref, .string l.lineStamp l.text, .string l.stamp l.encoding]

/-- The encoding of a line that can be told from the next one. -/
def known (l : WrittenLine) : LineEncoding :=
  if l.encoding = "ascii" then .ascii else .utf8

/-- The bytes of the line without the newline behind it. -/
def bytes (l : WrittenLine) : List UInt8 :=
  l.known.encodeText l.text

variable {l : WrittenLine}

namespace Separate

end Separate

end WrittenLine

namespace Library

open Files

/-- The texts of lines, and empty texts behind them, one by one. -/
theorem texts_succ (n : Nat) (lines : List (List UInt8)) :
    (lines.take (n + 1)).map latin1Text ++ List.replicate (n + 1 - lines.length) "" =
      latin1Text (lines.headD []) ::
        ((lines.tail.take n).map latin1Text ++ List.replicate (n - lines.tail.length) "") := by
  cases lines with
  | nil => simp [List.replicate_succ]
  | cons line lines =>
    rw [List.length_cons, Nat.add_sub_add_right]
    rfl

section Lines

variable {r : Registry} (provides : ∀ f ∈ standard, f ∈ r.entries) {w : World} {ref : HandleRef}
  {stream : Stream} {bytes : List UInt8} (here : w.OnFile ref stream bytes)
include provides here

/-- One call gives the first of the lines in front of the handle and moves behind it. -/
theorem run_readLine_head (canRead : stream.access.canRead) :
    let rest := bytes.drop stream.position
    ∃ ended later, (r.call "fileio" "fReadLine" [.filehandle ref]).run w = (ended, later) ∧
      GivesText ended (latin1Text ((linesOf rest).headD [])) ∧
      later.OnFile ref (stream.advance (firstLineSize rest)) bytes ∧ later.files = w.files := by
  intro rest
  obtain ⟨stamp, later, run, moved, files⟩ := run_readLine provides here canRead
  rw [headD_linesOf]
  exact ⟨_, later, run, ⟨stamp, rfl⟩, moved, files⟩

/-- Any number of calls give as many lines, and empty texts once there are no more. -/
theorem runAll_readLine (canRead : stream.access.canRead)
    (within : stream.position ≤ bytes.length) {lines : List (List UInt8)}
    (ahead : linesOf (bytes.drop stream.position) = lines) (n : Nat) :
    ∃ ended later position,
      Host.runAll (List.replicate n (r.call "fileio" "fReadLine" [.filehandle ref])) w =
        (ended, later) ∧
      List.Forall₂ GivesText ended
        ((lines.take n).map latin1Text ++ List.replicate (n - lines.length) "") ∧
      later.OnFile ref { stream with position } bytes ∧ later.files = w.files ∧
      position ≤ bytes.length ∧ linesOf (bytes.drop position) = lines.drop n := by
  induction n generalizing w stream lines with
  | zero =>
    refine ⟨[], w, stream.position, rfl, ?_, here, rfl, within, ahead⟩
    rw [Nat.zero_sub]
    exact .nil
  | succ n ih =>
    let rest := bytes.drop stream.position
    let moved := stream.advance (firstLineSize rest)
    obtain ⟨first, next, run, text, onFile, files⟩ := run_readLine_head provides here canRead
    have inside : moved.position ≤ bytes.length := by
      have := firstLineSize_le rest
      rw [List.length_drop] at this
      change stream.position + firstLineSize rest ≤ bytes.length
      omega
    have tail : linesOf (bytes.drop moved.position) = lines.tail := by
      rw [← ahead, tail_linesOf, List.drop_drop]
      rfl
    obtain ⟨ended, later, position, runs, texts, there, same, inside, remain⟩ :=
      ih onFile canRead inside tail
    rw [ahead] at text
    refine ⟨first :: ended, later, position, ?_, ?_, there, same.trans files, inside, ?_⟩
    · rw [List.replicate_succ, Host.runAll_cons, run, runs]
    · rw [texts_succ]
      exact .cons text texts
    · rw [remain, List.drop_tail]

end Lines

/-- With newlines behind the texts, or between them if there is none at the end, the lines of a file
make up its text. -/
theorem latin1Text_eq_join (bytes : List UInt8) :
    latin1Text bytes =
      if bytes.getLast? = some newline then
        String.join (((linesOf bytes).map latin1Text).map (· ++ "\n"))
      else "\n".intercalate ((linesOf bytes).map latin1Text) := by
  split
  next ended => rw [← latin1Text_flatMap, (join_linesOf bytes).1 ended]
  next unended => rw [← latin1Text_intercalate, (join_linesOf bytes).2 unended]

/-- What reading lines through an open handle on a regular file gives, where the handle has the
right to read. A call reads bytes one by one until it meets a newline or the end of the file, and
gives those before it as Latin-1; the handle then stands behind the newline or at the end, and no
file has changed. From the start of a file on, the calls give its lines one after the other and have
read the whole file after the last of them, not before: a line for each newline, and one for bytes
behind the last newline. Together with the newlines the lines are the text of the file. -/
theorem readLine_splits {r : Registry} (provides : ∀ f ∈ standard, f ∈ r.entries) {w : World}
    {ref : HandleRef} {stream : Stream} {bytes : List UInt8} (here : w.OnFile ref stream bytes)
    (canRead : stream.access.canRead) :
    let rest := bytes.drop stream.position
    let line := rest.takeWhile (· ≠ newline)
    let position :=
      if newline ∈ rest then stream.position + line.length + 1
      else max stream.position bytes.length
    stream.ReadsLine w.files line { stream with position } ∧
      (∃ stamp text later,
        (r.call "fileio" "fReadLine" [.filehandle ref]).run w = (.ok (.string stamp text), later) ∧
        text.toList.map Char.toNat = line.map UInt8.toNat ∧
        later.OnFile ref { stream with position } bytes ∧ later.files = w.files) ∧
      (stream.position = 0 → ∃ lines : List String,
        lines.length = bytes.count newline +
          (if bytes ≠ [] ∧ bytes.getLast? ≠ some newline then 1 else 0) ∧
        (∀ n, ∃ ended later position,
          Host.runAll (List.replicate n (r.call "fileio" "fReadLine" [.filehandle ref])) w =
            (ended, later) ∧
          List.Forall₂ GivesText ended (lines.take n ++ List.replicate (n - lines.length) "") ∧
          later.OnFile ref { stream with position } bytes ∧ later.files = w.files ∧
          position ≤ bytes.length ∧ (position = bytes.length ↔ lines.length ≤ n)) ∧
        latin1Text bytes =
          if bytes.getLast? = some newline then String.join (lines.map (· ++ "\n"))
          else "\n".intercalate lines) := by
  intro rest line position
  have moved : stream.advance (firstLineSize rest) = { stream with position } :=
    stream.advance_firstLineSize bytes
  refine ⟨?bytewise, ?call, fun start => ?lines⟩
  case bytewise =>
    rw [← moved]
    exact Stream.readsLine canRead here.bytes_eq
  case call =>
    obtain ⟨stamp, later, run, onFile, files⟩ := run_readLine provides here canRead
    rw [← moved]
    exact ⟨stamp, _, later, run, map_toNat_latin1Text line, onFile, files⟩
  case lines =>
    have ahead : linesOf (bytes.drop stream.position) = linesOf bytes := by
      rw [start, List.drop_zero]
    refine ⟨(linesOf bytes).map latin1Text, ?_, fun n => ?_, latin1Text_eq_join bytes⟩
    · rw [List.length_map, length_linesOf]
    obtain ⟨ended, later, position, runs, texts, onFile, files, within, remain⟩ :=
      runAll_readLine provides here canRead (by omega) ahead n
    refine ⟨ended, later, position, runs, ?_, onFile, files, within, ?_⟩
    · rw [List.length_map, ← List.map_take]
      exact texts
    · rw [List.length_map]
      exact position_eq_length_iff within remain

/-- The first of two lines, where the second one has no newline. -/
theorem readLine_splits_two :
    ∃ stamp text later lines,
      (standardRegistry.call "fileio" "fReadLine" [.filehandle ⟨0⟩]).run
          (World.oneFile (.data [65, 10, 233] .empty) 0) = (.ok (.string stamp text), later) ∧
        text.toList.map Char.toNat = [65] ∧
        later.OnFile ⟨0⟩ ⟨⟨1⟩, 2, .readWrite⟩ [65, 10, 233] ∧
        lines.length = 2 ∧ "A\né" = "\n".intercalate lines := by
  obtain ⟨_, ⟨stamp, text, later, run, latin1, onFile, _⟩, whole⟩ :=
    readLine_splits provides_standardRegistry
      (World.oneFile_onFile (.data [65, 10, 233] .empty) 0) rfl
  obtain ⟨lines, length, _, joined⟩ := whole rfl
  exact ⟨stamp, text, later, lines, run, latin1, onFile, length, joined⟩

end Library

end ScriptHost
