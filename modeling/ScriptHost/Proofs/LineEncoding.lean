import Mathlib.Data.List.Basic
import ScriptHost.FileContent
import ScriptHost.LineEncoding

/-!
Bytes read as Latin-1, and lines in the encodings that leave ASCII characters as they are. In these
a line that has no newline is encoded without the byte of a newline, so that its end is found again.
-/

namespace ScriptHost

/-- The characters of bytes read as Latin-1 are the bytes, one to one. -/
theorem map_toNat_latin1Text (bytes : List UInt8) :
    (latin1Text bytes).toList.map Char.toNat = bytes.map UInt8.toNat := by
  rw [latin1Text, String.toList_ofList, List.map_map]
  refine List.map_congr_left fun b _ => ?_
  have valid : b.toNat.isValidChar := .inl (Nat.lt_trans b.toNat_lt (by decide))
  rw [Function.comp_apply, Char.ofNat, dif_pos valid]
  rfl

@[simp]
theorem latin1Text_nil : latin1Text [] = "" := rfl

@[simp]
theorem latin1Text_newline : latin1Text [newline] = "\n" := rfl

theorem latin1Text_append (front back : List UInt8) :
    latin1Text (front ++ back) = latin1Text front ++ latin1Text back := by
  rw [latin1Text, List.map_append, String.ofList_append]
  rfl

theorem latin1Text_flatMap (lines : List (List UInt8)) :
    latin1Text (lines.flatMap (· ++ [newline])) =
      String.join ((lines.map latin1Text).map (· ++ "\n")) := by
  induction lines with
  | nil => rfl
  | cons line lines ih =>
    rw [List.flatMap_cons, latin1Text_append, latin1Text_append, latin1Text_newline, ih]
    exact String.join_cons.symm

theorem latin1Text_intercalate (lines : List (List UInt8)) :
    latin1Text ([newline].intercalate lines) = "\n".intercalate (lines.map latin1Text) := by
  induction lines with
  | nil => rfl
  | cons line lines ih =>
    by_cases last : lines = []
    · rw [last, List.intercalate_singleton]
      exact String.intercalate_singleton.symm
    · rw [List.intercalate_cons_of_ne_nil last, latin1Text_append, latin1Text_append,
        latin1Text_newline, ih, List.map_cons,
        String.intercalate_cons_of_ne_nil (List.map_eq_nil_iff.not.2 last)]

namespace LineEncoding

variable {encoding : LineEncoding} {text : String}

/-- The bytes of a text, without the newline that ends a line. -/
def encodeText (encoding : LineEncoding) (text : String) : List UInt8 :=
  text.toList.flatMap encoding.encodeChar

/-- The encodings in which every ASCII character is its own byte. -/
def KeepsAscii (encoding : LineEncoding) : Prop :=
  encoding ≠ .utf16

theorem encodeChar_of_lt (keeps : encoding.KeepsAscii) {c : Char} (plain : c.toNat < 128) :
    encoding.encodeChar c = [UInt8.ofNat c.toNat] := by
  cases encoding with
  | ascii => rw [encodeChar, asciiByte, if_pos plain]
  | utf16 => exact absurd rfl keeps
  | utf8 =>
    have small : c.val.toNat ≤ 0x7f := Nat.le_of_lt_succ plain
    rw [encodeChar, String.utf8EncodeChar, if_pos small]
    rfl

theorem encodeLine_eq (keeps : encoding.KeepsAscii) :
    encoding.encodeLine text = encoding.encodeText text ++ [newline] := by
  have last : encoding.encodeChar '\n' = [newline] := encodeChar_of_lt keeps (by decide)
  rw [encodeLine, encodeText, List.flatMap_append, List.flatMap_singleton, last]

theorem encodeText_utf8 (text : String) :
    LineEncoding.utf8.encodeText text = text.toUTF8.data.toList := by
  rw [String.toUTF8_eq_toByteArray, ← String.utf8Encode_toList, List.utf8Encode,
    List.data_toByteArray]
  rfl

end LineEncoding

end ScriptHost
