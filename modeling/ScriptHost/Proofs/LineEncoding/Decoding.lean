import Mathlib.Data.String.Basic
import ScriptHost.Proofs.LineEncoding

/-!
Encoded lines read again by decoders that know nothing of the encoders. Bytes are the encoding of a
text exactly if they decode to it, in UTF-16 with the low byte of each unit first as well as in
UTF-8; so both encodings keep all of a text. ASCII keeps the number of characters only, and agrees
with UTF-8 where all of them are ASCII.
-/

namespace ScriptHost

/-! ### UTF-16 -/

namespace Utf16

/-- The 16-bit units of bytes, each with its low byte first. There are none if a byte is left over.
-/
def unitsOf : List UInt8 → Option (List Nat)
  | [] => some []
  | [_] => none
  | low :: high :: rest => (unitsOf rest).map ((low.toNat + 0x100 * high.toNat) :: ·)

/-- The units that stand for no character on their own. -/
def IsSurrogate (unit : Nat) : Prop :=
  0xD800 ≤ unit ∧ unit < 0xE000

instance (unit : Nat) : Decidable (IsSurrogate unit) :=
  inferInstanceAs (Decidable (_ ∧ _))

/-- The characters of units. A surrogate has to be a high one with a low one behind it, and the two
are one character. -/
def charsOf : List Nat → Option (List Char)
  | [] => some []
  | unit :: rest =>
    if IsSurrogate unit then
      match rest with
      | [] => none
      | next :: rest =>
        if unit < 0xDC00 ∧ 0xDC00 ≤ next ∧ next < 0xE000 then
          (charsOf rest).map
            (Char.ofNat (0x10000 + (unit - 0xD800) * 0x400 + (next - 0xDC00)) :: ·)
        else none
    else (charsOf rest).map (Char.ofNat unit :: ·)

/-- The characters of bytes. No mark of the byte order is looked for. -/
def decode (bytes : List UInt8) : Option (List Char) :=
  (unitsOf bytes).bind charsOf

section Units

variable {units : List Nat}

theorem unitsOf_littleEndian {unit : Nat} (fits : unit < 0x10000) (bytes : List UInt8) :
    unitsOf (LineEncoding.littleEndian unit ++ bytes) = (unitsOf bytes).map (unit :: ·) := by
  have low : (UInt8.ofNat (unit % 256)).toNat = unit % 256 :=
    UInt8.toNat_ofNat_of_lt' (Nat.mod_lt _ (by decide))
  have high : (UInt8.ofNat (unit / 256)).toNat = unit / 256 :=
    UInt8.toNat_ofNat_of_lt' (Nat.div_lt_of_lt_mul fits)
  rw [LineEncoding.littleEndian, List.cons_append, List.cons_append, List.nil_append, unitsOf,
    low, high, Nat.mod_add_div]

theorem littleEndian_of_bytes (low high : UInt8) :
    LineEncoding.littleEndian (low.toNat + 0x100 * high.toNat) = [low, high] := by
  have small := low.toNat_lt
  have remainder : (low.toNat + 0x100 * high.toNat) % 256 = low.toNat := by omega
  have quotient : (low.toNat + 0x100 * high.toNat) / 256 = high.toNat := by omega
  rw [LineEncoding.littleEndian, remainder, quotient, UInt8.ofNat_toNat, UInt8.ofNat_toNat]

/-- Bytes are split into units exactly if they are the bytes of these units. -/
theorem unitsOf_eq_some_iff {bytes : List UInt8} :
    unitsOf bytes = some units ↔
      (∀ unit ∈ units, unit < 0x10000) ∧ bytes = units.flatMap LineEncoding.littleEndian := by
  constructor
  · intro split
    fun_induction unitsOf bytes generalizing units with
    | case1 =>
      cases split
      exact ⟨List.forall_mem_nil _, rfl⟩
    | case2 => cases split
    | case3 low high rest ih =>
      obtain ⟨others, found, rfl⟩ := Option.map_eq_some_iff.1 split
      obtain ⟨fit, rfl⟩ := ih found
      have small := low.toNat_lt
      have large := high.toNat_lt
      refine ⟨List.forall_mem_cons.2 ⟨by omega, fit⟩, ?_⟩
      rw [List.flatMap_cons, littleEndian_of_bytes]
      rfl
  · rintro ⟨fit, rfl⟩
    induction units with
    | nil => rfl
    | cons unit units ih =>
      obtain ⟨first, others⟩ := List.forall_mem_cons.1 fit
      rw [List.flatMap_cons, unitsOf_littleEndian first, ih others, Option.map_some]

end Units

section Chars

variable {units : List Nat} {chars : List Char}

theorem not_isSurrogate_toNat (c : Char) : ¬IsSurrogate c.toNat := by
  have valid : c.toNat < 0xD800 ∨ 0xDFFF < c.toNat ∧ c.toNat < 0x110000 := c.valid
  unfold IsSurrogate
  omega

theorem toNat_lt (c : Char) : c.toNat < 0x110000 := by
  have valid : c.toNat < 0xD800 ∨ 0xDFFF < c.toNat ∧ c.toNat < 0x110000 := c.valid
  omega

theorem toNat_ofNat {n : Nat} (valid : n.isValidChar) : (Char.ofNat n).toNat = n := by
  rw [Char.ofNat, dif_pos valid]
  rfl

theorem charsOf_alone {unit : Nat} (alone : ¬IsSurrogate unit) (rest : List Nat) :
    charsOf (unit :: rest) = (charsOf rest).map (Char.ofNat unit :: ·) := by
  cases rest with
  | nil => simp only [charsOf, if_neg alone]
  | cons => simp only [charsOf, if_neg alone]

theorem charsOf_pair {unit next : Nat} (surrogate : IsSurrogate unit)
    (pair : unit < 0xDC00 ∧ 0xDC00 ≤ next ∧ next < 0xE000) (rest : List Nat) :
    charsOf (unit :: next :: rest) = (charsOf rest).map
      (Char.ofNat (0x10000 + (unit - 0xD800) * 0x400 + (next - 0xDC00)) :: ·) := by
  rw [charsOf, if_pos surrogate, if_pos pair]

theorem charsOf_utf16Units (c : Char) (units : List Nat) :
    charsOf (LineEncoding.utf16Units c ++ units) = (charsOf units).map (c :: ·) := by
  unfold LineEncoding.utf16Units
  split
  next => rw [List.singleton_append, charsOf_alone (not_isSurrogate_toNat c), Char.ofNat_toNat]
  next large =>
    have upper := toNat_lt c
    have surrogate : IsSurrogate (0xD800 + (c.toNat - 0x10000) / 0x400) := by
      unfold IsSurrogate
      omega
    have pair : 0xD800 + (c.toNat - 0x10000) / 0x400 < 0xDC00 ∧
        0xDC00 ≤ 0xDC00 + (c.toNat - 0x10000) % 0x400 ∧
        0xDC00 + (c.toNat - 0x10000) % 0x400 < 0xE000 := by omega
    have whole : 0x10000 + (0xD800 + (c.toNat - 0x10000) / 0x400 - 0xD800) * 0x400 +
        (0xDC00 + (c.toNat - 0x10000) % 0x400 - 0xDC00) = c.toNat := by omega
    rw [List.cons_append, List.singleton_append, charsOf_pair surrogate pair, whole,
      Char.ofNat_toNat]

theorem utf16Units_ofNat {unit : Nat} (alone : ¬IsSurrogate unit) (fits : unit < 0x10000) :
    LineEncoding.utf16Units (Char.ofNat unit) = [unit] := by
  have valid : unit.isValidChar := by
    unfold IsSurrogate at alone
    unfold Nat.isValidChar
    omega
  rw [LineEncoding.utf16Units, toNat_ofNat valid, if_pos fits]

theorem utf16Units_pair {unit next : Nat} (surrogate : IsSurrogate unit)
    (pair : unit < 0xDC00 ∧ 0xDC00 ≤ next ∧ next < 0xE000) :
    LineEncoding.utf16Units
      (Char.ofNat (0x10000 + (unit - 0xD800) * 0x400 + (next - 0xDC00))) = [unit, next] := by
  unfold IsSurrogate at surrogate
  have valid : (0x10000 + (unit - 0xD800) * 0x400 + (next - 0xDC00)).isValidChar := by
    unfold Nat.isValidChar
    omega
  have high : 0xD800 + (0x10000 + (unit - 0xD800) * 0x400 + (next - 0xDC00) - 0x10000) / 0x400 =
      unit := by omega
  have low : 0xDC00 + (0x10000 + (unit - 0xD800) * 0x400 + (next - 0xDC00) - 0x10000) % 0x400 =
      next := by omega
  rw [LineEncoding.utf16Units, toNat_ofNat valid, if_neg (by omega), high, low]

theorem lt_of_mem_utf16Units {c : Char} {unit : Nat} (member : unit ∈ LineEncoding.utf16Units c) :
    unit < 0x10000 := by
  have upper := toNat_lt c
  unfold LineEncoding.utf16Units at member
  split at member
  next small => rwa [List.mem_singleton.1 member]
  next large =>
    rw [List.mem_cons, List.mem_singleton] at member
    omega

/-- Units have characters exactly if they are the units of these characters. -/
theorem charsOf_eq_some_iff (fit : ∀ unit ∈ units, unit < 0x10000) :
    charsOf units = some chars ↔ units = chars.flatMap LineEncoding.utf16Units := by
  constructor
  · intro read
    fun_induction charsOf units generalizing chars with
    | case1 =>
      cases read
      rfl
    | case2 => cases read
    | case3 unit surrogate next rest pair ih =>
      obtain ⟨others, found, rfl⟩ := Option.map_eq_some_iff.1 read
      obtain ⟨-, fit⟩ := List.forall_mem_cons.1 fit
      obtain ⟨-, fit⟩ := List.forall_mem_cons.1 fit
      rw [List.flatMap_cons, utf16Units_pair surrogate pair, ← ih fit found]
      rfl
    | case4 => cases read
    | case5 unit rest alone ih =>
      obtain ⟨others, found, rfl⟩ := Option.map_eq_some_iff.1 read
      obtain ⟨first, fit⟩ := List.forall_mem_cons.1 fit
      rw [List.flatMap_cons, utf16Units_ofNat alone first, ← ih fit found]
      rfl
  · rintro rfl
    clear fit
    induction chars with
    | nil => rfl
    | cons c chars ih => rw [List.flatMap_cons, charsOf_utf16Units, ih, Option.map_some]

/-- Bytes decode to characters exactly if they are their encoding. -/
theorem decode_eq_some_iff {bytes : List UInt8} :
    decode bytes = some chars ↔ bytes = chars.flatMap LineEncoding.utf16.encodeChar := by
  have encoded : chars.flatMap LineEncoding.utf16.encodeChar =
      (chars.flatMap LineEncoding.utf16Units).flatMap LineEncoding.littleEndian :=
    List.flatMap_assoc.symm
  rw [decode, Option.bind_eq_some_iff, encoded]
  constructor
  · rintro ⟨units, split, read⟩
    obtain ⟨fit, rfl⟩ := unitsOf_eq_some_iff.1 split
    rw [(charsOf_eq_some_iff fit).1 read]
  · rintro rfl
    have fit : ∀ unit ∈ chars.flatMap LineEncoding.utf16Units, unit < 0x10000 := by
      intro unit member
      obtain ⟨c, -, member⟩ := List.mem_flatMap.1 member
      exact lt_of_mem_utf16Units member
    exact ⟨_, unitsOf_eq_some_iff.2 ⟨fit, rfl⟩, (charsOf_eq_some_iff fit).2 rfl⟩

end Chars

end Utf16

/-! ### Lines -/

namespace LineEncoding

section Lines

variable {text : String} {bytes : List UInt8}

theorem length_littleEndian_flatMap (units : List Nat) :
    (units.flatMap littleEndian).length = 2 * units.length := by
  induction units with
  | nil => rfl
  | cons unit units ih =>
    rw [List.flatMap_cons, List.length_append, ih, List.length_cons, Nat.mul_add_one, Nat.add_comm]
    rfl

theorem two_dvd_length_encodeLine (text : String) : 2 ∣ (utf16.encodeLine text).length := by
  have units : utf16.encodeLine text =
      ((text.toList ++ ['\n']).flatMap utf16Units).flatMap littleEndian :=
    List.flatMap_assoc.symm
  rw [units, length_littleEndian_flatMap]
  exact Nat.dvd_mul_right ..

/-- The mark of the byte order is the encoding of one character and of no other. -/
theorem byteOrderMark_prefix_encodeChar (c : Char) (bytes : List UInt8) :
    [0xFF, 0xFE] <+: utf16.encodeChar c ++ bytes ↔ c = '\uFEFF' := by
  have mark (unit : Nat) (rest : List UInt8) (fits : unit < 0x10000) :
      [0xFF, 0xFE] <+: littleEndian unit ++ rest ↔ unit = 0xFEFF := by
    have low : (UInt8.ofNat (unit % 256)).toNat = unit % 256 :=
      UInt8.toNat_ofNat_of_lt' (Nat.mod_lt _ (by decide))
    have high : (UInt8.ofNat (unit / 256)).toNat = unit / 256 :=
      UInt8.toNat_ofNat_of_lt' (Nat.div_lt_of_lt_mul fits)
    rw [littleEndian, List.cons_append, List.cons_append, List.cons_prefix_cons,
      List.cons_prefix_cons, ← UInt8.toNat_inj, ← UInt8.toNat_inj, low, high]
    simp only [UInt8.reduceToNat, List.nil_append, List.nil_prefix, and_true]
    omega
  have upper := Utf16.toNat_lt c
  rw [encodeChar, utf16Units]
  split
  next small =>
    rw [List.flatMap_singleton, mark _ _ small, ← Char.toNat_inj]
    rfl
  next large =>
    rw [List.flatMap_cons, List.append_assoc, mark _ _ (by omega), ← Char.toNat_inj]
    have named : '\uFEFF'.toNat = 0xFEFF := rfl
    omega

theorem byteOrderMark_prefix_encodeLine (text : String) :
    [0xFF, 0xFE] <+: utf16.encodeLine text ↔ text.toList.head? = some '\uFEFF' := by
  rw [encodeLine]
  cases text.toList with
  | nil => decide
  | cons c chars =>
    rw [List.cons_append, List.flatMap_cons, byteOrderMark_prefix_encodeChar, List.head?_cons,
      Option.some_inj]

/-- Bytes decode by UTF-8 to characters exactly if they are their encoding. -/
theorem utf8Decode?_eq_some_iff {chars : List Char} :
    bytes.toByteArray.utf8Decode? = some chars.toArray ↔
      bytes = chars.flatMap utf8.encodeChar := by
  have encoded : chars.utf8Encode = (chars.flatMap utf8.encodeChar).toByteArray := rfl
  constructor
  · intro decoded
    have present : bytes.toByteArray.utf8Decode?.isSome := by rw [decoded, Option.isSome_some]
    have again := ByteArray.utf8Encode_get_utf8Decode? (h := present)
    rw [← List.toByteArray_inj, ← encoded, ← again]
    simp only [decoded, Option.get_some]
  · rintro rfl
    rw [← encoded, List.utf8Decode?_utf8Encode]

theorem encodeLine_ascii (text : String) :
    ascii.encodeLine text = text.toList.map asciiByte ++ [newline] := by
  rw [encodeLine, List.flatMap_append, List.map_eq_flatMap]
  rfl

theorem asciiByte_lt (c : Char) : asciiByte c < 128 := by
  rw [asciiByte, UInt8.lt_iff_toNat_lt]
  split
  next plain => rwa [UInt8.toNat_ofNat_of_lt' (Nat.lt_trans plain (by decide))]
  next => decide

theorem keepsAscii_ascii : ascii.KeepsAscii := by
  unfold KeepsAscii
  decide

theorem keepsAscii_utf8 : utf8.KeepsAscii := by
  unfold KeepsAscii
  decide

theorem encodeLine_ascii_eq_utf8 (plain : ∀ c ∈ text.toList, c.toNat < 128) :
    ascii.encodeLine text = utf8.encodeLine text := by
  rw [encodeLine, encodeLine]
  refine List.flatMap_congr fun c inside => ?_
  have small : c.toNat < 128 := by
    rcases List.mem_append.1 inside with inside | last
    · exact plain c inside
    · rw [List.mem_singleton.1 last]
      decide
  rw [encodeChar_of_lt keepsAscii_ascii small, encodeChar_of_lt keepsAscii_utf8 small]

/-- Lines that decode to their text are different for different texts. -/
theorem encodeLine_injective {encoding : LineEncoding} (decode : List UInt8 → Option (List Char))
    (decodes : ∀ text, decode (encoding.encodeLine text) = some (text.toList ++ ['\n'])) :
    Function.Injective encoding.encodeLine := by
  intro text other same
  have chars : text.toList ++ ['\n'] = other.toList ++ ['\n'] := by
    rw [← Option.some_inj, ← decodes, same, decodes]
  exact String.toList_inj.1 (List.append_cancel_right chars)

/-- What the bytes of a line are in the three encodings a script can name. In UTF-16 and in UTF-8
they are the only bytes that decode to the text and a newline; no mark of the byte order is added to
the text's own. In ASCII there is a byte for each character, and a question mark for what has
none. -/
theorem encodeLine_decodes :
    (ofName? "unicode" = some .utf16 ∧ ofName? "utf8" = some .utf8 ∧
      ofName? "ascii" = some .ascii) ∧
    (∀ text, 2 ∣ (utf16.encodeLine text).length ∧
      (∀ bytes, Utf16.decode bytes = some (text.toList ++ ['\n']) ↔
        bytes = utf16.encodeLine text) ∧
      ([0xFF, 0xFE] <+: utf16.encodeLine text ↔ text.toList.head? = some '\uFEFF')) ∧
    (∀ text, utf8.encodeLine text = text.toUTF8.data.toList ++ [newline] ∧
      ∀ bytes : List UInt8, bytes.toByteArray.utf8Decode? = some (text.toList ++ ['\n']).toArray ↔
        bytes = utf8.encodeLine text) ∧
    (∀ text, (ascii.encodeLine text).length = text.length + 1 ∧
      (∀ b ∈ ascii.encodeLine text, b < 128) ∧
      (∀ (i : Nat) (c : Char), text.toList[i]? = some c →
        (ascii.encodeLine text)[i]? = some (if c.toNat < 128 then c.toUInt8 else '?'.toUInt8)) ∧
      (ascii.encodeLine text).getLast? = some 0x0A) ∧
    Function.Injective utf16.encodeLine ∧ Function.Injective utf8.encodeLine ∧
    ∀ text : String, (∀ c ∈ text.toList, c.toNat < 128) →
      ascii.encodeLine text = utf8.encodeLine text := by
  have decodes16 (text : String) (bytes : List UInt8) :
      Utf16.decode bytes = some (text.toList ++ ['\n']) ↔ bytes = utf16.encodeLine text :=
    Utf16.decode_eq_some_iff
  have decodes8 (text : String) (bytes : List UInt8) :
      bytes.toByteArray.utf8Decode? = some (text.toList ++ ['\n']).toArray ↔
        bytes = utf8.encodeLine text :=
    utf8Decode?_eq_some_iff
  refine ⟨by decide, fun text => ?unicode, fun text => ?utf8, fun text => ?ascii, ?injective16,
    ?injective8, fun text => encodeLine_ascii_eq_utf8⟩
  case unicode =>
    exact ⟨two_dvd_length_encodeLine text, decodes16 text, byteOrderMark_prefix_encodeLine text⟩
  case utf8 => exact ⟨by rw [encodeLine_eq keepsAscii_utf8, encodeText_utf8], decodes8 text⟩
  case ascii =>
    rw [encodeLine_ascii]
    refine ⟨by simp [String.length_toList], ?_, ?_, List.getLast?_concat ..⟩
    · intro b member
      rcases List.mem_append.1 member with member | last
      · obtain ⟨c, -, rfl⟩ := List.mem_map.1 member
        exact asciiByte_lt c
      · rw [List.mem_singleton.1 last]
        decide
    · intro i c at_i
      have inside : i < (text.toList.map asciiByte).length := by
        rw [List.length_map]
        exact (List.getElem?_eq_some_iff.1 at_i).1
      rw [List.getElem?_append_left inside, List.getElem?_map, at_i]
      rfl
  case injective16 =>
    exact encodeLine_injective Utf16.decode fun text => (decodes16 text _).2 rfl
  case injective8 =>
    let decode (bytes : List UInt8) := bytes.toByteArray.utf8Decode?.map Array.toList
    refine encodeLine_injective decode fun text => ?_
    show Option.map _ _ = _
    rw [(decodes8 text _).2 rfl, Option.map_some]

theorem encodeLine_decodes_plain :
    Utf16.decode [0x3D, 0xD8, 0x00, 0xDE, 0x0A, 0x00] = some ("😀".toList ++ ['\n']) ∧
    (∀ c ∈ "plain".toList, c.toNat < 128) ∧
    ascii.encodeLine "plain" = utf8.encodeLine "plain" := by
  obtain ⟨-, unicode, -, -, -, -, plain⟩ := encodeLine_decodes
  have allAscii : ∀ c ∈ "plain".toList, c.toNat < 128 := by simp
  refine ⟨?_, allAscii, plain "plain" allAscii⟩
  exact ((unicode "😀").2.1 _).2 (by decide)

end Lines

end LineEncoding

end ScriptHost
