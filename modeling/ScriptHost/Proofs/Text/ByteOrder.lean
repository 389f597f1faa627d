import ScriptHost.Proofs.LineEncoding

/-!
The order of texts by their code points is the order of their bytes in UTF-8. Of two characters of
one length, the greater one has the greater byte where they first differ; of two lengths, the longer
one has the greater first byte.
-/

namespace ScriptHost

theorem ofNat_lt_ofNat {n m : Nat} (before : n < m) (small : m < 256) :
    UInt8.ofNat n < UInt8.ofNat m := by
  rw [UInt8.lt_iff_toNat_lt, UInt8.toNat_ofNat_of_lt' (Nat.lt_trans before small),
    UInt8.toNat_ofNat_of_lt' small]
  exact before

/-- Bytes for the numbers below a bound that come in the order of the numbers, whatever follows. -/
def Ascending (bound : Nat) (bytes : Nat → List UInt8) : Prop :=
  ∀ n m, n < m → m < bound → ∀ rest other, bytes n ++ rest < bytes m ++ other

theorem ascending_byte {bound base : Nat} (fits : bound + base ≤ 256) :
    Ascending bound fun n => [UInt8.ofNat (n % bound + base)] := by
  intro n m before small rest other
  dsimp only
  rw [Nat.mod_eq_of_lt (Nat.lt_trans before small), Nat.mod_eq_of_lt small]
  exact List.cons_lt_cons_iff.2 (.inl (ofNat_lt_ofNat (by omega) (by omega)))

/-- One more byte takes six more bits. -/
theorem Ascending.continue {bound : Nat} {bytes : Nat → List UInt8}
    (ascending : Ascending bound bytes) :
    Ascending (bound * 64) fun n => bytes (n / 64) ++ [UInt8.ofNat (n % 64 + 128)] := by
  intro n m before small rest other
  rw [List.append_assoc, List.append_assoc]
  by_cases same : n / 64 = m / 64
  · rw [same]
    refine List.append_left_lt (List.cons_lt_cons_iff.2 (.inl (ofNat_lt_ofNat ?_ ?_)))
    · omega
    · omega
  · exact ascending _ _ (by omega) (by omega) _ _

/-- The bytes of a code point, by their number. -/
inductive EncodedAs (n : Nat) : List UInt8 → Prop
  | one (high : n < 128) : EncodedAs n [UInt8.ofNat (n % 128 + 0)]
  | two (low : 128 ≤ n) (high : n < 32 * 64) :
      EncodedAs n ([UInt8.ofNat (n / 64 % 32 + 192)] ++ [UInt8.ofNat (n % 64 + 128)])
  | three (low : 32 * 64 ≤ n) (high : n < 16 * 64 * 64) :
      EncodedAs n ([UInt8.ofNat (n / 64 / 64 % 16 + 224)] ++ [UInt8.ofNat (n / 64 % 64 + 128)] ++
        [UInt8.ofNat (n % 64 + 128)])
  | four (low : 16 * 64 * 64 ≤ n) (high : n < 8 * 64 * 64 * 64) :
      EncodedAs n ([UInt8.ofNat (n / 64 / 64 / 64 % 8 + 240)] ++
        [UInt8.ofNat (n / 64 / 64 % 64 + 128)] ++ [UInt8.ofNat (n / 64 % 64 + 128)] ++
        [UInt8.ofNat (n % 64 + 128)])

theorem encodedAs_utf8EncodeChar (c : Char) : EncodedAs c.val.toNat (String.utf8EncodeChar c) := by
  have last : c.val.toNat < 0x110000 := by
    have valid := c.valid
    change c.val.toNat < 0xd800 ∨ 0xdfff < c.val.toNat ∧ c.val.toNat < 0x110000 at valid
    omega
  rw [String.utf8EncodeChar]
  generalize c.val.toNat = n at last
  split
  next high =>
    have small : n < 128 := by omega
    have bytes := EncodedAs.one small
    rwa [Nat.mod_eq_of_lt small] at bytes
  split
  next high => exact .two (by omega) (by omega)
  split
  next high =>
    have bytes := EncodedAs.three (n := n) (by omega) (by omega)
    rwa [Nat.div_div_eq_div_mul] at bytes
  next =>
    have bytes := EncodedAs.four (n := n) (by omega) (by omega)
    rwa [Nat.div_div_eq_div_mul (n / 64), Nat.div_div_eq_div_mul, Nat.div_div_eq_div_mul] at bytes

theorem EncodedAs.append_lt {n m : Nat} {bytes others : List UInt8} (first : EncodedAs n bytes)
    (second : EncodedAs m others) (before : n < m) (rest other : List UInt8) :
    bytes ++ rest < others ++ other := by
  -- The first bytes decide between different lengths.
  have leads {a b : Nat} {x y : List UInt8} (less : a < b) (small : b < 256) :
      UInt8.ofNat a :: x < UInt8.ofNat b :: y :=
    List.cons_lt_cons_iff.2 (.inl (ofNat_lt_ofNat less small))
  cases first with
  | one _ =>
    cases second with
    | one high => exact ascending_byte (by decide) n m before high rest other
    | _ => exact leads (by omega) (by omega)
  | two _ _ =>
    cases second with
    | one _ => omega
    | two _ high => exact (ascending_byte (by decide)).continue n m before high rest other
    | _ => exact leads (by omega) (by omega)
  | three _ _ =>
    cases second with
    | one _ | two _ _ => omega
    | three _ high =>
      exact (ascending_byte (by decide)).continue.continue n m before high rest other
    | four _ _ => exact leads (by omega) (by omega)
  | four _ _ =>
    cases second with
    | four _ high =>
      exact (ascending_byte (by decide)).continue.continue.continue n m before high rest other
    | _ => omega

theorem flatMap_utf8EncodeChar_lt {xs ys : List Char} (before : xs < ys) :
    xs.flatMap String.utf8EncodeChar < ys.flatMap String.utf8EncodeChar := by
  change List.Lex (· < ·) xs ys at before
  induction before with
  | @nil c _ =>
    obtain ⟨b, rest, bytes⟩ := List.exists_cons_of_ne_nil (String.utf8EncodeChar_ne_nil (c := c))
    rw [List.flatMap_nil, List.flatMap_cons, bytes]
    exact List.nil_lt_cons ..
  | rel less =>
    rw [List.flatMap_cons, List.flatMap_cons]
    exact (encodedAs_utf8EncodeChar _).append_lt (encodedAs_utf8EncodeChar _) less _ _
  | cons _ ih =>
    rw [List.flatMap_cons, List.flatMap_cons]
    exact List.append_left_lt ih

/-- What comes before in the order of code points comes before in the order of bytes. -/
theorem toUTF8_lt {first second : String} (before : first < second) :
    first.toUTF8.data.toList < second.toUTF8.data.toList := by
  rw [← LineEncoding.encodeText_utf8, ← LineEncoding.encodeText_utf8]
  exact flatMap_utf8EncodeChar_lt before

end ScriptHost
