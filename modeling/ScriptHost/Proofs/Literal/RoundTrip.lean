import ScriptHost.Proofs.Decimal.Shortest
import ScriptHost.Proofs.Decimal.Text
import ScriptHost.Proofs.Float.Packing
import ScriptHost.Proofs.Literal.Classification

/-!
Texts that come back when they are classified and shown again. The text of a float is read back as
the float if it has a point; without one it is decimal text of an integer and is shown as such, or
it is a string. Only the text of negative zero does not come back.
-/

namespace ScriptHost

open Float.Model (Format)
open Float.Model.UnpackedFloat (Sign)

/-! ### Reading floats back -/

/-- A sign as it is written. -/
def signText : Sign → List Char
  | .positive => []
  | .negative => ['-']

theorem toList_signed (sign : Sign) (text : String) :
    (floatText.signed sign text).toList = signText sign ++ text.toList := by
  cases sign with
  | positive => rfl
  | negative => exact String.toList_append

section Fractions

variable {m : Nat} {e : Int}

/-- A fraction that is the shortest decimal of a float is read as that float. -/
theorem unpack_toFloat_numeral (sign : Sign) (canonical : Binary64.Canonical m e) {places : Nat}
    (scaled : (Decimal.shortest m e).exponent = -(places : Int)) (fraction : 0 < places) :
    (Decimal.numeral (sign == .negative) (Decimal.shortest m e).digits
      places).toFloat.toModel.unpack = .finite sign m e canonical.pos := by
  obtain ⟨few, digits⟩ := Decimal.shortest_digits_lt canonical scaled fraction
  have pos := Decimal.shortest_digits_pos canonical
  have decisive : (Decimal.shortest m e).digits < 10 ^ Numeral.decisiveDigits :=
    digits.trans (by decide +kernel)
  have rounds := (Decimal.shortest_spec (e := e) canonical.pos).1
  rw [Decimal.value, scaled, zpow_neg, zpow_natCast, ← div_eq_mul_inv] at rounds
  have read : Float.Model.ofScientific (Decimal.shortest m e).digits (-(places : Int)) =
      .pack (.finite .positive m e canonical.pos) :=
    congrArg Float.Model.pack
      (Binary64.ofScientific_eq pos fraction (by omega) canonical rounds)
  have unpacked (sign : Sign) : (Float.Model.pack (.finite sign m e canonical.pos)).unpack =
      .finite sign m e canonical.pos :=
    Binary64.unpack_pack sign canonical
  unfold Numeral.toFloat
  dsimp only
  rw [Decimal.magnitude_numeral _ places pos decisive]
  dsimp only
  rw [read]
  cases sign with
  | positive => exact unpacked .positive
  | negative =>
    change (Float.Model.pack (Float.Model.unpack (.pack _)).neg).unpack = _
    rw [unpacked .positive]
    exact unpacked .negative

end Fractions

namespace Literal

open Grammar

/-! ### Texts that come back -/

/-- Decimal text of an integer comes back, also if the integer is out of range. -/
theorem toText_ofText_of_digits {text : String} {sign : Sign} {n : Nat}
    (split : text.toList = signText sign ++ Nat.toDigits 10 n)
    (nonzero : sign = .negative → n ≠ 0) : (ofText text).toText = text := by
  have inside : text.toList ∈ whole := by
    rw [split]
    cases sign with
    | positive => exact append_toDigits_mem_whole n (.inl rfl)
    | negative => exact append_toDigits_mem_whole n (.inr rfl)
  rcases ofText_cases text with ⟨i, found, _, value⟩ | ⟨x, _, _, marked⟩ | ⟨found, _⟩
  · rw [found, ← String.toList_inj]
    change i.toText.toList = text.toList
    rw [Integer.toList_toText, split]
    rw [split] at value
    cases sign with
    | positive =>
      have value : (n : Int) = i.val := (denoted_toDigits n).symm.trans value
      rw [if_neg (by omega), ← value]
      rfl
    | negative =>
      have value : -(n : Int) = i.val := (denoted_minus_toDigits n).symm.trans value
      have positive := nonzero rfl
      rw [if_pos (by omega), ← value, Int.natAbs_neg]
      rfl
  · exact absurd marked (not_marked_of_mem_whole inside)
  · rw [found]
    rfl

theorem toText_ofText_of_words {text : String} (words : text.toList.all (! ·.isDigit)) :
    (ofText text).toText = text := by
  have letters : ∀ c ∈ text.toList, ¬c.isDigit := by simpa using words
  rw [ofText_eq_string letters]
  rfl

theorem floatText_of_unpack {x : Float} {sign : Sign} {m : Nat} {e : Int} {pos : 0 < m}
    (found : x.toModel.unpack = .finite sign m e pos) :
    floatText x = floatText.signed sign (Decimal.shortest m e).toText := by
  unfold floatText
  rw [found]

/-- The text of a finite float other than zero comes back. -/
theorem toText_ofText_of_finite {x : Float} {sign : Sign} {m : Nat} {e : Int} {pos : 0 < m}
    (found : x.toModel.unpack = .finite sign m e pos) :
    (ofText (floatText x)).toText = floatText x := by
  have canonical : Binary64.Canonical m e := Binary64.canonical_of_unpack found
  have digits := Decimal.shortest_digits_pos canonical
  have split := toList_signed sign (Decimal.shortest m e).toText
  rw [← floatText_of_unpack found] at split
  by_cases integral : 0 ≤ (Decimal.shortest m e).exponent
  · rw [Decimal.toText_of_nonneg digits integral] at split
    exact toText_ofText_of_digits split fun _ => (Nat.mul_pos digits (Nat.pow_pos (by decide))).ne'
  · obtain ⟨places, scaled⟩ : ∃ places : Nat, (Decimal.shortest m e).exponent = -(places : Int) :=
      ⟨(Decimal.shortest m e).exponent.natAbs, by omega⟩
    have fraction : 0 < places := by omega
    rw [Decimal.toText_of_neg scaled fraction] at split
    have read := unpack_toFloat_numeral sign canonical scaled fraction
    have spelled := Decimal.bodySpelledBy_numeral (sign == .negative) (Decimal.shortest m e).digits
      places
    have marked : Marked (floatText x).toList := by
      rw [split]
      exact .inl (List.mem_append_right _ (List.mem_append_right _ List.mem_cons_self))
    have minus : signText sign = if (sign == Sign.negative) then ['-'] else [] := by
      cases sign <;> rfl
    rw [ofText_eq_float spelled marked (split.trans (congrArg (· ++ _) minus))]
    exact (floatText_of_unpack read).trans (floatText_of_unpack found).symm

theorem toText_ofText_minusZero : (ofText "-0").toText = "0" := by
  have value : denoted "-0".toList = (0 : Integer).val := by decide
  have inside : "-0".toList ∈ whole := append_toDigits_mem_whole 0 (.inr rfl)
  rw [ofText_eq_integer inside value]
  decide

/-- The text of a float comes back exactly if the float is not negative zero. -/
theorem toText_ofText_floatText (x : Float) :
    (ofText (floatText x)).toText = floatText x ↔ floatText x ≠ "-0" := by
  constructor
  · intro same zero
    rw [zero, toText_ofText_minusZero] at same
    exact absurd same (by decide)
  · intro nonzero
    cases found : x.toModel.unpack with
    | notANumber =>
      have text : floatText x = "NaN" := by rw [floatText, found]
      rw [text]
      exact toText_ofText_of_words (by decide)
    | infinity sign =>
      have text : floatText x = floatText.signed sign "inf" := by rw [floatText, found]
      rw [text]
      cases sign with
      | positive => exact toText_ofText_of_words (by decide)
      | negative => exact toText_ofText_of_words (by decide)
    | zero sign =>
      have text : floatText x = floatText.signed sign "0" := by rw [floatText, found]
      cases sign with
      | positive =>
        have split : (floatText x).toList = signText .positive ++ Nat.toDigits 10 0 :=
          text ▸ toList_signed .positive "0"
        exact toText_ofText_of_digits split Sign.noConfusion
      | negative => exact absurd text nonzero
    | finite sign m e pos => exact toText_ofText_of_finite found

/-- What is shown for a classified text is the text again, if it is decimal text of an integer, the
text of a float other than negative zero, or text that is classified as a string. -/
theorem render_toValue_ofText (s : Store) :
    (∀ n : Integer,
      ((ofText n.toText).toValue s).2.render ((ofText n.toText).toValue s).1 = n.toText) ∧
    (∀ x : Float,
      ((ofText (floatText x)).toValue s).2.render ((ofText (floatText x)).toValue s).1 =
        floatText x ↔ floatText x ≠ "-0") ∧
    ∀ text, (∃ stamp held, ((ofText text).toValue s).1 = .string stamp held) →
      ((ofText text).toValue s).2.render ((ofText text).toValue s).1 = text := by
  simp only [render_toValue]
  refine ⟨fun n => ?_, toText_ofText_floatText, fun text ⟨_, _, shown⟩ => ?_⟩
  · rw [ofText_toText]
    rfl
  · rcases ofText_cases text with ⟨i, found, _⟩ | ⟨x, found, _⟩ | ⟨found, _⟩
    · rw [found] at shown
      cases shown
    · rw [found] at shown
      cases shown
    · rw [found]
      rfl

theorem render_half_and_version :
    floatText 0.5 ≠ "-0" ∧
    ((ofText (floatText 0.5)).toValue {}).2.render ((ofText (floatText 0.5)).toValue {}).1 =
      floatText 0.5 ∧
    (∃ stamp held, ((ofText "1.2.3").toValue {}).1 = .string stamp held) ∧
    ((ofText "1.2.3").toValue {}).2.render ((ofText "1.2.3").toValue {}).1 = "1.2.3" := by
  have nonzero : floatText 0.5 ≠ "-0" := by decide
  have version : ∃ stamp held, ((ofText "1.2.3").toValue {}).1 = .string stamp held :=
    ⟨_, _, rfl⟩
  exact ⟨nonzero, ((render_toValue_ofText {}).2.1 0.5).2 nonzero, version,
    (render_toValue_ofText {}).2.2 "1.2.3" version⟩

/-- The text of negative zero is that of an integer, which has no sign. -/
theorem render_minusZero :
    floatText (-0.0) = "-0" ∧
    ((ofText (floatText (-0.0))).toValue {}).2.render ((ofText (floatText (-0.0))).toValue {}).1 ≠
      floatText (-0.0) := by
  have text : floatText (-0.0) = "-0" := by decide
  rw [text, render_toValue, toText_ofText_minusZero]
  exact ⟨rfl, by decide⟩

end Literal

end ScriptHost
