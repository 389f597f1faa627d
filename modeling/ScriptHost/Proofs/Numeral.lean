import ScriptHost.Integer
import ScriptHost.Numeral

/-!
The texts of a number. `Numeral.SpelledBy` says how the parts of a number stand one after the other
in its text, and reading finds the parts of a text exactly if it is spelled that way.
-/

namespace ScriptHost

namespace Numeral

/-! ### Runs of digits -/

section Runs

variable {digits rest text : List Char}

/-- A run of digits ends where the first other character stands. -/
theorem takeWhile_digits_append (all : ∀ c ∈ digits, c.isDigit)
    (ends : ∀ c, rest.head? = some c → ¬c.isDigit) :
    (digits ++ rest).takeWhile Char.isDigit = digits := by
  rw [List.takeWhile_append_of_pos all]
  cases rest with
  | nil => simp
  | cons c rest => simp [ends c rfl]

theorem dropWhile_digits_append (all : ∀ c ∈ digits, c.isDigit)
    (ends : ∀ c, rest.head? = some c → ¬c.isDigit) :
    (digits ++ rest).dropWhile Char.isDigit = rest := by
  rw [List.dropWhile_append_of_pos all]
  cases rest with
  | nil => rfl
  | cons c rest => simp [ends c rfl]

theorem isDigit_of_mem_takeWhile : ∀ c ∈ text.takeWhile Char.isDigit, c.isDigit :=
  fun _ member => List.all_eq_true.1 List.all_takeWhile _ member

end Runs

/-! ### Signs -/

/-- The signs that a number may have. -/
def signs (negative : Bool) : List (List Char) :=
  if negative then [['-']] else [[], ['+']]

/-- No sign, so that another one could stand in front. -/
def Unsigned (text : List Char) : Prop :=
  text.head? ≠ some '-' ∧ text.head? ≠ some '+'

theorem unsigned_of_isDigit {c : Char} {text : List Char} (digit : c.isDigit) :
    Unsigned (c :: text) := by
  constructor <;>
  · intro head
    obtain rfl := Option.some.inj head
    exact absurd digit (by decide)

theorem unsigned_of_digits {digits : List Char} (nonempty : digits ≠ [])
    (all : ∀ c ∈ digits, c.isDigit) : Unsigned digits := by
  obtain ⟨c, others, rfl⟩ := List.exists_cons_of_ne_nil nonempty
  exact unsigned_of_isDigit (all c List.mem_cons_self)

theorem splitSign_append {negative : Bool} {sign body : List Char}
    (allowed : sign ∈ signs negative) (unsigned : Unsigned body) :
    splitSign (sign ++ body) = (negative, body) := by
  cases negative with
  | true =>
    obtain rfl : sign = ['-'] := by simpa [signs] using allowed
    rfl
  | false =>
    obtain rfl | rfl : sign = [] ∨ sign = ['+'] := by simpa [signs] using allowed
    · cases body with
      | nil => rfl
      | cons c body =>
        have minus : c ≠ '-' := fun same => unsigned.1 (congrArg some same)
        have plus : c ≠ '+' := fun same => unsigned.2 (congrArg some same)
        simp [splitSign, minus, plus]
    · rfl

theorem exists_sign (text : List Char) :
    ∃ sign ∈ signs (splitSign text).1, text = sign ++ (splitSign text).2 := by
  unfold splitSign
  split
  · exact ⟨['-'], by simp [signs], rfl⟩
  · exact ⟨['+'], by simp [signs], rfl⟩
  · exact ⟨[], by simp [signs], rfl⟩

/-! ### Exponents -/

/-- The text of an exponent after its mark: a sign, if any, and at least one digit. -/
structure Exponent.SpelledBy (e : Exponent) (text : List Char) : Prop where
  digits : ∀ c ∈ e.digits, c.isDigit
  nonempty : e.digits ≠ []
  spelled : ∃ sign ∈ signs e.negative, text = sign ++ e.digits

theorem Exponent.ofChars?_eq_some_iff {text : List Char} {e : Exponent} :
    ofChars? text = some e ↔ e.SpelledBy text := by
  constructor
  · intro read
    unfold ofChars? at read
    rw [Option.ite_none_right_eq_some] at read
    obtain ⟨⟨nonempty, all⟩, read⟩ := read
    obtain rfl := Option.some.inj read
    exact ⟨List.all_eq_true.1 all, nonempty, exists_sign text⟩
  · rintro ⟨all, nonempty, sign, allowed, rfl⟩
    unfold ofChars?
    rw [splitSign_append allowed (unsigned_of_digits nonempty all)]
    exact if_pos ⟨nonempty, List.all_eq_true.2 all⟩

/-- What follows the digits: nothing, or a mark and an exponent. -/
inductive TailSpelledBy : Option Exponent → List Char → Prop
  | absent : TailSpelledBy none []
  | given {e : Exponent} {mark : Char} {text : List Char} (marked : mark = 'e' ∨ mark = 'E')
      (spelled : e.SpelledBy text) : TailSpelledBy (some e) (mark :: text)

theorem exponentOfTail?_eq_some_iff {tail : List Char} {exponent : Option Exponent} :
    exponentOfTail? tail = some exponent ↔ TailSpelledBy exponent tail := by
  constructor
  · intro read
    cases tail with
    | nil =>
      obtain rfl := Option.some.inj read
      exact .absent
    | cons mark text =>
      obtain ⟨marked, read⟩ := Option.ite_none_right_eq_some.1 read
      obtain ⟨e, found, rfl⟩ := Option.map_eq_some_iff.1 read
      exact .given marked (Exponent.ofChars?_eq_some_iff.1 found)
  · intro spelled
    cases spelled with
    | absent => rfl
    | given marked spelled =>
      rw [exponentOfTail?, if_pos marked, Exponent.ofChars?_eq_some_iff.2 spelled, Option.map_some]

theorem TailSpelledBy.not_isDigit {exponent : Option Exponent} {tail : List Char}
    (spelled : TailSpelledBy exponent tail) : ∀ c, tail.head? = some c → ¬c.isDigit := by
  intro c head
  cases spelled with
  | absent => cases head
  | given marked =>
    obtain rfl := Option.some.inj head
    rcases marked with rfl | rfl <;> decide

/-! ### Fractions -/

def fractionText : Option (List Char) → List Char
  | none => []
  | some digits => '.' :: digits

theorem fractionText_append_splitFraction (text : List Char) :
    fractionText (splitFraction text).1 ++ (splitFraction text).2 = text := by
  unfold splitFraction
  split
  · exact congrArg ('.' :: ·) List.takeWhile_append_dropWhile
  · rfl

theorem isDigit_of_mem_splitFraction {text : List Char} :
    ∀ c ∈ (splitFraction text).1.getD [], c.isDigit := by
  unfold splitFraction
  split
  · exact isDigit_of_mem_takeWhile
  · exact fun _ member => absurd member List.not_mem_nil

theorem splitFraction_append {fraction : Option (List Char)} {exponent : Option Exponent}
    {tail : List Char} (digits : ∀ c ∈ fraction.getD [], c.isDigit)
    (spelled : TailSpelledBy exponent tail) :
    splitFraction (fractionText fraction ++ tail) = (fraction, tail) := by
  cases fraction with
  | some places =>
    rw [Option.getD_some] at digits
    rw [fractionText, List.cons_append, splitFraction,
      takeWhile_digits_append digits spelled.not_isDigit,
      dropWhile_digits_append digits spelled.not_isDigit]
  | none =>
    cases spelled with
    | absent => rfl
    | given marked => rcases marked with rfl | rfl <;> rfl

/-! ### Numbers -/

/-- The text of a number after its sign: its digits with the point among them, and its exponent. -/
structure BodySpelledBy (n : Numeral) (body : List Char) : Prop where
  whole : ∀ c ∈ n.whole, c.isDigit
  fraction : ∀ c ∈ n.fraction.getD [], c.isDigit
  nonempty : n.significand ≠ []
  spelled : ∃ tail, TailSpelledBy n.exponent tail ∧
    body = n.whole ++ (fractionText n.fraction ++ tail)

def SpelledBy (n : Numeral) (text : List Char) : Prop :=
  ∃ sign ∈ signs n.negative, ∃ body, n.BodySpelledBy body ∧ text = sign ++ body

variable {n : Numeral} {text body : List Char}

/-- After the digits in front of the point comes the point, the mark of the exponent or nothing. -/
theorem not_isDigit_after_whole (fraction : Option (List Char)) {exponent : Option Exponent}
    {tail : List Char} (spelled : TailSpelledBy exponent tail) :
    ∀ c, (fractionText fraction ++ tail).head? = some c → ¬c.isDigit := by
  cases fraction with
  | none => exact spelled.not_isDigit
  | some digits =>
    intro c head
    obtain rfl := Option.some.inj head
    decide

/-- The first character after the sign is a digit or the point. -/
theorem BodySpelledBy.exists_cons (spelled : n.BodySpelledBy body) :
    ∃ c rest, body = c :: rest ∧ (c.isDigit ∨ c = '.') := by
  obtain ⟨all, _, nonempty, tail, _, rfl⟩ := spelled
  cases whole : n.whole with
  | cons c rest => exact ⟨c, _, rfl, .inl (all c (whole ▸ List.mem_cons_self))⟩
  | nil =>
    cases fraction : n.fraction with
    | none => exact absurd (by rw [significand, whole, fraction]; rfl) nonempty
    | some digits => exact ⟨'.', _, rfl, .inr rfl⟩

theorem BodySpelledBy.unsigned (spelled : n.BodySpelledBy body) : Unsigned body := by
  obtain ⟨c, rest, rfl, digit | rfl⟩ := spelled.exists_cons
  · exact unsigned_of_isDigit digit
  · exact ⟨by simp, by simp⟩

/-- A text is read as a number exactly if it spells the number. -/
theorem ofChars?_eq_some_iff : ofChars? text = some n ↔ n.SpelledBy text := by
  constructor
  · intro read
    unfold ofChars? at read
    dsimp only at read
    split at read
    next => cases read
    next exponent found =>
      rw [Option.ite_none_left_eq_some] at read
      obtain ⟨nonempty, read⟩ := read
      obtain rfl := Option.some.inj read
      obtain ⟨sign, allowed, split⟩ := exists_sign text
      refine ⟨sign, allowed, _, ⟨isDigit_of_mem_takeWhile, isDigit_of_mem_splitFraction, nonempty,
        _, exponentOfTail?_eq_some_iff.1 found, rfl⟩, ?_⟩
      rwa [fractionText_append_splitFraction, List.takeWhile_append_dropWhile]
  · rintro ⟨sign, allowed, body, spelled, rfl⟩
    have unsigned := spelled.unsigned
    obtain ⟨all, places, nonempty, tail, tailSpelled, rfl⟩ := spelled
    have after := not_isDigit_after_whole n.fraction tailSpelled
    unfold ofChars?
    rw [splitSign_append allowed unsigned]
    simp only [takeWhile_digits_append all after, dropWhile_digits_append all after,
      splitFraction_append places tailSpelled, exponentOfTail?_eq_some_iff.2 tailSpelled]
    exact if_neg nonempty

end Numeral

/-! ### Decimal text of integers -/

theorem Integer.toList_toText (i : Integer) :
    i.toText.toList = (if i.val < 0 then ['-'] else []) ++ Nat.toDigits 10 i.val.natAbs := by
  unfold Integer.toText
  split
  next n val => simp [val]
  next n val => simp [val]

end ScriptHost
