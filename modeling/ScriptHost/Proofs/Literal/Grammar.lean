import Mathlib.Computability.Language
import Mathlib.Data.Nat.Digits.Defs
import ScriptHost.Proofs.Numeral

/-!
The grammar of numbers as formal languages, and the integer that decimal text denotes. A text of the
grammar is described by its parts in the order in which they stand in it.
-/

namespace ScriptHost

namespace Grammar

open Computability

/-! ### The language of numbers -/

def digit : Language Char :=
  { text | ∃ c : Char, c.isDigit ∧ text = [c] }

def character (c : Char) : Language Char :=
  {[c]}

def digits : Language Char :=
  digit * digit∗

def sign : Language Char :=
  1 + character '-'

/-- Digits with a point behind, among or in front of them, or without one. -/
def significand : Language Char :=
  digits + digits * character '.' * digit∗ + digit∗ * character '.' * digits

def exponent : Language Char :=
  (character 'e' + character 'E') * (1 + character '+' + character '-') * digits

/-- Decimal text of integers, of any size and with any number of leading zeros. -/
def whole : Language Char :=
  sign * digits

def number : Language Char :=
  sign * significand * (1 + exponent)

/-- Whether a text has a point or the mark of an exponent. -/
def Marked (text : List Char) : Prop :=
  '.' ∈ text ∨ 'e' ∈ text ∨ 'E' ∈ text

/-- What digits denote in the decimal system. -/
def positional (digits : List Char) : Nat :=
  Nat.ofDigits 10 (digits.reverse.map fun c => c.toNat - '0'.toNat)

/-- The integer that decimal text denotes. -/
def denoted : List Char → Int
  | '-' :: digits => -(positional digits : Int)
  | digits => positional digits

/-! ### Membership -/

variable {text : List Char}

theorem mem_character {c : Char} : text ∈ character c ↔ text = [c] :=
  Set.mem_singleton_iff

theorem mem_kstar_digit : text ∈ digit∗ ↔ ∀ c ∈ text, c.isDigit := by
  rw [Language.mem_kstar]
  constructor
  · rintro ⟨parts, rfl, each⟩ c member
    obtain ⟨part, inside, member⟩ := List.mem_flatten.1 member
    obtain ⟨d, isDigit, rfl⟩ := each part inside
    exact List.mem_singleton.1 member ▸ isDigit
  · intro all
    refine ⟨text.map ([·]), ?_, fun part member => ?_⟩
    · rw [← List.flatMap_def, List.flatMap_singleton']
    · obtain ⟨c, inside, rfl⟩ := List.mem_map.1 member
      exact ⟨c, all c inside, rfl⟩

theorem mem_digits : text ∈ digits ↔ text ≠ [] ∧ ∀ c ∈ text, c.isDigit := by
  rw [digits, Language.mem_mul]
  constructor
  · rintro ⟨first, ⟨c, isDigit, rfl⟩, rest, others, rfl⟩
    rw [mem_kstar_digit] at others
    exact ⟨List.cons_ne_nil c rest, List.forall_mem_cons.2 ⟨isDigit, others⟩⟩
  · rintro ⟨nonempty, all⟩
    obtain ⟨c, rest, rfl⟩ := List.exists_cons_of_ne_nil nonempty
    obtain ⟨isDigit, others⟩ := List.forall_mem_cons.1 all
    exact ⟨[c], ⟨c, isDigit, rfl⟩, rest, mem_kstar_digit.2 others, rfl⟩

theorem mem_sign : text ∈ sign ↔ text = [] ∨ text = ['-'] := by
  rw [sign, Language.mem_add, Language.mem_one, mem_character]

theorem mem_whole : text ∈ whole ↔
    ∃ minus ds, (minus = [] ∨ minus = ['-']) ∧ ds ≠ [] ∧ (∀ c ∈ ds, c.isDigit) ∧
      text = minus ++ ds := by
  simp only [whole, Language.mem_mul, mem_sign, mem_digits]
  constructor
  · rintro ⟨minus, signed, ds, ⟨nonempty, all⟩, rfl⟩
    exact ⟨minus, ds, signed, nonempty, all, rfl⟩
  · rintro ⟨minus, ds, signed, nonempty, all, rfl⟩
    exact ⟨minus, signed, ds, ⟨nonempty, all⟩, rfl⟩

theorem mem_significand : text ∈ significand ↔
    ∃ (front : List Char) (fraction : Option (List Char)),
      (∀ c ∈ front, c.isDigit) ∧ (∀ c ∈ fraction.getD [], c.isDigit) ∧
        front ++ fraction.getD [] ≠ [] ∧ text = front ++ Numeral.fractionText fraction := by
  simp only [significand, Language.mem_add, Language.mem_mul, mem_character]
  constructor
  · rintro ((inside | ⟨_, ⟨front, inside, _, rfl, rfl⟩, back, places, rfl⟩) |
      ⟨_, ⟨front, inside, _, rfl, rfl⟩, back, places, rfl⟩)
    · obtain ⟨nonempty, all⟩ := mem_digits.1 inside
      exact ⟨text, none, all, by simp, by simpa using nonempty, (List.append_nil text).symm⟩
    · obtain ⟨nonempty, all⟩ := mem_digits.1 inside
      exact ⟨front, some back, all, mem_kstar_digit.1 places, by simp [nonempty],
        List.append_cons front '.' back ▸ rfl⟩
    · obtain ⟨nonempty, all⟩ := mem_digits.1 places
      exact ⟨front, some back, mem_kstar_digit.1 inside, all, by simp [nonempty],
        List.append_cons front '.' back ▸ rfl⟩
  · rintro ⟨front, fraction, all, places, nonempty, rfl⟩
    cases fraction with
    | none =>
      rw [Option.getD_none, List.append_nil] at nonempty
      exact .inl (.inl (by simpa [Numeral.fractionText] using mem_digits.2 ⟨nonempty, all⟩))
    | some back =>
      rw [Option.getD_some] at places nonempty
      -- There is a digit on one side of the point at least.
      by_cases bare : front = []
      · have filled : back ≠ [] := by rintro rfl; exact nonempty (by simp [bare])
        exact .inr ⟨_, ⟨front, mem_kstar_digit.2 all, _, rfl, rfl⟩, back,
          mem_digits.2 ⟨filled, places⟩, by simp [Numeral.fractionText]⟩
      · exact .inl (.inr ⟨_, ⟨front, mem_digits.2 ⟨bare, all⟩, _, rfl, rfl⟩, back,
          mem_kstar_digit.2 places, by simp [Numeral.fractionText]⟩)

theorem mem_exponent : text ∈ exponent ↔
    ∃ (mark : Char) (e : Numeral.Exponent) (rest : List Char), (mark = 'e' ∨ mark = 'E') ∧
      e.SpelledBy rest ∧ text = mark :: rest := by
  simp only [exponent, Language.mem_mul, Language.mem_add, Language.mem_one, mem_character]
  constructor
  · rintro ⟨_, ⟨_, marked, sign, signed, rfl⟩, rest, inside, rfl⟩
    obtain ⟨nonempty, all⟩ := mem_digits.1 inside
    obtain ⟨negative, allowed⟩ : ∃ negative, sign ∈ Numeral.signs negative := by
      obtain (rfl | rfl) | rfl := signed
      · exact ⟨false, by simp [Numeral.signs]⟩
      · exact ⟨false, by simp [Numeral.signs]⟩
      · exact ⟨true, by simp [Numeral.signs]⟩
    have spelled : (⟨negative, rest⟩ : Numeral.Exponent).SpelledBy (sign ++ rest) :=
      ⟨all, nonempty, sign, allowed, rfl⟩
    obtain rfl | rfl := marked
    · exact ⟨'e', _, _, .inl rfl, spelled, by simp⟩
    · exact ⟨'E', _, _, .inr rfl, spelled, by simp⟩
  · rintro ⟨mark, e, rest, marked, ⟨all, nonempty, sign, allowed, rfl⟩, rfl⟩
    refine ⟨mark :: sign, ⟨[mark], ?_, sign, ?_, rfl⟩, e.digits, mem_digits.2 ⟨nonempty, all⟩, rfl⟩
    · simpa using marked
    · cases negative : e.negative with
      | true =>
        rw [negative] at allowed
        exact .inr (by simpa [Numeral.signs] using allowed)
      | false =>
        rw [negative] at allowed
        exact .inl (by simpa [Numeral.signs] using allowed)

theorem mem_tail : text ∈ 1 + exponent ↔ ∃ e, Numeral.TailSpelledBy e text := by
  rw [Language.mem_add, Language.mem_one, mem_exponent]
  constructor
  · rintro (rfl | ⟨mark, e, rest, marked, spelled, rfl⟩)
    · exact ⟨none, .absent⟩
    · exact ⟨some e, .given marked spelled⟩
  · rintro ⟨e, spelled⟩
    cases spelled with
    | absent => exact .inl rfl
    | given marked spelled => exact .inr ⟨_, _, _, marked, spelled, rfl⟩

/-- The numbers of the grammar are the numbers that can be read, with a minus sign or none. -/
theorem mem_number : text ∈ number ↔
    ∃ (n : Numeral) (minus body : List Char), minus = (if n.negative then ['-'] else []) ∧
      n.BodySpelledBy body ∧ text = minus ++ body := by
  simp only [number, Language.mem_mul]
  constructor
  · rintro ⟨_, ⟨minus, signed, _, inside, rfl⟩, tail, spelled, rfl⟩
    obtain ⟨front, fraction, all, places, nonempty, rfl⟩ := mem_significand.1 inside
    obtain ⟨e, spelled⟩ := mem_tail.1 spelled
    have body (negative : Bool) : (⟨negative, front, fraction, e⟩ : Numeral).BodySpelledBy
        (front ++ (Numeral.fractionText fraction ++ tail)) :=
      ⟨all, places, nonempty, tail, spelled, rfl⟩
    rcases mem_sign.1 signed with rfl | rfl
    · exact ⟨_, _, _, rfl, body false, by simp⟩
    · exact ⟨_, _, _, rfl, body true, by simp⟩
  · rintro ⟨n, minus, body, rfl, ⟨all, places, nonempty, tail, spelled, rfl⟩, rfl⟩
    refine ⟨_, ⟨if n.negative then ['-'] else [], mem_sign.2 ?_, _,
      mem_significand.2 ⟨n.whole, n.fraction, all, places, nonempty, rfl⟩, rfl⟩, tail,
      mem_tail.2 ⟨n.exponent, spelled⟩, by simp⟩
    split
    · exact .inr rfl
    · exact .inl rfl

theorem not_marked_of_mem_whole (inside : text ∈ whole) : ¬Marked text := by
  obtain ⟨minus, ds, signed, _, all, rfl⟩ := mem_whole.1 inside
  have plain : ∀ c ∈ minus ++ ds, c = '-' ∨ c.isDigit := by
    intro c member
    rcases List.mem_append.1 member with front | back
    · rcases signed with rfl | rfl
      · cases front
      · exact .inl (List.mem_singleton.1 front)
    · exact .inr (all c back)
  rintro (point | mark | mark)
  · exact absurd (plain _ point) (by decide)
  · exact absurd (plain _ mark) (by decide)
  · exact absurd (plain _ mark) (by decide)

end Grammar

end ScriptHost
