import Mathlib.Data.List.Basic

/-!
Texts that show where they end. The text of a value is legible among others if one who reads from
its start can tell which of the values it is and where it stops, whatever comes after it. Digits are
legible once something that is not a digit closes them, and lists once their items are.
-/

namespace ScriptHost

variable {α β : Type}

/-- No valid value but `a` has a text that can be taken for the text of `a`, and the text ends at
one place only. -/
def Legible (write : α → List Char) (valid : α → Prop) (a : α) : Prop :=
  ∀ b, valid b → ∀ rest other, write a ++ rest = write b ++ other → a = b ∧ rest = other

theorem append_stop_inj {stop : α} {xs ys rest other : List α} (first : stop ∉ xs)
    (second : stop ∉ ys) (same : xs ++ stop :: rest = ys ++ stop :: other) :
    xs = ys ∧ rest = other := by
  rcases List.append_eq_append_iff.1 same with ⟨between, rfl, split⟩ | ⟨between, rfl, split⟩
  · cases between with
    | nil => exact ⟨(List.append_nil xs).symm, (List.cons.inj split).2⟩
    | cons c between =>
      obtain rfl := (List.cons.inj split).1
      exact absurd (List.mem_append_right xs List.mem_cons_self) second
  · cases between with
    | nil => exact ⟨List.append_nil ys, (List.cons.inj split).2.symm⟩
    | cons c between =>
      obtain rfl := (List.cons.inj split).1
      exact absurd (List.mem_append_right ys List.mem_cons_self) first

namespace Legible

variable {write : α → List Char} {valid : α → Prop} {a : α} {stop : Char}

/-- A part and another one after it. -/
theorem pair {next : β → List Char} {validNext : β → Prop} {b : β} (between : List Char)
    (first : Legible write valid a) (second : Legible next validNext b) :
    Legible (fun both : α × β => write both.1 ++ between ++ next both.2)
      (fun both => valid both.1 ∧ validNext both.2) (a, b) := by
  rintro ⟨c, d⟩ ⟨validFirst, validSecond⟩ rest other same
  simp only [List.append_assoc] at same
  obtain ⟨rfl, behind⟩ := first c validFirst _ _ same
  obtain ⟨rfl, after⟩ := second d validSecond _ _ (List.append_cancel_left behind)
  exact ⟨rfl, after⟩

/-! ### Lists -/

/-- The items that follow the first one, each after a comma. -/
theorem followers {items others : List α} {rest other : List Char} (comma : stop ≠ ',')
    (each : ∀ a ∈ items, Legible write valid a) (validOthers : ∀ b ∈ others, valid b)
    (same : items.flatMap (fun a => ',' :: ' ' :: write a) ++ stop :: rest =
      others.flatMap (fun b => ',' :: ' ' :: write b) ++ stop :: other) :
    items = others ∧ rest = other := by
  induction items generalizing others with
  | nil =>
    cases others with
    | nil => exact ⟨rfl, (List.cons.inj same).2⟩
    | cons b others => exact absurd (List.cons.inj same).1 comma
  | cons a items ih =>
    cases others with
    | nil => exact absurd (List.cons.inj same).1.symm comma
    | cons b others =>
      obtain ⟨first, eachRest⟩ := List.forall_mem_cons.1 each
      obtain ⟨validFirst, validRest⟩ := List.forall_mem_cons.1 validOthers
      simp only [List.flatMap_cons, List.cons_append, List.append_assoc, List.cons.injEq,
        true_and] at same
      obtain ⟨rfl, behind⟩ := first b validFirst _ _ same
      obtain ⟨rfl, after⟩ := ih eachRest validRest behind
      exact ⟨rfl, after⟩

theorem intercalate_cons (a : α) (items : List α) :
    [',', ' '].intercalate ((a :: items).map write) =
      write a ++ items.flatMap fun a => ',' :: ' ' :: write a := by
  induction items generalizing a with
  | nil => simp
  | cons b items ih =>
    rw [List.map_cons, List.map_cons, List.intercalate_cons_cons, ← List.map_cons, ih]
    simp

/-- A list of items with commas between them and a closing character that no item starts with. -/
theorem list {items : List α} (comma : stop ≠ ',') (each : ∀ a ∈ items, Legible write valid a)
    (starts : ∀ a, valid a → ∀ rest, (write a ++ rest).head? ≠ some stop)
    (validItems : ∀ a ∈ items, valid a) :
    Legible (fun items => [',', ' '].intercalate (items.map write) ++ [stop])
      (fun items => ∀ a ∈ items, valid a) items := by
  intro others validOthers rest other same
  simp only [List.append_assoc, List.singleton_append] at same
  cases items with
  | nil =>
    cases others with
    | nil => exact ⟨rfl, (List.cons.inj same).2⟩
    | cons b others =>
      rw [intercalate_cons, List.append_assoc] at same
      exact absurd (congrArg List.head? same).symm
        (starts b (validOthers b List.mem_cons_self) _)
  | cons a items =>
    cases others with
    | nil =>
      rw [intercalate_cons, List.append_assoc] at same
      exact absurd (congrArg List.head? same)
        (starts a (validItems a List.mem_cons_self) _)
    | cons b others =>
      obtain ⟨first, eachRest⟩ := List.forall_mem_cons.1 each
      obtain ⟨validFirst, validRest⟩ := List.forall_mem_cons.1 validOthers
      rw [intercalate_cons, intercalate_cons, List.append_assoc, List.append_assoc] at same
      obtain ⟨rfl, behind⟩ := first b validFirst _ _ same
      obtain ⟨rfl, after⟩ := followers comma eachRest validRest behind
      exact ⟨rfl, after⟩

end Legible

/-! ### Digits -/

section Digits

variable {base n m : Nat} {c : Char}

theorem exists_digitChar_of_mem_toDigits (two : 1 < base) (member : c ∈ Nat.toDigits base n) :
    ∃ digit, c = Nat.digitChar digit := by
  induction n using Nat.strongRecOn with
  | ind n ih =>
    by_cases small : n < base
    · rw [Nat.toDigits_of_lt_base small, List.mem_singleton] at member
      exact ⟨n, member⟩
    · rw [Nat.toDigits_of_base_le two (Nat.le_of_not_lt small)] at member
      rcases List.mem_append.1 member with front | last
      · exact ih (n / base) (Nat.div_lt_self (by omega) two) front
      · exact ⟨n % base, List.mem_singleton.1 last⟩

theorem digitChar_inj (first : n < 16) (second : m < 16)
    (same : Nat.digitChar n = Nat.digitChar m) : n = m := by
  have all : ∀ i j : Fin 16, Nat.digitChar i = Nat.digitChar j → i = j := by decide
  exact congrArg Fin.val (all ⟨n, first⟩ ⟨m, second⟩ same)

theorem toDigits_injective (two : 1 < base) (sixteen : base ≤ 16) :
    Function.Injective (Nat.toDigits base) := by
  have front {n m : Nat} (small : n < base) (large : base ≤ m) :
      Nat.toDigits base n ≠ Nat.toDigits base m := by
    rw [Nat.toDigits_of_lt_base small, Nat.toDigits_of_base_le two large]
    intro same
    have lengths := congrArg List.length same
    have more := Nat.length_toDigits_pos (b := base) (n := m / base)
    rw [List.length_append, List.length_singleton, List.length_singleton] at lengths
    omega
  intro n
  induction n using Nat.strongRecOn with
  | ind n ih =>
    intro m same
    have below (k : Nat) : k % base < 16 := Nat.lt_of_lt_of_le (Nat.mod_lt k (by omega)) sixteen
    by_cases first : n < base
    · by_cases second : m < base
      · rw [Nat.toDigits_of_lt_base first, Nat.toDigits_of_lt_base second] at same
        exact digitChar_inj (by omega) (by omega) (List.cons.inj same).1
      · exact absurd same (front first (Nat.le_of_not_lt second))
    · by_cases second : m < base
      · exact absurd same.symm (front second (Nat.le_of_not_lt first))
      · rw [Nat.toDigits_of_base_le two (Nat.le_of_not_lt first),
          Nat.toDigits_of_base_le two (Nat.le_of_not_lt second)] at same
        obtain ⟨quotients, remainders⟩ := List.append_inj' same rfl
        have quotient := ih (n / base) (Nat.div_lt_self (by omega) two) quotients
        have remainder := digitChar_inj (below n) (below m) (List.cons.inj remainders).1
        rw [← Nat.div_add_mod n base, quotient, remainder, Nat.div_add_mod]

theorem notMem_toDigits {stop : Char} (two : 1 < base)
    (noDigit : ∀ digit, Nat.digitChar digit ≠ stop) : stop ∉ Nat.toDigits base n := by
  intro member
  obtain ⟨digit, same⟩ := exists_digitChar_of_mem_toDigits two member
  exact noDigit digit same.symm

/-- Digits end where something else stands. -/
theorem toDigits_append_inj {stop : Char} {rest other : List Char} (two : 1 < base)
    (sixteen : base ≤ 16) (noDigit : ∀ digit, Nat.digitChar digit ≠ stop)
    (same : Nat.toDigits base n ++ stop :: rest = Nat.toDigits base m ++ stop :: other) :
    n = m ∧ rest = other := by
  obtain ⟨digits, ends⟩ := append_stop_inj (notMem_toDigits two noDigit)
    (notMem_toDigits two noDigit) same
  exact ⟨toDigits_injective two sixteen digits, ends⟩

end Digits

end ScriptHost
