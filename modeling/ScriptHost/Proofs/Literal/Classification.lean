import ScriptHost.Native.Result
import ScriptHost.Proofs.Literal.Grammar
import ScriptHost.Value.Outline

/-!
What a text is classified as. The readers take more than the grammar has, such as a plus sign in
front or words, and the filters in front of them take more than can be read; together they leave
just the grammar.
-/

namespace ScriptHost

namespace Literal

open Grammar

variable {text body : List Char}

/-! ### Filters and readers -/

theorem withoutMinus_append {minus : List Char} (signed : minus = [] ∨ minus = ['-'])
    (unsigned : Numeral.Unsigned body) : withoutMinus (minus ++ body) = body := by
  rcases signed with rfl | rfl
  · cases body with
    | nil => rfl
    | cons c body =>
      have other : c ≠ '-' := fun same => unsigned.1 (congrArg some same)
      simp [withoutMinus, other]
  · rfl

theorem exists_minus (text : List Char) :
    ∃ minus, (minus = [] ∨ minus = ['-']) ∧ text = minus ++ withoutMinus text := by
  unfold withoutMinus
  split
  · exact ⟨['-'], .inr rfl, rfl⟩
  · exact ⟨[], .inl rfl, rfl⟩

theorem isDecimal_iff : isDecimal text ↔ text ∈ whole := by
  rw [mem_whole]
  constructor
  · intro decimal
    obtain ⟨minus, signed, split⟩ := exists_minus text
    simp only [isDecimal, Bool.and_eq_true, Bool.not_eq_true', List.isEmpty_eq_false_iff,
      List.all_eq_true] at decimal
    exact ⟨minus, _, signed, decimal.1, decimal.2, split⟩
  · rintro ⟨minus, ds, signed, nonempty, all, rfl⟩
    have unsigned := Numeral.unsigned_of_digits nonempty all
    simp only [isDecimal, withoutMinus_append signed unsigned, Bool.and_eq_true, Bool.not_eq_true',
      List.isEmpty_eq_false_iff, List.all_eq_true]
    exact ⟨nonempty, all⟩

theorem valueOfDigits_eq_positional (ds : List Char) :
    Numeral.valueOfDigits ds = positional ds := by
  rw [Numeral.valueOfDigits, positional]
  induction ds using List.reverseRecOn with
  | nil => rfl
  | append_singleton front c ih =>
    rw [Nat.ofDigitChars_append, ih, List.reverse_concat, List.map_cons, Nat.ofDigits_cons,
      Nat.ofDigitChars_cons, Nat.ofDigitChars_nil]
    exact Nat.add_comm _ _

theorem denoted_eq_positional (unsigned : Numeral.Unsigned text) :
    denoted text = positional text := by
  cases text with
  | nil => rfl
  | cons c text =>
    have other : c ≠ '-' := fun same => unsigned.1 (congrArg some same)
    simp [denoted, other]

theorem integerOf?_of_mem_whole (inside : text ∈ whole) :
    integerOf? text = Integer.ofInt? (denoted text) := by
  obtain ⟨minus, ds, signed, nonempty, all, rfl⟩ := mem_whole.1 inside
  have unsigned := Numeral.unsigned_of_digits nonempty all
  have readable : ds ≠ [] ∧ ds.all Char.isDigit := ⟨nonempty, List.all_eq_true.2 all⟩
  rcases signed with rfl | rfl
  · have split : Numeral.splitSign ([] ++ ds) = (false, ds) :=
      Numeral.splitSign_append (by simp [Numeral.signs]) unsigned
    rw [List.nil_append, denoted_eq_positional unsigned, ← valueOfDigits_eq_positional]
    unfold integerOf?
    rw [← List.nil_append ds, split]
    exact if_pos readable
  · have split : Numeral.splitSign (['-'] ++ ds) = (true, ds) :=
      Numeral.splitSign_append (by simp [Numeral.signs]) unsigned
    unfold integerOf?
    rw [split, List.singleton_append, denoted, ← valueOfDigits_eq_positional]
    exact if_pos readable

/-- No word has a digit. -/
theorem floatOfWord?_of_isDigit {word : List Char} {c : Char} (member : c ∈ word)
    (isDigit : c.isDigit) : floatOfWord? (String.ofList (word.map Char.toLower)) = none := by
  have lower : c.toLower = c := by
    refine dif_neg fun upper => ?_
    have above := upper.1
    simp only [Char.isDigit, Bool.and_eq_true, decide_eq_true_eq, ge_iff_le,
      UInt32.le_iff_toNat_le] at isDigit above
    have apart : '9'.val.toNat < 'A'.val.toNat := by decide
    omega
  have member : c ∈ word.map Char.toLower := List.mem_map.2 ⟨c, member, lower⟩
  have letters (text : String) (none : text.toList.all (! ·.isDigit)) :
      String.ofList (word.map Char.toLower) ≠ text := by
    rintro rfl
    have := List.all_eq_true.1 none c (by simpa using member)
    simp [isDigit] at this
  unfold floatOfWord?
  split
  next same => exact absurd same (letters _ (by decide))
  next same => exact absurd same (letters _ (by decide))
  next same => exact absurd same (letters _ (by decide))
  next => rfl

/-- A text without its minus sign that looks like a float. -/
structure FloatShape (body : List Char) : Prop where
  start : ∃ c rest, body = c :: rest ∧ (c.isDigit ∨ c = '.')
  digit : ∃ c ∈ body, c.isDigit
  marked : Marked body
  plain : ∀ c ∈ body, isFloatChar c

theorem looksLikeFloat_iff : looksLikeFloat text ↔ FloatShape (withoutMinus text) := by
  simp only [looksLikeFloat, Bool.and_eq_true, List.all_eq_true]
  generalize withoutMinus text = body
  have start : body.head?.any (fun c => c.isDigit || c = '.') ↔
      ∃ c rest, body = c :: rest ∧ (c.isDigit ∨ c = '.') := by
    cases body <;> simp
  have marked : body.any (fun c => c = '.' || c = 'e' || c = 'E') ↔ Marked body := by
    simp only [List.any_eq_true, Marked]
    grind
  rw [start, marked, List.any_eq_true]
  exact ⟨fun ⟨⟨⟨start, digit⟩, marked⟩, plain⟩ => ⟨start, digit, marked, plain⟩,
    fun shape => ⟨⟨⟨shape.start, shape.digit⟩, shape.marked⟩, shape.plain⟩⟩

theorem FloatShape.unsigned (shape : FloatShape body) : Numeral.Unsigned body := by
  obtain ⟨c, rest, rfl, digit | rfl⟩ := shape.start
  · exact Numeral.unsigned_of_isDigit digit
  · exact ⟨by simp, by simp⟩

theorem isFloatChar_of_isDigit {c : Char} (digit : c.isDigit) : isFloatChar c := by
  simp [isFloatChar, digit]

theorem isFloatChar_of_mem_signs {negative : Bool} {sign : List Char}
    (allowed : sign ∈ Numeral.signs negative) : ∀ c ∈ sign, isFloatChar c := by
  cases negative with
  | true =>
    obtain rfl : sign = ['-'] := by simpa [Numeral.signs] using allowed
    exact List.forall_mem_singleton.2 (by decide)
  | false =>
    obtain rfl | rfl : sign = [] ∨ sign = ['+'] := by simpa [Numeral.signs] using allowed
    · exact List.forall_mem_nil _
    · exact List.forall_mem_singleton.2 (by decide)

theorem isFloatChar_of_tailSpelledBy {exponent : Option Numeral.Exponent} {tail : List Char}
    (spelled : Numeral.TailSpelledBy exponent tail) : ∀ c ∈ tail, isFloatChar c := by
  cases spelled with
  | absent => exact fun _ member => absurd member List.not_mem_nil
  | given marked spelled =>
    obtain ⟨all, _, sign, allowed, rfl⟩ := spelled
    refine List.forall_mem_cons.2 ⟨by rcases marked with rfl | rfl <;> decide, fun c member => ?_⟩
    rcases List.mem_append.1 member with front | back
    · exact isFloatChar_of_mem_signs allowed c front
    · exact isFloatChar_of_isDigit (all c back)

/-- After the sign of a number stand digits, the point, the mark of the exponent and its sign. -/
theorem isFloatChar_of_bodySpelledBy {n : Numeral} (spelled : n.BodySpelledBy body) :
    ∀ c ∈ body, isFloatChar c := by
  obtain ⟨whole, places, _, tail, tailSpelled, rfl⟩ := spelled
  intro c member
  rcases List.mem_append.1 member with front | back
  · exact isFloatChar_of_isDigit (whole c front)
  rcases List.mem_append.1 back with back | behind
  · cases fraction : n.fraction with
    | none =>
      rw [fraction] at back
      cases back
    | some digits =>
      rw [fraction] at back places
      rcases List.mem_cons.1 back with rfl | inside
      · decide
      · exact isFloatChar_of_isDigit (places c inside)
  · exact isFloatChar_of_tailSpelledBy tailSpelled c behind

theorem exists_isDigit_of_bodySpelledBy {n : Numeral} (spelled : n.BodySpelledBy body) :
    ∃ c ∈ body, c.isDigit := by
  obtain ⟨whole, places, nonempty, tail, tailSpelled, rfl⟩ := spelled
  obtain ⟨c, member⟩ := List.exists_mem_of_ne_nil _ nonempty
  rcases List.mem_append.1 member with front | back
  · exact ⟨c, List.mem_append_left _ front, whole c front⟩
  · refine ⟨c, List.mem_append_right _ (List.mem_append_left _ ?_), places c back⟩
    cases fraction : n.fraction with
    | none =>
      rw [fraction] at back
      cases back
    | some digits => exact List.mem_cons_of_mem _ (by simpa [fraction] using back)

/-- A text that looks like a float and can be read as one is a number of the grammar that is marked
as a float. -/
theorem mem_number_of_floatOf? {x : Float} (looks : looksLikeFloat text)
    (read : floatOf? text = some x) : text ∈ number ∧ Marked text := by
  have shape := looksLikeFloat_iff.1 looks
  obtain ⟨minus, signed, split⟩ := exists_minus text
  obtain ⟨negative, form⟩ : ∃ negative : Bool, minus = if negative then ['-'] else [] := by
    rcases signed with rfl | rfl
    · exact ⟨false, rfl⟩
    · exact ⟨true, rfl⟩
  have allowed : minus ∈ Numeral.signs negative := by
    subst form
    cases negative <;> simp [Numeral.signs]
  have apart : Numeral.splitSign text = (negative, withoutMinus text) :=
    (congrArg _ split).trans (Numeral.splitSign_append allowed shape.unsigned)
  have marked : Marked text := by
    rw [split]
    exact shape.marked.imp (List.mem_append_right _)
      (Or.imp (List.mem_append_right _) (List.mem_append_right _))
  unfold floatOf? at read
  split at read
  next n found =>
    obtain ⟨sign, signOk, body, spelled, whole⟩ := Numeral.ofChars?_eq_some_iff.1 found
    have same := (congrArg _ whole).symm.trans apart
    rw [Numeral.splitSign_append signOk spelled.unsigned] at same
    obtain ⟨rfl, rfl⟩ := Prod.mk.inj same
    exact ⟨mem_number.2 ⟨n, minus, _, form, spelled, split⟩, marked⟩
  next =>
    obtain ⟨c, member, digit⟩ := shape.digit
    rw [apart] at read
    simp [floatOfWord?_of_isDigit member digit] at read

/-- The text of a number that is marked as a float is read as the number. -/
theorem floatOf?_of_bodySpelledBy {n : Numeral} {minus : List Char}
    (form : minus = if n.negative then ['-'] else []) (spelled : n.BodySpelledBy body)
    (marked : Marked (minus ++ body)) :
    looksLikeFloat (minus ++ body) ∧ floatOf? (minus ++ body) = some n.toFloat := by
  have signed : minus = [] ∨ minus = ['-'] := by
    subst form
    cases n.negative <;> simp
  have allowed : minus ∈ Numeral.signs n.negative := by
    subst form
    cases n.negative <;> simp [Numeral.signs]
  have bodyMarked : Marked body := by
    rcases signed with rfl | rfl <;> simpa [Marked] using marked
  have shape : FloatShape body :=
    ⟨spelled.exists_cons, exists_isDigit_of_bodySpelledBy spelled, bodyMarked,
      isFloatChar_of_bodySpelledBy spelled⟩
  have found : Numeral.ofChars? (minus ++ body) = some n :=
    Numeral.ofChars?_eq_some_iff.2 ⟨minus, allowed, body, spelled, rfl⟩
  refine ⟨looksLikeFloat_iff.2 ((withoutMinus_append signed spelled.unsigned).symm ▸ shape), ?_⟩
  rw [floatOf?, found]

/-! ### Classification -/

/-- Whether there is an integer of the given value. -/
def InRange (n : Int) : Prop :=
  -2 ^ 63 ≤ n ∧ n ≤ 2 ^ 63 - 1

theorem inRange_iff {n : Int} : InRange n ↔ ∃ i : Integer, n = i.val := by
  constructor
  · rintro ⟨lower, upper⟩
    exact ⟨⟨n, lower, Int.lt_of_le_sub_one upper⟩, rfl⟩
  · rintro ⟨i, rfl⟩
    exact ⟨i.lower, Int.le_sub_one_of_lt i.upper⟩

theorem integerRead_iff {n : Integer} :
    (if isDecimal text then integerOf? text else none) = some n ↔
      text ∈ whole ∧ denoted text = n.val := by
  rw [Option.ite_none_right_eq_some, isDecimal_iff]
  refine and_congr_right fun inside => ?_
  rw [integerOf?_of_mem_whole inside, Integer.ofInt?_eq_some_iff, eq_comm]

theorem floatRead_iff :
    (∃ x, (if looksLikeFloat text then floatOf? text else none) = some x) ↔
      text ∈ number ∧ Marked text := by
  simp only [Option.ite_none_right_eq_some]
  constructor
  · rintro ⟨x, looks, read⟩
    exact mem_number_of_floatOf? looks read
  · rintro ⟨inside, marked⟩
    obtain ⟨n, minus, body, form, spelled, rfl⟩ := mem_number.1 inside
    exact ⟨n.toFloat, floatOf?_of_bodySpelledBy form spelled marked⟩

theorem ofText_eq_integer {text : String} {n : Integer} (inside : text.toList ∈ whole)
    (value : denoted text.toList = n.val) : ofText text = .integer n := by
  unfold ofText
  dsimp only
  rw [integerRead_iff.2 ⟨inside, value⟩]

theorem ofText_eq_float {text : String} {n : Numeral}
    (spelled : n.BodySpelledBy body) (marked : Marked text.toList)
    (split : text.toList = (if n.negative then ['-'] else []) ++ body) :
    ofText text = .float n.toFloat := by
  have inside : text.toList ∈ number := mem_number.2 ⟨n, _, body, rfl, spelled, split⟩
  have unread : (if isDecimal text.toList then integerOf? text.toList else none) = none :=
    if_neg fun decimal => not_marked_of_mem_whole (isDecimal_iff.1 decimal) marked
  obtain ⟨looks, read⟩ := floatOf?_of_bodySpelledBy rfl spelled (split ▸ marked)
  rw [← split] at looks read
  unfold ofText
  dsimp only
  rw [unread, if_pos looks, read]

/-- A text without digits is no number of any kind. -/
theorem ofText_eq_string {text : String} (words : ∀ c ∈ text.toList, ¬c.isDigit) :
    ofText text = .string text := by
  have notDecimal : ¬isDecimal text.toList := by
    intro decimal
    obtain ⟨minus, ds, _, nonempty, all, split⟩ := mem_whole.1 (isDecimal_iff.1 decimal)
    obtain ⟨c, member⟩ := List.exists_mem_of_ne_nil ds nonempty
    exact words c (split ▸ List.mem_append_right minus member) (all c member)
  have notFloat : ¬looksLikeFloat text.toList := by
    intro looks
    obtain ⟨minus, _, split⟩ := exists_minus text.toList
    obtain ⟨c, member, digit⟩ := (looksLikeFloat_iff.1 looks).digit
    exact words c (split ▸ List.mem_append_right minus member) digit
  unfold ofText
  dsimp only
  rw [if_neg notDecimal, if_neg notFloat]

/-- The three classes of texts. -/
theorem ofText_cases (text : String) :
    (∃ n, ofText text = .integer n ∧ text.toList ∈ whole ∧ denoted text.toList = n.val) ∨
    (∃ x, ofText text = .float x ∧ text.toList ∈ number ∧ Marked text.toList) ∨
    (ofText text = .string text ∧ ¬(text.toList ∈ whole ∧ InRange (denoted text.toList)) ∧
      ¬(text.toList ∈ number ∧ Marked text.toList)) := by
  unfold ofText
  dsimp only
  split
  next n read => exact .inl ⟨n, rfl, integerRead_iff.1 read⟩
  next unread =>
    right
    have outside : ¬(text.toList ∈ whole ∧ InRange (denoted text.toList)) := by
      rintro ⟨inside, range⟩
      obtain ⟨n, value⟩ := inRange_iff.1 range
      rw [integerRead_iff.2 ⟨inside, value⟩] at unread
      cases unread
    split
    next x read => exact .inl ⟨x, rfl, floatRead_iff.1 ⟨x, read⟩⟩
    next unread =>
      refine .inr ⟨rfl, outside, fun other => ?_⟩
      obtain ⟨x, read⟩ := floatRead_iff.2 other
      rw [read] at unread
      cases unread

/-! ### Decimal text -/

section Decimals

variable (n : Nat)

theorem isDigit_toDigits : ∀ c ∈ Nat.toDigits 10 n, c.isDigit :=
  fun _ => Nat.isDigit_of_mem_toDigits (by decide) (by decide)

theorem append_toDigits_mem_whole {minus : List Char} (signed : minus = [] ∨ minus = ['-']) :
    minus ++ Nat.toDigits 10 n ∈ whole :=
  mem_whole.2 ⟨minus, _, signed, Nat.toDigits_ne_nil, isDigit_toDigits n, rfl⟩

theorem positional_toDigits : positional (Nat.toDigits 10 n) = n := by
  rw [← valueOfDigits_eq_positional, Numeral.valueOfDigits]
  exact Nat.ofDigitChars_ten_toDigits

theorem denoted_toDigits : denoted (Nat.toDigits 10 n) = n := by
  rw [denoted_eq_positional (Numeral.unsigned_of_digits Nat.toDigits_ne_nil (isDigit_toDigits n)),
    positional_toDigits]

theorem denoted_minus_toDigits : denoted ('-' :: Nat.toDigits 10 n) = -(n : Int) := by
  rw [denoted, positional_toDigits]

end Decimals

/-- The decimal text of an integer is read as the integer. -/
theorem ofText_toText (n : Integer) : ofText n.toText = .integer n := by
  refine ofText_eq_integer ?_ ?_
  · rw [n.toList_toText]
    refine append_toDigits_mem_whole _ ?_
    split
    · exact .inr rfl
    · exact .inl rfl
  · rw [n.toList_toText]
    split
    next negative =>
      rw [List.singleton_append, denoted_minus_toDigits]
      omega
    next =>
      rw [List.nil_append, denoted_toDigits]
      omega

/-! ### What a literal becomes -/

/-- The text of a literal. -/
def toText : Literal → String
  | string text => text
  | float number => floatText number
  | integer number => number.toText
  | byte number => number.toNat.repr

theorem render_toValue (l : Literal) (s : Store) :
    (l.toValue s).2.render (l.toValue s).1 = l.toText := by
  cases l <;> rfl

section Kinds

variable (s : Store) (text : String)

theorem toValue_eq_integer_iff (n : Integer) : ((ofText text).toValue s).1 = .integer n ↔
    (text.toList ∈ whole ∧ InRange (denoted text.toList)) ∧ denoted text.toList = n.val := by
  rcases ofText_cases text with ⟨i, found, inside, value⟩ | ⟨x, found, _, marked⟩ |
    ⟨found, outside, _⟩
  · rw [found]
    constructor
    · intro same
      obtain rfl : i = n := Value.integer.inj same
      exact ⟨⟨inside, inRange_iff.2 ⟨i, value⟩⟩, value⟩
    · rintro ⟨_, same⟩
      exact congrArg Value.integer (Integer.ext (value.symm.trans same))
  · rw [found]
    exact iff_of_false Value.noConfusion fun other =>
      not_marked_of_mem_whole other.1.1 marked
  · rw [found]
    exact iff_of_false Value.noConfusion fun other => outside other.1

theorem toValue_eq_float_iff : (∃ x, ((ofText text).toValue s).1 = .float x) ↔
    text.toList ∈ number ∧ Marked text.toList := by
  rcases ofText_cases text with ⟨i, found, inside, _⟩ | ⟨x, found, marked⟩ | ⟨found, _, unmarked⟩
  · rw [found]
    exact iff_of_false (fun ⟨_, same⟩ => Value.noConfusion same) fun other =>
      not_marked_of_mem_whole inside other.2
  · rw [found]
    exact iff_of_true ⟨x, rfl⟩ marked
  · rw [found]
    exact iff_of_false (fun ⟨_, same⟩ => Value.noConfusion same) unmarked

theorem toValue_eq_string_iff : (∃ stamp, ((ofText text).toValue s).1 = .string stamp text) ↔
    ¬(text.toList ∈ whole ∧ InRange (denoted text.toList)) ∧
      ¬(text.toList ∈ number ∧ Marked text.toList) := by
  rcases ofText_cases text with ⟨i, found, inside, value⟩ | ⟨x, found, marked⟩ |
    ⟨found, outside, unmarked⟩
  · rw [found]
    exact iff_of_false (fun ⟨_, same⟩ => Value.noConfusion same) fun other =>
      other.1 ⟨inside, inRange_iff.2 ⟨i, value⟩⟩
  · rw [found]
    exact iff_of_false (fun ⟨_, same⟩ => Value.noConfusion same) fun other => other.2 marked
  · rw [found]
    exact iff_of_true ⟨_, rfl⟩ ⟨outside, unmarked⟩

end Kinds

/-- The kind of value that a text becomes is decided by the grammar alone: an integer of the denoted
value, a float, or a string of the text itself. Decimal text of an integer becomes that integer,
which is shown by the same text. -/
theorem toValue_ofText_iff (s : Store) :
    (∀ text n, ((ofText text).toValue s).1 = .integer n ↔
      (text.toList ∈ whole ∧ InRange (denoted text.toList)) ∧ denoted text.toList = n.val) ∧
    (∀ text, (∃ x, ((ofText text).toValue s).1 = .float x) ↔
      text.toList ∈ number ∧ Marked text.toList) ∧
    (∀ text, (∃ stamp, ((ofText text).toValue s).1 = .string stamp text) ↔
      ¬(text.toList ∈ whole ∧ InRange (denoted text.toList)) ∧
        ¬(text.toList ∈ number ∧ Marked text.toList)) ∧
    ∀ n : Integer, ((ofText n.toText).toValue s).1 = .integer n ∧
      ((ofText n.toText).toValue s).2.render ((ofText n.toText).toValue s).1 = n.toText := by
  refine ⟨toValue_eq_integer_iff s, toValue_eq_float_iff s, toValue_eq_string_iff s, fun n => ?_⟩
  rw [render_toValue, ofText_toText]
  exact ⟨rfl, rfl⟩

end Literal

end ScriptHost
