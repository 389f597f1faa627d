import ScriptHost.Proofs.Text.Delimited
import ScriptHost.Text.Quoted

/-!
Where quoted text ends. A function quotes texts if it puts them between quotes, with every quote and
every backslash inside behind a backslash, and differently for different texts. That is all it takes
for quoted texts to be legible; it leaves open which other characters are escaped, and how.
-/

namespace ScriptHost

/-- No quote stands without a backslash in front of it, and no backslash without anything behind. -/
inductive Escaped : List Char → Prop
  | nil : Escaped []
  | plain {c : Char} {text : List Char} (noQuote : c ≠ '"') (noBackslash : c ≠ '\\')
      (after : Escaped text) : Escaped (c :: text)
  | escape {c : Char} {text : List Char} (after : Escaped text) : Escaped ('\\' :: c :: text)

structure Quotes (quote : String → String) : Prop where
  injective : Function.Injective quote
  enclosed : ∀ text, ∃ inside, Escaped inside ∧ (quote text).toList = '"' :: (inside ++ ['"'])

namespace Escaped

variable {text others rest other : List Char}

theorem of_forall (plain : ∀ c ∈ text, c ≠ '"' ∧ c ≠ '\\') : Escaped text := by
  induction text with
  | nil => exact .nil
  | cons c text ih =>
    obtain ⟨first, plainRest⟩ := List.forall_mem_cons.1 plain
    exact .plain first.1 first.2 (ih plainRest)

theorem append (first : Escaped text) (second : Escaped others) : Escaped (text ++ others) := by
  induction first with
  | nil => exact second
  | plain noQuote noBackslash _ ih => exact .plain noQuote noBackslash ih
  | escape _ ih => exact .escape ih

/-- The first quote without a backslash is the end. -/
theorem append_quote_inj (first : Escaped text) (second : Escaped others)
    (same : text ++ '"' :: rest = others ++ '"' :: other) : text = others ∧ rest = other := by
  induction first generalizing others with
  | nil =>
    cases second with
    | nil => exact ⟨rfl, (List.cons.inj same).2⟩
    | plain noQuote => exact absurd (List.cons.inj same).1.symm noQuote
    | escape => exact absurd (List.cons.inj same).1 (by decide)
  | plain noQuote noBackslash _ ih =>
    cases second with
    | nil => exact absurd (List.cons.inj same).1 noQuote
    | plain _ _ after =>
      obtain ⟨rfl, behind⟩ := List.cons.inj same
      obtain ⟨rfl, ends⟩ := ih after behind
      exact ⟨rfl, ends⟩
    | escape => exact absurd (List.cons.inj same).1 noBackslash
  | escape _ ih =>
    cases second with
    | nil => exact absurd (List.cons.inj same).1 (by decide)
    | plain _ noBackslash => exact absurd (List.cons.inj same).1.symm noBackslash
    | escape after =>
      obtain ⟨rfl, behind⟩ := List.cons.inj (List.cons.inj same).2
      obtain ⟨rfl, ends⟩ := ih after behind
      exact ⟨rfl, ends⟩

end Escaped

theorem Quotes.legible {quote : String → String} (quotes : Quotes quote) (text : String) :
    Legible (fun text => (quote text).toList) (fun _ => True) text := by
  intro other _ rest after same
  obtain ⟨inside, escaped, enclosed⟩ := quotes.enclosed text
  obtain ⟨others, escapedOthers, enclosedOthers⟩ := quotes.enclosed other
  simp only [enclosed, enclosedOthers, List.cons_append, List.append_assoc, List.nil_append,
    List.cons.injEq, true_and] at same
  obtain ⟨rfl, ends⟩ := escaped.append_quote_inj escapedOthers same
  exact ⟨quotes.injective (String.toList_inj.1 (enclosed.trans enclosedOthers.symm)), ends⟩

namespace Quoted

/-- The character that a letter behind a backslash stands for. -/
def meant : Char → Char
  | 'n' => '\n'
  | 'r' => '\r'
  | 't' => '\t'
  | '0' => '\x00'
  | c => c

/-- The three ways in which a character is written. -/
inductive Written (c : Char) : List Char → Prop
  | plain (noQuote : c ≠ '"') (noBackslash : c ≠ '\\') : Written c [c]
  | letter {letter : Char} (other : letter ≠ 'u') (stands : meant letter = c) :
      Written c ['\\', letter]
  | code : Written c ('\\' :: 'u' :: '\x7b' :: (Nat.toDigits 16 c.toNat ++ ['\x7d']))

theorem written_escape (c : Char) : Written c (escape c) := by
  unfold escape
  split
  next quote => exact .letter (by decide) quote.symm
  next noQuote =>
    split
    next backslash => exact .letter (by decide) backslash.symm
    next noBackslash =>
      repeat' split
      next newline => exact .letter (by decide) newline.symm
      next carriageReturn => exact .letter (by decide) carriageReturn.symm
      next tab => exact .letter (by decide) tab.symm
      next null => exact .letter (by decide) null.symm
      next => exact .code
      next => exact .plain noQuote noBackslash

theorem Written.escaped {c : Char} {text : List Char} (written : Written c text) :
    Escaped text := by
  cases written with
  | plain noQuote noBackslash => exact .plain noQuote noBackslash .nil
  | letter => exact .escape .nil
  | code =>
    refine .escape (.plain (by decide) (by decide) (.append (.of_forall fun d member => ?_)
      (.plain (by decide) (by decide) .nil)))
    obtain ⟨digit, rfl⟩ := exists_digitChar_of_mem_toDigits (by decide) member
    exact ⟨Nat.digitChar_ne '"' (by decide), Nat.digitChar_ne '\\' (by decide)⟩

theorem Written.append_inj {c d : Char} {text others rest other : List Char}
    (first : Written c text) (second : Written d others) (same : text ++ rest = others ++ other) :
    c = d ∧ rest = other := by
  cases first with
  | plain _ noBackslash =>
    cases second with
    | plain => exact List.cons.inj same
    | letter | code => exact absurd (List.cons.inj same).1 noBackslash
  | letter noCode stands =>
    cases second with
    | plain _ noBackslash => exact absurd (List.cons.inj same).1.symm noBackslash
    | letter _ standsOther =>
      obtain ⟨rfl, ends⟩ := List.cons.inj (List.cons.inj same).2
      exact ⟨stands.symm.trans standsOther, ends⟩
    | code => exact absurd (List.cons.inj (List.cons.inj same).2).1 noCode
  | code =>
    cases second with
    | plain _ noBackslash => exact absurd (List.cons.inj same).1.symm noBackslash
    | letter noCode => exact absurd (List.cons.inj (List.cons.inj same).2).1.symm noCode
    | code =>
      simp only [List.cons_append, List.append_assoc, List.nil_append, List.cons.injEq,
        true_and] at same
      obtain ⟨codes, ends⟩ := toDigits_append_inj (by decide) (by decide)
        (fun _ => Nat.digitChar_ne '\x7d' (by decide)) same
      exact ⟨Char.toNat_inj.1 codes, ends⟩

theorem flatMap_escape_cons_ne_nil (c : Char) (text : List Char) :
    (c :: text).flatMap escape ≠ [] := by
  rw [List.flatMap_cons]
  have written := written_escape c
  generalize escape c = front at written
  cases written <;> exact List.cons_ne_nil _ _

theorem flatMap_escape_injective : Function.Injective (List.flatMap escape) := by
  intro text
  induction text with
  | nil =>
    intro other same
    cases other with
    | nil => rfl
    | cons d other => exact absurd same.symm (flatMap_escape_cons_ne_nil d other)
  | cons c text ih =>
    intro other same
    cases other with
    | nil => exact absurd same (flatMap_escape_cons_ne_nil c text)
    | cons d other =>
      rw [List.flatMap_cons, List.flatMap_cons] at same
      obtain ⟨rfl, behind⟩ := (written_escape c).append_inj (written_escape d) same
      rw [ih behind]

theorem quotes_quote : Quotes quote where
  injective text other same := by
    have enclosed := (List.cons.inj (String.ofList_injective same)).2
    exact String.toList_inj.1 (flatMap_escape_injective (List.append_cancel_right enclosed))
  enclosed text := by
    refine ⟨text.toList.flatMap escape, ?_, String.toList_ofList⟩
    induction text.toList with
    | nil => exact .nil
    | cons c chars ih => exact (written_escape c).escaped.append ih

end Quoted

end ScriptHost
