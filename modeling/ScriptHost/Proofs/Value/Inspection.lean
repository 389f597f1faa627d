import ScriptHost.Proofs.Literal.Classification
import ScriptHost.Proofs.Text.Quoted
import ScriptHost.Proofs.Value.Acyclic

/-!
Diagnostic texts of plain data. The text of an outline without floats, file handles and marks can be
read back from the left, whatever strings and names hold, because quoted text shows where it ends.
So different outlines have different texts, and two values without floats, file handles and cycles
have one text exactly if they are equal.
-/

namespace ScriptHost

/-! ### Numbers -/

section Numbers

variable {rest other : List Char}

theorem noDigit_parenthesis (digit : Nat) : Nat.digitChar digit ≠ ')' :=
  Nat.digitChar_ne ')' (by decide)

theorem toText_append_inj {n m : Integer}
    (same : n.toText.toList ++ ')' :: rest = m.toText.toList ++ ')' :: other) :
    n = m ∧ rest = other := by
  have unclosed (n : Integer) : ')' ∉ n.toText.toList := by
    rw [n.toList_toText, List.mem_append, not_or]
    refine ⟨?_, notMem_toDigits (by decide) noDigit_parenthesis⟩
    split <;> decide
  obtain ⟨texts, ends⟩ := append_stop_inj (unclosed n) (unclosed m) same
  have literals : Literal.integer n = .integer m := by
    rw [← Literal.ofText_toText, String.toList_inj.1 texts, Literal.ofText_toText]
  exact ⟨Literal.integer.inj literals, ends⟩

end Numbers

namespace Outline

/-- There are no floats, no file handles and no marks in the outline. -/
inductive Plain : Outline → Prop
  | string (text : String) : Plain (.string text)
  | integer (n : Integer) : Plain (.integer n)
  | byte (b : UInt8) : Plain (.byte b)
  | longpointer (address : UInt64) : Plain (.longpointer address)
  | void : Plain .void
  | tuple {a b : Outline} (first : Plain a) (second : Plain b) : Plain (.tuple a b)
  | array {items : List Outline} (inside : ∀ o ∈ items, Plain o) : Plain (.array items)
  | struct {fields : List (String × Outline)} (inside : ∀ field ∈ fields, Plain field.2) :
      Plain (.struct fields)

variable {quote : String → String} {o : Outline}

/-- The characters of a diagnostic text. -/
def chars (quote : String → String) (o : Outline) : List Char :=
  (o.inspect quote).toList

/-- The characters of a field: its name in quotes, and the text of its value. -/
def fieldChars (quote : String → String) (field : String × Outline) : List Char :=
  (quote field.1).toList ++ [':', ' '] ++ field.2.chars quote

section Characters

variable (quote)

theorem chars_string (text : String) :
    (string text).chars quote = "Str(".toList ++ ((quote text).toList ++ [')']) := by
  change ("Str(" ++ quote text ++ ")").toList = _
  simp only [String.toList_append, String.reduceToList, List.append_assoc]

theorem chars_integer (n : Integer) :
    (integer n).chars quote = "Int(".toList ++ (n.toText.toList ++ [')']) := by
  change ("Int(" ++ n.toText ++ ")").toList = _
  simp only [String.toList_append, String.reduceToList, List.append_assoc]

theorem chars_byte (b : UInt8) :
    (byte b).chars quote = "Byte(".toList ++ (Nat.toDigits 10 b.toNat ++ [')']) := by
  change ("Byte(" ++ b.toNat.repr ++ ")").toList = _
  simp only [Nat.repr, String.toList_append, String.toList_ofList, String.reduceToList,
    List.append_assoc]

theorem chars_longpointer (address : UInt64) :
    (longpointer address).chars quote =
      "LongPointer(0x".toList ++ (Nat.toDigits 16 address.toNat ++ [')']) := by
  change ("LongPointer(0x" ++ String.ofList (Nat.toDigits 16 address.toNat) ++ ")").toList = _
  simp only [String.toList_append, String.toList_ofList, String.reduceToList, List.append_assoc]

theorem chars_tuple (a b : Outline) :
    (tuple a b).chars quote =
      "Tuple(".toList ++ (a.chars quote ++ [',', ' '] ++ b.chars quote ++ [')']) := by
  change ("Tuple(" ++ a.inspect quote ++ ", " ++ b.inspect quote ++ ")").toList = _
  simp only [chars, String.toList_append, String.reduceToList, List.append_assoc]

theorem chars_array (items : List Outline) :
    (array items).chars quote =
      "Array([".toList ++ ([',', ' '].intercalate (items.map (chars quote)) ++ [']'] ++ [')']) := by
  have texts : (inspectAll quote items).map String.toList = items.map (chars quote) := by
    induction items with
    | nil => rfl
    | cons head tail ih => exact congrArg (head.chars quote :: ·) ih
  change ("Array([" ++ ", ".intercalate (inspectAll quote items) ++ "])").toList = _
  simp only [String.toList_append, String.toList_intercalate, texts, String.reduceToList,
    List.append_assoc, List.cons_append, List.nil_append]

theorem chars_struct (fields : List (String × Outline)) :
    (struct fields).chars quote =
      "Struct(\x7b".toList ++
        ([',', ' '].intercalate (fields.map (fieldChars quote)) ++ ['\x7d'] ++ [')']) := by
  have texts : (inspectFields quote fields).map String.toList = fields.map (fieldChars quote) := by
    induction fields with
    | nil => rfl
    | cons head tail ih =>
      change (quote head.1 ++ ": " ++ head.2.inspect quote).toList :: _ = _ :: _
      rw [ih, String.toList_append, String.toList_append]
      rfl
  change ("Struct(\x7b" ++ ", ".intercalate (inspectFields quote fields) ++ "\x7d)").toList = _
  simp only [String.toList_append, String.toList_intercalate, texts, String.reduceToList,
    List.append_assoc, List.cons_append, List.nil_append]

end Characters

/-- The first four characters, which tell the kinds of plain values apart. -/
@[simp]
def heading : Outline → List Char
  | string _ => ['S', 't', 'r', '(']
  | integer _ => ['I', 'n', 't', '(']
  | byte _ => ['B', 'y', 't', 'e']
  | longpointer _ => ['L', 'o', 'n', 'g']
  | void => ['V', 'o', 'i', 'd']
  | tuple _ _ => ['T', 'u', 'p', 'l']
  | array _ => ['A', 'r', 'r', 'a']
  | struct _ => ['S', 't', 'r', 'u']
  | _ => []

theorem Plain.take_chars (plain : o.Plain) (rest : List Char) :
    (o.chars quote ++ rest).take 4 = o.heading := by
  cases plain with
  | string text => simp [chars_string, heading]
  | integer n => simp [chars_integer, heading]
  | byte b => simp [chars_byte, heading]
  | longpointer address => simp [chars_longpointer, heading]
  | void =>
    change ("Void".toList ++ rest).take 4 = _
    simp [heading]
  | tuple _ _ => simp [chars_tuple, heading]
  | array _ => simp [chars_array, heading]
  | struct _ => simp [chars_struct, heading]

theorem Plain.heading_eq {p : Outline} (first : o.Plain) (second : p.Plain)
    {rest other : List Char} (same : o.chars quote ++ rest = p.chars quote ++ other) :
    o.heading = p.heading := by
  rw [← first.take_chars rest, same, second.take_chars]

theorem Plain.head?_chars (plain : o.Plain) (rest : List Char) :
    (o.chars quote ++ rest).head? ≠ some ']' := by
  intro closed
  have start : o.heading.head? = some ']' := by
    rw [← plain.take_chars rest, List.head?_take, if_neg (by decide), closed]
  cases plain <;> simp [heading] at start

theorem head?_fieldChars (quotes : Quotes quote) (field : String × Outline) (rest : List Char) :
    (fieldChars quote field ++ rest).head? ≠ some '\x7d' := by
  obtain ⟨inside, -, enclosed⟩ := quotes.enclosed field.1
  simp [fieldChars, enclosed]

/-! ### Reading from the left -/

/-- The text of an outline that can be read from the left. -/
abbrev Readable (quote : String → String) (o : Outline) : Prop :=
  Legible (chars quote) Plain o

section Readable

variable (quotes : Quotes quote)
include quotes

theorem readable_string (text : String) : Readable quote (.string text) := by
  intro p valid rest other same
  have heads := (Plain.string text).heading_eq valid same
  cases valid with
  | string otherText =>
    simp only [chars_string, List.append_assoc, List.append_cancel_left_eq] at same
    obtain ⟨rfl, ends⟩ := quotes.legible text otherText trivial _ _ same
    exact ⟨rfl, List.append_cancel_left ends⟩
  | _ => simp [heading] at heads

theorem readable_struct {fields : List (String × Outline)}
    (plain : ∀ field ∈ fields, field.2.Plain)
    (inside : ∀ field ∈ fields, Readable quote field.2) : Readable quote (.struct fields) := by
  have each : ∀ field ∈ fields, Legible (fieldChars quote) (fun field => field.2.Plain) field := by
    intro field member p valid rest other same
    exact (quotes.legible field.1).pair _ (inside field member) p ⟨trivial, valid⟩ rest other same
  have whole := Legible.list (by decide) each (fun field _ => head?_fieldChars quotes field) plain
  intro p valid rest other same
  have heads := (Plain.struct plain).heading_eq valid same
  cases valid with
  | @struct otherFields plainOther =>
    simp only [chars_struct, List.append_assoc, List.append_cancel_left_eq] at same
    obtain ⟨rfl, ends⟩ := whole otherFields plainOther ([')'] ++ rest) ([')'] ++ other)
      (by simpa only [List.append_assoc] using same)
    exact ⟨rfl, List.append_cancel_left ends⟩
  | _ => simp [heading] at heads

end Readable

theorem readable_integer (n : Integer) : Readable quote (.integer n) := by
  intro p valid rest other same
  have heads := (Plain.integer n).heading_eq valid same
  cases valid with
  | integer m =>
    simp only [chars_integer, List.append_assoc, List.append_cancel_left_eq] at same
    obtain ⟨rfl, ends⟩ := toText_append_inj same
    exact ⟨rfl, ends⟩
  | _ => simp [heading] at heads

theorem readable_byte (b : UInt8) : Readable quote (.byte b) := by
  intro p valid rest other same
  have heads := (Plain.byte b).heading_eq valid same
  cases valid with
  | byte c =>
    simp only [chars_byte, List.append_assoc, List.append_cancel_left_eq] at same
    obtain ⟨numbers, ends⟩ := toDigits_append_inj (by decide) (by decide) noDigit_parenthesis same
    exact ⟨congrArg byte (UInt8.toNat_inj.1 numbers), ends⟩
  | _ => simp [heading] at heads

theorem readable_longpointer (address : UInt64) : Readable quote (.longpointer address) := by
  intro p valid rest other same
  have heads := (Plain.longpointer address).heading_eq valid same
  cases valid with
  | longpointer otherAddress =>
    simp only [chars_longpointer, List.append_assoc, List.append_cancel_left_eq] at same
    obtain ⟨numbers, ends⟩ := toDigits_append_inj (by decide) (by decide) noDigit_parenthesis same
    exact ⟨congrArg longpointer (UInt64.toNat_inj.1 numbers), ends⟩
  | _ => simp [heading] at heads

theorem readable_void : Readable quote .void := by
  intro p valid rest other same
  have heads := Plain.void.heading_eq valid same
  cases valid with
  | void => exact ⟨rfl, List.append_cancel_left same⟩
  | _ => simp [heading] at heads

theorem readable_tuple {a b : Outline} (plainFirst : a.Plain) (plainSecond : b.Plain)
    (first : Readable quote a) (second : Readable quote b) : Readable quote (.tuple a b) := by
  have both := first.pair [',', ' '] second
  intro p valid rest other same
  have heads := (Plain.tuple plainFirst plainSecond).heading_eq valid same
  cases valid with
  | @tuple c d validFirst validSecond =>
    simp only [chars_tuple, List.append_assoc, List.append_cancel_left_eq] at same
    obtain ⟨parts, ends⟩ := both (c, d) ⟨validFirst, validSecond⟩ ([')'] ++ rest) ([')'] ++ other)
      (by simpa only [List.append_assoc] using same)
    obtain ⟨rfl, rfl⟩ := Prod.mk.inj parts
    exact ⟨rfl, List.append_cancel_left ends⟩
  | _ => simp [heading] at heads

theorem readable_array {items : List Outline} (plain : ∀ o ∈ items, o.Plain)
    (inside : ∀ o ∈ items, Readable quote o) : Readable quote (.array items) := by
  have whole := Legible.list (by decide) inside (fun _ valid => valid.head?_chars) plain
  intro p valid rest other same
  have heads := (Plain.array plain).heading_eq valid same
  cases valid with
  | @array others plainOther =>
    simp only [chars_array, List.append_assoc, List.append_cancel_left_eq] at same
    obtain ⟨rfl, ends⟩ := whole others plainOther ([')'] ++ rest) ([')'] ++ other)
      (by simpa only [List.append_assoc] using same)
    exact ⟨rfl, List.append_cancel_left ends⟩
  | _ => simp [heading] at heads

/-- The text of an outline can be read from the left, by the same for what is inside of it. -/
theorem Plain.readable (quotes : Quotes quote) (plain : o.Plain) : Readable quote o := by
  induction plain with
  | string text => exact readable_string quotes text
  | integer n => exact readable_integer n
  | byte b => exact readable_byte b
  | longpointer address => exact readable_longpointer address
  | void => exact readable_void
  | tuple plainFirst plainSecond first second =>
    exact readable_tuple plainFirst plainSecond first second
  | array plain inside => exact readable_array plain inside
  | struct plain inside => exact readable_struct quotes plain inside

/-- Different outlines have different texts. -/
theorem Plain.inspect_inj (quotes : Quotes quote) {p : Outline} (first : o.Plain)
    (second : p.Plain) : o.inspect quote = p.inspect quote ↔ o = p := by
  refine ⟨fun same => ?_, congrArg _⟩
  have texts : o.chars quote ++ [] = p.chars quote ++ [] := by rw [chars, chars, same]
  exact (first.readable quotes p second [] [] texts).1

end Outline

namespace Store

variable {s : Store} {v a b : Value}

theorem PlainData.plain_outline (plain : s.PlainData v) : (s.outline v).Plain := by
  refine plain.induction (P := fun v => (s.outline v).Plain) fun v plain inside => ?_
  have unfolds := plain.unfolds
  generalize s.outline v = outline at unfolds
  cases unfolds with
  | string text => exact .string text
  | integer n => exact .integer n
  | byte b => exact .byte b
  | longpointer address => exact .longpointer address
  | void => exact .void
  | tuple inFirst inSecond =>
    exact .tuple (inFirst ▸ inside _ .first) (inSecond ▸ inside _ .second)
  | array items =>
    refine .array fun o member => ?_
    obtain ⟨x, held, rfl⟩ := List.mem_map.1 (items ▸ member)
    exact inside x (.item rfl held)
  | struct fields =>
    refine .struct fun field member => ?_
    obtain ⟨⟨name, x⟩, held, rfl⟩ := List.mem_map.1 (fields ▸ member)
    exact inside x (.field rfl (NameMap.mem_entries_iff.1 held))

/-- Two values without floats, file handles and cycles have one diagnostic text exactly if they are
equal. This is so for every way to quote strings and names that shows where they end and keeps them
apart. -/
theorem inspect_eq_iff_equal (first : s.PlainData a) (second : s.PlainData b) :
    (s.inspect a = s.inspect b ↔ s.equal a b) ∧
      ∀ quote, Quotes quote →
        ((s.outline a).inspect quote = (s.outline b).inspect quote ↔ s.equal a b) := by
  have all (quote : String → String) (quotes : Quotes quote) :
      (s.outline a).inspect quote = (s.outline b).inspect quote ↔ s.equal a b := by
    rw [first.plain_outline.inspect_inj quotes second.plain_outline,
      equal_iff_outline_eq first second]
  exact ⟨all _ Quoted.quotes_quote, all⟩

/-- Two arrays whose texts would be the same without quotes, and a struct made in two orders. -/
def lookalikes : Store where
  arrays := #[[.string ⟨0⟩ "a), Str(b"], [.string ⟨1⟩ "a", .string ⟨2⟩ "b"]]
  structs := #[.ofList [("x", .array ⟨0⟩), ("y", .integer 1)],
    .ofList [("y", .integer 1), ("x", .array ⟨0⟩)]]

theorem inspect_eq_iff_equal_lookalikes :
    (lookalikes.PlainData (.array ⟨0⟩) ∧ lookalikes.PlainData (.array ⟨1⟩) ∧
      lookalikes.inspect (.array ⟨0⟩) ≠ lookalikes.inspect (.array ⟨1⟩)) ∧
    lookalikes.PlainData (.struct ⟨0⟩) ∧ lookalikes.PlainData (.struct ⟨1⟩) ∧
      lookalikes.inspect (.struct ⟨0⟩) = lookalikes.inspect (.struct ⟨1⟩) := by
  have strings {ref : ArrayRef} (items : ∀ v ∈ lookalikes.items ref, ∃ p text, v = .string p text) :
      lookalikes.PlainData (.array ref) := by
    refine .array fun v member => ?_
    obtain ⟨p, text, rfl⟩ := items v member
    exact .string p text
  have single : lookalikes.PlainData (.array ⟨0⟩) := strings (by simp [lookalikes, Store.items])
  have double : lookalikes.PlainData (.array ⟨1⟩) := strings (by simp [lookalikes, Store.items])
  have structs {ref : StructRef}
      (entries : (lookalikes.fields ref).entries = [("x", .array ⟨0⟩), ("y", .integer 1)]) :
      lookalikes.PlainData (.struct ref) := by
    refine .struct (entries ▸ fun field member => ?_)
    rcases List.mem_cons.1 member with rfl | member
    · exact single
    · exact List.mem_singleton.1 member ▸ .integer 1
  have first : lookalikes.PlainData (.struct ⟨0⟩) := structs rfl
  have second : lookalikes.PlainData (.struct ⟨1⟩) := structs rfl
  have differ : ¬lookalikes.equal (.array ⟨0⟩) (.array ⟨1⟩) := by cbv; decide
  have agree : lookalikes.equal (.struct ⟨0⟩) (.struct ⟨1⟩) := by cbv
  exact ⟨⟨single, double, fun same => differ ((inspect_eq_iff_equal single double).1.1 same)⟩,
    first, second, (inspect_eq_iff_equal first second).1.2 agree⟩

end Store

end ScriptHost
