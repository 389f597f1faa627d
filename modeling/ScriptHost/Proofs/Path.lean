import Mathlib.Data.List.Induction
import ScriptHost.Path

/-!
Paths in lexical normal form: absolute, each part a name, no slash at the end. The normal form of a
path text is what its pieces reduce to, from left to right. It is read back as the names it was
written from, so that it is its own normal form, and more pieces behind it reduce as they do behind
the text it comes from.
-/

namespace ScriptHost.Path

/-- A part that a path in normal form can have. -/
structure IsName (part : String) : Prop where
  nonempty : part ≠ ""
  unbroken : '/' ∉ part.toList
  notDot : part ≠ "."
  notDots : part ≠ ".."

/-- What stands between the slashes of a text, empty pieces included. -/
def pieces (text : String) : List String :=
  (text.toList.splitOn '/').map String.ofList

/-- The names that are left of pieces, read from left to right: nothing and `.` do not count, `..`
takes the last name away if there is one, and every other piece is a name. -/
inductive ReducesTo : List String → List String → Prop
  | start : ReducesTo [] []
  | stay {front names : List String} {piece : String} (reduced : ReducesTo front names)
    (nothing : piece = "" ∨ piece = ".") : ReducesTo (front ++ [piece]) names
  | up {front names : List String} (reduced : ReducesTo front names) :
    ReducesTo (front ++ [".."]) names.dropLast
  | down {front names : List String} {piece : String} (reduced : ReducesTo front names)
    (nonempty : piece ≠ "") (notDot : piece ≠ ".") (notDots : piece ≠ "..") :
    ReducesTo (front ++ [piece]) (names ++ [piece])

section Pieces

variable {text : String} {front names : List String} {name : String}

theorem slash_notMem_of_mem_splitOn {chars piece : List Char} (member : piece ∈ chars.splitOn '/') :
    '/' ∉ piece := by
  induction chars generalizing piece with
  | nil => simp_all
  | cons c rest ih =>
    obtain ⟨first, others, split⟩ := List.exists_cons_of_ne_nil (List.splitOn_ne_nil '/' rest)
    rw [List.splitOn_cons_eq_if_modifyHead, split] at member
    rw [split] at ih
    by_cases slash : c = '/'
    · rw [if_pos (beq_iff_eq.2 slash), List.mem_cons] at member
      rcases member with rfl | member
      · exact List.not_mem_nil
      · exact ih member
    · rw [if_neg (mt beq_iff_eq.1 slash), List.modifyHead_cons, List.mem_cons] at member
      rcases member with rfl | member
      · rw [List.mem_cons, not_or]
        exact ⟨Ne.symm slash, ih List.mem_cons_self⟩
      · exact ih (List.mem_cons_of_mem first member)

theorem slash_notMem_of_mem_pieces {piece : String} (member : piece ∈ pieces text) :
    '/' ∉ piece.toList := by
  obtain ⟨chars, inside, rfl⟩ := List.mem_map.1 member
  rw [String.toList_ofList]
  exact slash_notMem_of_mem_splitOn inside

/-- Empty pieces are no parts. -/
theorem parts_ofText (text : String) : (ofText text).parts = (pieces text).filter (· ≠ "") := by
  have same : (fun piece : String => decide (piece ≠ "")) ∘ String.ofList =
      fun chars => decide (chars ≠ []) := by
    funext chars
    simp [← String.toList_eq_nil_iff]
  rw [pieces, List.filter_map, same]
  rfl

theorem isAbsolute_ofText : (ofText text).isAbsolute ↔ text.toList.head? = some '/' :=
  decide_eq_true_iff

/-- The stack of names after following pieces from the root. -/
def stack (pieces : List String) : List String :=
  (pieces.filter (· ≠ "")).foldl follow []

theorem stack_concat (front : List String) (piece : String) :
    stack (front ++ [piece]) = if piece = "" then stack front else follow (stack front) piece := by
  rw [stack, List.filter_append, List.foldl_append]
  split
  next empty => rw [List.filter_cons_of_neg (by simpa using empty), List.filter_nil]; rfl
  next other => rw [List.filter_cons_of_pos (by simpa using other), List.filter_nil]; rfl

/-- The stack is all that the pieces reduce to. -/
theorem reducesTo_iff : ReducesTo front names ↔ names = (stack front).reverse := by
  constructor
  · intro reduced
    induction reduced with
    | start => rfl
    | stay _ nothing ih =>
      rw [stack_concat]
      rcases nothing with rfl | rfl
      · exact ih
      · exact ih
    | up _ ih =>
      rw [stack_concat, ih, List.dropLast_reverse]
      rfl
    | down _ nonempty notDot notDots ih =>
      rw [stack_concat, if_neg nonempty, follow, if_neg notDot, if_neg notDots, ih,
        List.reverse_cons]
  · rintro rfl
    induction front using List.reverseRecOn with
    | nil => exact .start
    | append_singleton front piece ih =>
      rw [stack_concat]
      split
      next empty => exact ih.stay (.inl empty)
      next nonempty =>
        unfold follow
        split
        next dot => exact ih.stay (.inr dot)
        next notDot =>
          split
          next dots =>
            subst dots
            rw [← List.dropLast_reverse]
            exact ih.up
          next notDots =>
            rw [List.reverse_cons]
            exact ih.down nonempty notDot notDots

theorem ReducesTo.isName (reduced : ReducesTo front names)
    (unbroken : ∀ piece ∈ front, '/' ∉ piece.toList) : ∀ name ∈ names, IsName name := by
  induction reduced with
  | start => exact List.forall_mem_nil _
  | stay _ _ ih => exact ih fun piece member => unbroken piece (List.mem_append_left _ member)
  | up _ ih =>
    intro name member
    exact ih (fun piece member => unbroken piece (List.mem_append_left _ member)) name
      (List.dropLast_subset _ member)
  | @down _ _ last _ nonempty notDot notDots ih =>
    intro name member
    rcases List.mem_append.1 member with member | member
    · exact ih (fun piece member => unbroken piece (List.mem_append_left _ member)) name member
    · obtain rfl := List.mem_singleton.1 member
      exact ⟨nonempty, unbroken name (List.mem_append_right _ member), notDot, notDots⟩

/-- Names are put on the stack as they are. -/
theorem foldl_follow_of_isName (areNames : ∀ name ∈ names, IsName name) (lastFirst : List String) :
    names.foldl follow lastFirst = names.reverse ++ lastFirst := by
  induction names generalizing lastFirst with
  | nil => rfl
  | cons name names ih =>
    obtain ⟨first, others⟩ := List.forall_mem_cons.1 areNames
    rw [List.foldl_cons, follow, if_neg first.notDot, if_neg first.notDots, ih others,
      List.reverse_cons, List.append_assoc]
    rfl

end Pieces

/-! ### Texts put together -/

section Texts

variable {text : String} {names : List String} {name : String}

/-- A slash between two texts separates their parts. -/
theorem parts_append_slash (front back : String) :
    (ofText (front ++ "/" ++ back)).parts = (ofText front).parts ++ (ofText back).parts := by
  have chars : (front ++ "/" ++ back).toList = front.toList ++ '/' :: back.toList := by
    rw [String.toList_append, String.toList_append, List.append_assoc]
    rfl
  show partsOf _ = partsOf _ ++ partsOf _
  rw [partsOf, chars, List.splitOn_append_cons_self, List.filter_append, List.map_append]
  rfl

theorem isAbsolute_append {front : String} (nonempty : front ≠ "") (back : String) :
    (ofText (front ++ back)).isAbsolute = (ofText front).isAbsolute := by
  obtain ⟨c, rest, chars⟩ := List.exists_cons_of_ne_nil (mt String.toList_eq_nil_iff.1 nonempty)
  simp only [ofText, String.toList_append, chars, List.cons_append, List.head?_cons]

theorem IsName.parts_eq (isName : IsName name) : (ofText name).parts = [name] := by
  have nonempty : name.toList ≠ [] := mt String.toList_eq_nil_iff.1 isName.nonempty
  have kept : [name.toList].filter (· ≠ []) = [name.toList] := by simpa using nonempty
  show partsOf _ = _
  rw [partsOf, List.splitOn_eq_singleton isName.unbroken, kept, List.map_singleton,
    String.ofList_toList]

/-- Names with a slash in front of each of them, as they stand in a path in normal form. -/
def written (names : List String) : String :=
  String.join (names.map ("/" ++ ·))

theorem written_concat (names : List String) (name : String) :
    written (names ++ [name]) = written names ++ "/" ++ name := by
  rw [written, List.map_append, String.join_append, List.map_singleton, String.join_cons,
    String.join_nil, String.append_empty, String.append_assoc]
  rfl

theorem render_eq (names : List String) :
    render names = if names = [] then "/" else written names :=
  rfl

theorem parts_written (areNames : ∀ name ∈ names, IsName name) :
    (ofText (written names)).parts = names := by
  induction names using List.reverseRecOn with
  | nil => rfl
  | append_singleton names name ih =>
    obtain ⟨others, last⟩ := List.forall_mem_append.1 areNames
    rw [written_concat, parts_append_slash, ih others, (List.forall_mem_singleton.1 last).parts_eq]

/-- The normal form is read as the names it was written from. -/
theorem parts_render (areNames : ∀ name ∈ names, IsName name) :
    (ofText (render names)).parts = names := by
  rw [render_eq]
  split
  next none =>
    subst none
    rfl
  next => exact parts_written areNames

theorem isAbsolute_render (names : List String) : (ofText (render names)).isAbsolute = true := by
  cases names with
  | nil => rfl
  | cons name names =>
    have chars : (written (name :: names)).toList = '/' :: (name ++ written names).toList := by
      rw [written, List.map_cons, String.join_cons, String.append_assoc, String.toList_append]
      rfl
    rw [render_eq, if_neg (List.cons_ne_nil _ _), ofText, chars, List.head?_cons]
    rfl

/-- Only the root ends in a slash. -/
theorem render_eq_root (areNames : ∀ name ∈ names, IsName name)
    (endsInSlash : (render names).toList.getLast? = some '/') : render names = "/" := by
  obtain none | ⟨front, name, rfl⟩ := List.eq_nil_or_concat names
  · rw [none]
    rfl
  rw [List.concat_eq_append] at areNames endsInSlash ⊢
  have last := areNames name (List.mem_append_right _ List.mem_cons_self)
  have nonempty : name.toList ≠ [] := mt String.toList_eq_nil_iff.1 last.nonempty
  rw [render_eq, if_neg (List.append_ne_nil_of_right_ne_nil _ (by simp)),
    written_concat, String.toList_append, List.getLast?_append,
    List.getLast?_eq_some_getLast nonempty, Option.some_or, Option.some.injEq] at endsInSlash
  exact absurd (endsInSlash ▸ List.getLast_mem nonempty) last.unbroken

end Texts

/-! ### Normal forms -/

section Normalize

variable {names : List String}

theorem normalize_eq_stack (cwd text : String) :
    normalize (ofText cwd).parts (ofText text) =
      (stack ((if text.toList.head? = some '/' then [] else pieces cwd) ++
        pieces text)).reverse := by
  simp only [normalize, parts_ofText, isAbsolute_ofText]
  split
  · rfl
  · rw [← List.filter_append]
    rfl

theorem isName_of_mem_normalize (cwd text : String) :
    ∀ name ∈ normalize (ofText cwd).parts (ofText text), IsName name := by
  refine (reducesTo_iff.2 (normalize_eq_stack cwd text)).isName fun piece member => ?_
  rcases List.mem_append.1 member with member | member
  · split at member
    · exact absurd member List.not_mem_nil
    · exact slash_notMem_of_mem_pieces member
  · exact slash_notMem_of_mem_pieces member

theorem normalize_render (areNames : ∀ name ∈ names, IsName name) (cwd : List String) :
    normalize cwd (ofText (render names)) = names := by
  rw [normalize, if_pos (isAbsolute_render names), parts_render areNames,
    foldl_follow_of_isName areNames, List.append_nil, List.reverse_reverse]

/-- What stands behind a slash is reduced on top of what stands in front of it. -/
theorem normalize_append_slash {front : String} (nonempty : front ≠ "") (cwd : List String)
    (back : String) :
    normalize cwd (ofText (front ++ "/" ++ back)) =
      ((ofText back).parts.foldl follow (normalize cwd (ofText front)).reverse).reverse := by
  have start : (ofText (front ++ "/" ++ back)).isAbsolute = (ofText front).isAbsolute := by
    rw [String.append_assoc]
    exact isAbsolute_append nonempty _
  rw [normalize, start, parts_append_slash, normalize, List.reverse_reverse, ← List.foldl_append]
  split
  · rfl
  · rw [List.append_assoc]

end Normalize

end ScriptHost.Path
