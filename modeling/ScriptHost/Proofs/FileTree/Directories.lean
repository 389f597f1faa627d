import Mathlib.Data.List.TakeWhile
import ScriptHost.Proofs.FileTree.Lookup

/-!
What making a directory with all that is missing above it does to the tree. Directories are added
and nothing else changes; and the answer tells whether the path leads to a directory afterwards, so
that asking again gives the same answer and does nothing more.
-/

namespace ScriptHost

/-- How a path goes on from the path above it: by one part that is not `.`, with any number of parts
in front of it and behind it that are. -/
structure Path.Extends (above p : Path) (between : List String) (last : String)
    (after : List String) : Prop where
  parts : p.parts = above.parts ++ (between ++ last :: after)
  between : ∀ part ∈ between, part = "."
  last : last ≠ "."
  after : ∀ part ∈ after, part = "."
  isAbsolute : above.isAbsolute = p.isAbsolute
  ending : above.parts.getLast? ≠ some "."

/-- What `dropWhile` leaves out here are parts that are `.`, and what it leaves begins with none. -/
theorem exists_dots (lastFirst : List String) :
    ∃ dots, lastFirst = dots ++ lastFirst.dropWhile (· = ".") ∧ (∀ part ∈ dots, part = ".") ∧
      (lastFirst.dropWhile (· = ".")).head? ≠ some "." := by
  refine ⟨lastFirst.takeWhile (· = "."), List.takeWhile_append_dropWhile.symm,
    fun part member => by simpa using List.mem_takeWhile_imp member, fun begins => ?_⟩
  have first := List.head?_dropWhile_not (· = ".") lastFirst
  rw [begins] at first
  simp at first

theorem Path.exists_extends {above p : Path} (up : p.parent? = some above) :
    ∃ between last after, above.Extends p between last after := by
  obtain ⟨after, whole, afterDots, begins⟩ := exists_dots p.parts.reverse
  unfold parent? at up
  split at up
  next => cases up
  next last rest reversed =>
    obtain rfl := Option.some.inj up
    obtain ⟨between, split, betweenDots, ending⟩ := exists_dots rest
    rw [reversed] at whole begins
    refine ⟨between.reverse, last, after.reverse,
      { parts := ?_
        between := fun part member => betweenDots part (List.mem_reverse.1 member)
        last := fun isDot => begins (congrArg some isDot)
        after := fun part member => afterDots part (List.mem_reverse.1 member)
        isAbsolute := rfl
        ending := by rwa [List.getLast?_reverse] }⟩
    calc p.parts = (after ++ last :: rest).reverse := List.reverse_eq_iff.1 whole
      _ = (after ++ last :: (between ++ rest.dropWhile (· = "."))).reverse := by rw [← split]
      _ = _ := by simp

theorem eq_nil_of_dots {front dots : List String} (areDots : ∀ part ∈ dots, part = ".")
    (ending : (front ++ dots).getLast? ≠ some ".") : dots = [] := by
  rcases List.eq_nil_or_concat dots with empty | ⟨most, final, rfl⟩
  · exact empty
  · have isDot : final = "." := areDots final (by simp)
    exact (ending (by simp [isDot])).elim

/-- Without a `.` at its end the path goes on by its last part. -/
theorem Path.exists_extends_last {above p : Path} (up : p.parent? = some above)
    (ending : p.parts.getLast? ≠ some ".") : ∃ between last, above.Extends p between last [] := by
  obtain ⟨between, last, after, goesOn⟩ := exists_extends up
  have split : p.parts = (above.parts ++ (between ++ [last])) ++ after := by
    rw [goesOn.parts, List.append_assoc, List.append_assoc, List.singleton_append]
  obtain rfl := eq_nil_of_dots goesOn.after (split ▸ ending)
  exact ⟨between, last, goesOn⟩

theorem Path.parts_eq_nil {p : Path} (top : p.parent? = none)
    (ending : p.parts.getLast? ≠ some ".") : p.parts = [] := by
  obtain ⟨dots, whole, areDots, _⟩ := exists_dots p.parts.reverse
  unfold parent? at top
  split at top
  next none =>
    rw [none, List.append_nil] at whole
    rw [← List.nil_append p.parts] at ending
    refine eq_nil_of_dots (fun part member => areDots part ?_) ending
    exact whole ▸ List.mem_reverse.2 member
  next => cases top

namespace FileTree

variable {t u v : FileTree} {id directory : NodeId} {name last : String} {p above : Path}
  {between front rest : List String} {cause : FileError}

/-! ### What is added -/

/-- All that the first tree holds is in the second one, where directories may have more entries;
each entry that is new is that of a directory, and there are no other files. -/
structure AddsDirectories (t u : FileTree) : Prop where
  content?_eq : ∀ id, u.content? id = t.content? id
  workingNode_eq : u.workingNode = t.workingNode
  workingPath_eq : u.workingPath = t.workingPath
  directory : ∀ id parent entries isRemoved,
    t.node? id = some (.directory parent entries isRemoved) →
      ∃ more, u.node? id = some (.directory parent more isRemoved) ∧
        ∀ name child, entries.get? name = some child → more.get? name = some child
  new : ∀ id name child, u.entry? id name = .ok (some child) →
    t.entry? id name = .ok (some child) ∨ u.isDirectory child

namespace AddsDirectories

theorem refl (t : FileTree) : AddsDirectories t t where
  content?_eq _ := rfl
  workingNode_eq := rfl
  workingPath_eq := rfl
  directory _ _ entries _ here := ⟨entries, here, fun _ _ bound => bound⟩
  new _ _ _ found := .inl found

theorem isDirectory (adds : AddsDirectories t u) (was : t.isDirectory id) : u.isDirectory id := by
  obtain ⟨parent, entries, isRemoved, here⟩ := isDirectory_iff.1 was
  obtain ⟨more, now, _⟩ := adds.directory _ _ _ _ here
  exact isDirectory_iff.2 ⟨_, _, _, now⟩

theorem trans (first : AddsDirectories t u) (second : AddsDirectories u v) :
    AddsDirectories t v where
  content?_eq id := (second.content?_eq id).trans (first.content?_eq id)
  workingNode_eq := second.workingNode_eq.trans first.workingNode_eq
  workingPath_eq := second.workingPath_eq.trans first.workingPath_eq
  directory id parent entries isRemoved here := by
    obtain ⟨between, there, kept⟩ := first.directory id parent entries isRemoved here
    obtain ⟨more, now, still⟩ := second.directory id parent between isRemoved there
    exact ⟨more, now, fun name child bound => still name child (kept name child bound)⟩
  new id name child found := by
    rcases second.new id name child found with there | isNew
    · exact (first.new id name child there).imp_right second.isDirectory
    · exact .inr isNew

theorem stepsStay (adds : AddsDirectories t u) : StepsStay t u := by
  intro id part child stepped
  obtain ⟨parent, entries, isRemoved, was, _⟩ := step_cases stepped
  obtain ⟨more, now, kept⟩ := adds.directory _ _ _ _ was
  refine step_of_entries was now (fun found => ?_) stepped
  obtain ⟨_, _, again, fits, bound⟩ := entry?_eq_ok_iff.1 found
  obtain ⟨rfl, rfl, rfl⟩ := Node.directory.inj (Option.some.inj (was.symm.trans again))
  exact entry?_eq_ok_iff.2 ⟨parent, more, now, fits, kept part child bound⟩

/-- Whatever a path led to it leads to still. -/
theorem openExisting_eq_ok (adds : AddsDirectories t u) {text : String}
    (leads : t.openExisting text = .ok id) : u.openExisting text = .ok id := by
  obtain ⟨p, accepted, resolved⟩ := exists_of_bind_eq_ok leads
  obtain ⟨walked, slash⟩ := resolve_eq_ok_iff.1 resolved
  rw [openExisting_of_accept accepted]
  refine resolve_eq_ok_iff.2 ⟨?_, fun ends => adds.isDirectory (slash ends)⟩
  rw [start_congr adds.workingNode_eq]
  exact adds.stepsStay.walk walked

end AddsDirectories

theorem content?_addNode_directory (t : FileTree) (directory : NodeId) (name : String)
    (parent : NodeId) (entries : NameMap NodeId) (isRemoved : Bool) (other : NodeId) :
    (t.addNode directory name (.directory parent entries isRemoved)).2.content? other =
      t.content? other := by
  refine (content?_modifyEntries _ directory _ other).trans ?_
  rw [content?, node?_push, content?]
  by_cases new : other.index = t.nodes.size
  · have absent : t.node? other = none := Array.getElem?_eq_none new.ge
    rw [if_pos new, absent]
  · rw [if_neg new]

section NewDirectory

variable (missing : t.entry? directory name = .ok none)
include missing

theorem isDirectory_new (parent : NodeId) (entries : NameMap NodeId) (isRemoved : Bool) :
    (t.addNode directory name (.directory parent entries isRemoved)).2.isDirectory
      (t.addNode directory name (.directory parent entries isRemoved)).1 := by
  obtain ⟨_, _, above, _, _, added⟩ := node?_addNode missing (.directory parent entries isRemoved)
  refine isDirectory_iff.2 ⟨parent, entries, isRemoved, ?_⟩
  have differ : directory ≠ (t.addNode directory name (.directory parent entries isRemoved)).1 := by
    intro same
    rw [same] at above
    cases above.symm.trans (node?_new t directory name _)
  rw [added, if_neg differ, node?_push]
  exact if_pos rfl

theorem addsDirectories_addNode (parent : NodeId) :
    AddsDirectories t (t.addNode directory name (.directory parent ∅ false)).2 where
  content?_eq := content?_addNode_directory t directory name parent ∅ false
  workingNode_eq := workingNode_addNode _
  workingPath_eq := workingPath_addNode _
  directory _ _ _ _ here := directory_addNode missing _ here
  new id part child found := by
    obtain ⟨_, entries, above, _, _, added⟩ := node?_addNode missing (.directory parent ∅ false)
    obtain ⟨_, _, here, fits, bound⟩ := entry?_eq_ok_iff.1 found
    rw [added] at here
    split at here
    next same =>
      cases here
      rw [NameMap.get?_insert] at bound
      split at bound
      next =>
        cases bound
        exact .inr (isDirectory_new missing parent ∅ false)
      next => exact .inl (entry?_eq_ok_iff.2 ⟨_, _, same ▸ above, fits, bound⟩)
    next =>
      rw [node?_push] at here
      split at here
      next =>
        cases here
        cases bound -- A new directory has no entries yet.
      next => exact .inl (entry?_eq_ok_iff.2 ⟨_, _, here, fits, bound⟩)

end NewDirectory

theorem addsDirectories_createDirectories (t : FileTree) (text : String) :
    AddsDirectories t (t.createDirectories text).2 := by
  have chain := makesDirectories_createDirectories t text
  generalize (t.createDirectories text).2 = later at chain
  induction chain with
  | refl => exact .refl t
  | tail _ makes ih =>
    obtain ⟨_, made⟩ := makes
    obtain ⟨directory, name, _, missing, rfl⟩ := makeDirectory_cases made
    exact ih.trans (addsDirectories_addNode missing directory)

/-! ### The answer -/

theorem resolvesToDirectory_iff :
    t.resolvesToDirectory p ↔ ∃ id, t.walk (t.start p) p.parts = .ok id ∧ t.isDirectory id := by
  unfold resolvesToDirectory
  split
  next id resolved =>
    refine ⟨fun isDirectory => ⟨id, (resolve_eq_ok_iff.1 resolved).1, isDirectory⟩, ?_⟩
    rintro ⟨other, walked, isDirectory⟩
    obtain rfl := Except.ok.inj (walked.symm.trans (resolve_eq_ok_iff.1 resolved).1)
    exact isDirectory
  next cause failed =>
    refine iff_of_false Bool.false_ne_true ?_
    rintro ⟨id, walked, isDirectory⟩
    cases failed.symm.trans (resolve_eq_ok_iff.2 ⟨walked, fun _ => isDirectory⟩)

theorem directoryExists_of_accept {text : String} (accepted : Path.accept text = .ok p) :
    t.directoryExists text = t.resolvesToDirectory p := by
  rw [directoryExists, leadsTo, accepted]
  rfl

/-- A directory that has just been made is where its path leads. -/
theorem resolvesToDirectory_of_makeDirectory (made : t.makeDirectory p = .ok u) :
    u.resolvesToDirectory p := by
  obtain ⟨directory, name, placed, missing, rfl⟩ := makeDirectory_cases made
  have place := Place.of_place_eq_ok placed
  refine resolvesToDirectory_iff.2 ⟨_, ?_, isDirectory_new missing directory ∅ false⟩
  rw [start_congr (workingNode_addNode _), place.parts,
    walk_append_of_ok ((stepsStay_addNode missing _).walk place.walk), walk_cons,
    step_eq_of_entry? place.isName (entry?_addNode missing _)]
  rfl

/-- Where there is a directory none can be made. -/
theorem makeDirectory_of_resolvesToDirectory (there : t.resolvesToDirectory p) :
    t.makeDirectory p = .error .alreadyExists := by
  obtain ⟨id, walked, _⟩ := resolvesToDirectory_iff.1 there
  rcases List.eq_nil_or_concat p.parts with empty | ⟨front, last, split⟩
  · have placed : t.place p = .ok (t.start p, none) := by rw [place, empty]; rfl
    rw [makeDirectory, placed]
  · rw [List.concat_eq_append] at split
    rw [split, walk_concat] at walked
    obtain ⟨directory, before, stepped⟩ := exists_of_bind_eq_ok walked
    rw [makeDirectory, place_of_walk split before (isDirectory_of_step stepped)]
    obtain ⟨_, _, _, _, dot | dots | ⟨isName, entry⟩⟩ := step_cases stepped
    · rw [if_pos (.inl dot.1)]
    · rw [if_pos (.inr dots.1)]
    · rw [if_neg (not_or.2 isName)]
      dsimp only
      rw [entry]

theorem resolvesToDirectory_eq_false (failed : t.makeDirectory p = .error cause)
    (other : cause ≠ .alreadyExists) : t.resolvesToDirectory p = false :=
  eq_false_of_ne_true fun there =>
    other (Except.error.inj (failed.symm.trans (makeDirectory_of_resolvesToDirectory there)))

theorem ensureDirectory_of_ok (made : t.makeDirectory p = .ok u) :
    t.ensureDirectory p = (true, u) := by
  rw [ensureDirectory, made]

theorem ensureDirectory_of_error (failed : t.makeDirectory p = .error cause) :
    t.ensureDirectory p = (t.resolvesToDirectory p, t) := by
  rw [ensureDirectory, failed]

theorem ensureDirectory_truthful (t : FileTree) (p : Path) :
    (t.ensureDirectory p).1 = (t.ensureDirectory p).2.resolvesToDirectory p := by
  cases attempt : t.makeDirectory p with
  | ok made =>
    rw [ensureDirectory_of_ok attempt]
    exact (resolvesToDirectory_of_makeDirectory attempt).symm
  | error cause => rw [ensureDirectory_of_error attempt]

section Extends

variable {after : List String} (goesOn : above.Extends p between last after)
include goesOn

theorem start_above : t.start above = t.start p := by
  rw [start, goesOn.isAbsolute, start]

/-- Along a path that leads to a directory, so does the path above it. -/
theorem resolvesToDirectory_above (there : t.resolvesToDirectory p) :
    t.resolvesToDirectory above := by
  obtain ⟨id, walked, isDirectory⟩ := resolvesToDirectory_iff.1 there
  rw [goesOn.parts] at walked
  rw [resolvesToDirectory_iff, start_above goesOn]
  exact exists_walk_of_append walked isDirectory

/-- The directory that a path names a place in is at the path above it or further down. -/
theorem resolvesToDirectory_above_of_place {named : Option String}
    (placed : t.place p = .ok (directory, named)) : t.resolvesToDirectory above := by
  rw [resolvesToDirectory_iff, start_above goesOn]
  obtain ⟨empty, _⟩ | ⟨front, final, split, walked, isDirectory, _⟩ := place_cases placed
  · rw [goesOn.parts] at empty
    simp at empty
  · obtain ⟨back, whole⟩ : ∃ back, front = above.parts ++ back := by
      have parts := split.symm.trans goesOn.parts
      obtain ⟨most, least, eq⟩ := List.eq_nil_or_concat (between ++ last :: after) |>.resolve_left
        (by simp)
      refine ⟨most, ?_⟩
      rw [eq, List.concat_eq_append, ← List.append_assoc] at parts
      exact (List.append_inj' parts rfl).1
    rw [whole] at walked
    exact exists_walk_of_append walked isDirectory

end Extends

/-! ### All directories of a path -/

section Steps

theorem ensureDirectories_of_ok (made : t.makeDirectory p = .ok u) :
    t.ensureDirectories p = (true, u) := by
  rw [ensureDirectories, made]

theorem ensureDirectories_of_error (failed : t.makeDirectory p = .error cause)
    (other : cause ≠ .notFound) : t.ensureDirectories p = (t.resolvesToDirectory p, t) := by
  rw [ensureDirectories, failed]
  cases cause with
  | notFound => exact absurd rfl other
  | _ => rfl

theorem ensureDirectories_of_resolves (there : t.resolvesToDirectory p) :
    t.ensureDirectories p = (true, t) := by
  rw [ensureDirectories_of_error (makeDirectory_of_resolvesToDirectory there) (by decide),
    there]

variable (failed : t.makeDirectory p = .error .notFound)
include failed

theorem ensureDirectory_of_notFound : t.ensureDirectory p = (false, t) := by
  rw [ensureDirectory_of_error failed, resolvesToDirectory_eq_false failed (by decide)]

theorem ensureDirectories_of_top (top : ∀ above, p.parent? = some above → above.parts = []) :
    t.ensureDirectories p = (false, t) := by
  rw [ensureDirectories, failed]
  dsimp only
  split
  next => rfl
  next above up => rw [if_pos (top above up), ensureDirectory_of_notFound failed]

theorem ensureDirectories_of_parent (up : p.parent? = some above) (deep : above.parts ≠ []) :
    t.ensureDirectories p =
      if (t.ensureDirectories above).1 then (t.ensureDirectories above).2.ensureDirectory p
      else t.ensureDirectories above := by
  rw [ensureDirectories, failed]
  dsimp only
  split
  next none => cases none.symm.trans up
  next other again =>
    cases again.symm.trans up
    rw [if_neg deep]
    rcases t.ensureDirectories above with ⟨_ | _, made⟩ <;> rfl

end Steps

theorem ensureDirectories_truthful (t : FileTree) (p : Path) :
    (t.ensureDirectories p).1 = (t.ensureDirectories p).2.resolvesToDirectory p := by
  fun_induction ensureDirectories t p with
  | case1 p failed => exact (resolvesToDirectory_eq_false failed (by decide)).symm
  | case2 p => exact ensureDirectory_truthful t p
  | case3 p _ _ _ _ made => exact ensureDirectory_truthful made p
  | case4 p _ above up _ made reached ih =>
    -- No path leads further than the one above it, which led to no directory.
    rw [reached] at ih
    obtain ⟨_, _, _, goesOn⟩ := Path.exists_extends up
    refine (eq_false_of_ne_true fun there => ?_).symm
    cases ih.trans (resolvesToDirectory_above goesOn there)
  | case5 => rfl
  | case6 p made eq => exact (resolvesToDirectory_of_makeDirectory eq).symm

/-- To ask for the last directory again, when all of those above it are there. -/
theorem ensureDirectory_again (up : p.parent? = some above) (deep : above.parts ≠ [])
    (there : t.ensureDirectories above = (true, t)) :
    (t.ensureDirectory p).2.ensureDirectories p = t.ensureDirectory p := by
  cases attempt : t.makeDirectory p with
  | ok made =>
    rw [ensureDirectory_of_ok attempt]
    exact ensureDirectories_of_resolves (resolvesToDirectory_of_makeDirectory attempt)
  | error cause =>
    have done := ensureDirectory_of_error attempt
    by_cases missing : cause = .notFound
    · subst missing
      rw [done, ensureDirectories_of_parent attempt up deep, there]
      exact done
    · rw [done, ensureDirectories_of_error attempt missing]

theorem ensureDirectories_again (t : FileTree) (p : Path) :
    (t.ensureDirectories p).2.ensureDirectories p = t.ensureDirectories p := by
  fun_induction ensureDirectories t p with
  | case1 p failed none =>
    refine ensureDirectories_of_top failed fun above up => ?_
    cases none.symm.trans up
  | case2 p failed above up empty =>
    rw [ensureDirectory_of_notFound failed]
    refine ensureDirectories_of_top failed fun other again => ?_
    cases up.symm.trans again
    exact empty
  | case3 p failed above up deep made reached ih =>
    rw [reached] at ih
    exact ensureDirectory_again up deep ih
  | case4 p failed above up deep made reached ih =>
    rw [reached] at ih
    obtain ⟨_, _, _, goesOn⟩ := Path.exists_extends up
    have truthful := ensureDirectories_truthful made above
    rw [ih] at truthful
    cases attempt : made.makeDirectory p with
    | ok more =>
      obtain ⟨_, _, placed, _⟩ := makeDirectory_cases attempt
      cases truthful.trans (resolvesToDirectory_above_of_place goesOn placed)
    | error cause =>
      by_cases missing : cause = .notFound
      · subst missing
        rw [ensureDirectories_of_parent attempt up deep, ih]
        rfl
      · rw [ensureDirectories_of_error attempt missing, Prod.mk.injEq, and_iff_left rfl]
        refine eq_false_of_ne_true fun there => ?_
        cases truthful.trans (resolvesToDirectory_above goesOn there)
  | case5 p cause other failed => exact ensureDirectories_of_error failed other
  | case6 p made eq =>
    exact ensureDirectories_of_resolves (resolvesToDirectory_of_makeDirectory eq)

/-! ### Room for more -/

/-- Somewhere on the path there is a directory without an entry for the name that follows, where one
could be made. -/
def HasRoom (t : FileTree) (p : Path) : Prop :=
  ∃ front name rest directory, p.parts = front ++ name :: rest ∧
    t.walk (t.start p) front = .ok directory ∧ (name ≠ "." ∧ name ≠ "..") ∧
    t.entry? directory name = .ok none

theorem isDirectory_of_entry {entry : Option NodeId}
    (found : t.entry? directory name = .ok entry) : t.isDirectory directory := by
  obtain ⟨_, _, here, _⟩ := entry?_eq_ok_iff.1 found
  exact isDirectory_iff.2 ⟨_, _, _, here⟩

theorem makeDirectory_of_last (split : p.parts = front ++ [name])
    (walked : t.walk (t.start p) front = .ok directory) (isName : name ≠ "." ∧ name ≠ "..")
    (missing : t.entry? directory name = .ok none) : ∃ u, t.makeDirectory p = .ok u := by
  refine ⟨(t.addNode directory name (.directory directory ∅ false)).2, ?_⟩
  rw [makeDirectory, place_of_walk split walked (isDirectory_of_entry missing),
    if_neg (not_or.2 isName)]
  dsimp only
  rw [missing]

theorem walk_of_room {start : NodeId} (walked : t.walk start front = .ok directory)
    (isName : name ≠ "." ∧ name ≠ "..") (missing : t.entry? directory name = .ok none)
    (rest : List String) : t.walk start (front ++ name :: rest) = .error .notFound := by
  rw [walk_append_of_ok walked, walk_cons, step_eq_notFound missing isName]
  rfl

/-- With room on the path, a directory is made or its parent is not found. -/
theorem HasRoom.eq_notFound (room : t.HasRoom p) (failed : t.makeDirectory p = .error cause) :
    cause = .notFound := by
  obtain ⟨front, name, rest, directory, parts, walked, isName, missing⟩ := room
  rcases List.eq_nil_or_concat rest with rfl | ⟨most, final, rfl⟩
  · obtain ⟨u, made⟩ := makeDirectory_of_last parts walked isName missing
    cases made.symm.trans failed
  · have split : p.parts = (front ++ name :: most) ++ [final] := by
      rw [parts, List.concat_eq_append, List.append_assoc, List.cons_append]
    have nowhere := place_of_walk_error split (walk_of_room walked isName missing most)
    rw [makeDirectory, nowhere] at failed
    exact (Except.error.inj failed).symm

theorem not_hasRoom_of_resolves (there : t.resolvesToDirectory p) : ¬t.HasRoom p := by
  rintro ⟨front, name, rest, directory, parts, walked, isName, missing⟩
  obtain ⟨id, whole, _⟩ := resolvesToDirectory_iff.1 there
  rw [parts, walk_of_room walked isName missing rest] at whole
  cases whole

theorem not_hasRoom_of_nil (empty : p.parts = []) : ¬t.HasRoom p := by
  rintro ⟨front, name, rest, _, parts, _⟩
  rw [empty] at parts
  simp at parts

/-- If there is room on a path but not above it, the directory can be made. -/
theorem exists_makeDirectory (goesOn : above.Extends p between last []) (room : t.HasRoom p)
    (full : ¬t.HasRoom above) : ∃ u, t.makeDirectory p = .ok u := by
  obtain ⟨front, name, rest, directory, parts, walked, isName, missing⟩ := room
  have whole : above.parts ++ (between ++ [last]) = front ++ name :: rest :=
    goesOn.parts.symm.trans parts
  obtain ⟨back, within⟩ : ∃ back, between ++ [last] = back ++ name :: rest := by
    rcases List.append_eq_append_iff.1 whole with ⟨back, _, within⟩ | ⟨_ | ⟨next, more⟩, inside, eq⟩
    · exact ⟨back, within⟩
    · exact ⟨[], eq.symm⟩
    · obtain rfl := (List.cons.inj eq).1
      rw [← start_above goesOn] at walked
      exact (full ⟨front, name, more, directory, inside, walked, isName, missing⟩).elim
  rcases List.eq_nil_or_concat rest with rfl | ⟨most, final, rfl⟩
  · exact makeDirectory_of_last parts walked isName missing
  · have split : between ++ [last] = (back ++ name :: most) ++ [final] := by
      rw [within, List.concat_eq_append, List.append_assoc, List.cons_append]
    have dots := goesOn.between name (by simp [(List.append_inj' split rfl).1])
    exact (isName.1 dots).elim

/-- When the directories of a path could not all be made, every place for one is taken: something is
in the way that is no directory. -/
theorem not_hasRoom_ensureDirectories (ending : p.parts.getLast? ≠ some ".")
    (refused : (t.ensureDirectories p).1 = false) : ¬(t.ensureDirectories p).2.HasRoom p := by
  fun_induction ensureDirectories t p with
  | case1 p failed top => exact not_hasRoom_of_nil (Path.parts_eq_nil top ending)
  | case2 p failed above up empty =>
    rw [ensureDirectory_of_notFound failed]
    obtain ⟨between, last, goesOn⟩ := Path.exists_extends_last up ending
    intro room
    obtain ⟨u, made⟩ := exists_makeDirectory goesOn room (not_hasRoom_of_nil empty)
    cases failed.symm.trans made
  | case3 p failed above up deep made reached ih =>
    have truthful := ensureDirectories_truthful t above
    rw [reached] at truthful
    obtain ⟨between, last, goesOn⟩ := Path.exists_extends_last up ending
    cases attempt : made.makeDirectory p with
    | ok more =>
      rw [ensureDirectory_of_ok attempt] at refused
      cases refused
    | error cause =>
      rw [ensureDirectory_of_error attempt]
      intro room
      obtain ⟨u, again⟩ := exists_makeDirectory goesOn room
        (not_hasRoom_of_resolves truthful.symm)
      cases attempt.symm.trans again
  | case4 p failed above up deep made reached ih =>
    have truthful := ensureDirectories_truthful t above
    obtain ⟨between, last, goesOn⟩ := Path.exists_extends_last up ending
    rw [reached] at ih truthful
    intro room
    obtain ⟨u, again⟩ := exists_makeDirectory goesOn room (ih goesOn.ending rfl)
    obtain ⟨_, _, placed, _⟩ := makeDirectory_cases again
    cases truthful.trans (resolvesToDirectory_above_of_place goesOn placed)
  | case5 p cause other failed =>
    intro room
    exact other (room.eq_notFound failed)
  | case6 => cases refused

/-! ### By path text -/

section Text

variable {text : String}

theorem createDirectories_empty (t : FileTree) : t.createDirectories "" = (true, t) :=
  if_pos rfl

theorem directoryExists_empty (t : FileTree) : t.directoryExists "" = false :=
  rfl

theorem createDirectories_of_error (named : text ≠ "") (refused : Path.accept text = .error cause) :
    t.createDirectories text = (false, t) := by
  rw [createDirectories, if_neg named, refused]

theorem createDirectories_of_accept (accepted : Path.accept text = .ok p) :
    t.createDirectories text = t.ensureDirectories p := by
  have named : text ≠ "" := by
    rintro rfl
    cases accepted
  rw [createDirectories, if_neg named, accepted]

theorem createDirectories_truthful (t : FileTree) (named : text ≠ "") :
    (t.createDirectories text).1 = (t.createDirectories text).2.directoryExists text := by
  cases accepted : Path.accept text with
  | error cause =>
    rw [createDirectories_of_error named accepted, directoryExists, leadsTo, accepted]
  | ok p =>
    rw [createDirectories_of_accept accepted, directoryExists_of_accept accepted]
    exact ensureDirectories_truthful t p

theorem createDirectories_again (t : FileTree) (text : String) :
    (t.createDirectories text).2.createDirectories text = t.createDirectories text := by
  by_cases named : text = ""
  · subst named
    exact t.createDirectories_empty
  · cases accepted : Path.accept text with
    | error cause =>
      rw [createDirectories_of_error named accepted, createDirectories_of_error named accepted]
    | ok p =>
      rw [createDirectories_of_accept accepted, createDirectories_of_accept accepted]
      exact ensureDirectories_again t p

end Text

end FileTree

end ScriptHost
