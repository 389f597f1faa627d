/-!
Path texts: their parts, and the lexical normal form of an absolute path. Parts are separated by
slashes, and empty parts do not count. The part `.` stands for the directory it is looked up in
and `..` for the parent of that directory; every other part is a name.
-/

namespace ScriptHost

/-- A path text taken apart. A slash at its end asks for a directory. -/
structure Path where
  isAbsolute : Bool
  parts : List String
  endsInSlash : Bool
deriving DecidableEq

namespace Path

/-- The parts of a path text. -/
def partsOf (text : List Char) : List String :=
  ((text.splitOn '/').filter (· ≠ [])).map String.ofList

def ofText (text : String) : Path :=
  let chars := text.toList
  { isAbsolute := chars.head? = some '/'
    parts := partsOf chars
    endsInSlash := chars.getLast? = some '/' }

/-- The path without its last part, and without any `.` that would then stand at its end. There is
none if no part is left to be taken away. -/
def parent? (p : Path) : Option Path :=
  match p.parts.reverse.dropWhile (· = ".") with
  | [] => none
  | _ :: above => some { p with parts := (above.dropWhile (· = ".")).reverse, endsInSlash := false }

theorem length_dropWhile_le {α : Type} (q : α → Bool) (l : List α) :
    (l.dropWhile q).length ≤ l.length :=
  (List.dropWhile_suffix q).length_le

theorem length_parts_parent? {p above : Path} (h : p.parent? = some above) :
    above.parts.length < p.parts.length := by
  unfold parent? at h
  split at h
  · exact absurd h (by simp)
  · next last rest eq =>
    rw [← Option.some.inj h]
    have whole := length_dropWhile_le (· = ".") p.parts.reverse
    have upper := length_dropWhile_le (· = ".") rest
    simp only [eq, List.length_cons, List.length_reverse] at whole ⊢
    omega

/-- Follows one part from an absolute path, given by its names with the last one in front: `.`
stays, `..` goes up unless the path is the root already, and a name goes down. -/
def follow (lastFirst : List String) (part : String) : List String :=
  if part = "." then lastFirst
  else if part = ".." then lastFirst.tail
  else part :: lastFirst

/-- The names of a path in lexical normal form, where relative paths start from the given directory.
No file is looked at. -/
def normalize (workingPath : List String) (p : Path) : List String :=
  ((if p.isAbsolute then p.parts else workingPath ++ p.parts).foldl follow []).reverse

def render (names : List String) : String :=
  if names = [] then "/" else String.join (names.map ("/" ++ ·))

end Path

end ScriptHost
