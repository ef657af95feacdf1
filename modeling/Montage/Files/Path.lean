/-!
# Path names

A path is a text of names between slashes.  These functions work on the text
alone and never look at a disk.

* `Path.parent?`: the path without its last name.  Slashes at the end, and names
  `.` other than the first, do not count as names;
* `Path.join`: a name below a path;
* `Path.ancestors`: the path itself and everything above it, innermost first;
* `Path.parts`: the names that lead from the start of the path to its end.
-/

namespace Montage

namespace Path

/-- A reversed path without what stands behind its last name.  A single slash is
the root and stays. -/
def dropSlack : List Char → List Char
  | ['/'] => ['/']
  | '/' :: rest => dropSlack rest
  | '.' :: '/' :: rest => dropSlack ('/' :: rest)
  | path => path
termination_by path => path.length

/-- The path without its last name, unless it is empty or the root. -/
def parent? (path : String) : Option String :=
  let reversed := dropSlack path.toList.reverse
  if reversed = [] ∨ reversed = ['/'] then none
  else some (String.ofList (dropSlack (reversed.dropWhile (· ≠ '/'))).reverse)

/-- A name below a path. -/
def join (path name : String) : String :=
  if path.isEmpty || path.toList.getLast? == some '/' then path ++ name
  else path ++ "/" ++ name

/-- A path and its parents up to the empty one, `fuel` of them at most. -/
def ancestorsWithin : Nat → String → List String
  | 0, _ => []
  | fuel + 1, path =>
    if path.isEmpty then []
    else path :: match parent? path with
      | some outer => ancestorsWithin fuel outer
      | none => []

/-- A path and everything above it; a parent is shorter than its path, so the
length bounds their number. -/
def ancestors (path : String) : List String := ancestorsWithin path.length path

/-- The parts between slashes, empty ones included. -/
def split : List Char → List (List Char)
  | [] => [[]]
  | c :: rest =>
    match split rest with
    | [] => [[c]]
    | part :: parts => if c = '/' then [] :: part :: parts else (c :: part) :: parts

/-- The names in a path. -/
def parts (path : String) : List String :=
  ((split path.toList).filter (! ·.isEmpty)).map String.ofList

/-- Whether a path begins at the root. -/
def isAbsolute (path : String) : Bool := path.toList.head? == some '/'

/-- Whether a path ends in a slash. -/
def endsInSlash (path : String) : Bool := path.toList.getLast? == some '/'

end Path

end Montage
