import ComposeMerge.Text.Blank

/-!
# Paths

File paths as texts. Operations on a path never look at files and never tidy a path up: `join`
puts two texts together and `parent?` cuts one off.

* `join` puts a path after a directory; an absolute path replaces it;
* `parent?` drops the last component, with the empty and `.` components around it;
* `components` are the parts between slashes.
-/

namespace ComposeMerge

/-- A file path. -/
abbrev Path := String

namespace Path

/-- Whether a path starts at the root. -/
def isAbsolute (p : Path) : Bool := Text.startsWith ['/'] p.toList

/-- The parts of a path between its slashes. -/
def components (p : Path) : List (List Char) := Text.splitOn '/' p.toList

/-- Path `p` seen from directory `dir`. -/
def join (dir p : Path) : Path :=
  if isAbsolute p then p
  else if dir.isEmpty || dir.toList.getLast? = some '/' then dir ++ p
  else dir ++ "/" ++ p

/-- The start of a path that is no component but belongs to it: the root, or a leading `.`. -/
def head (s : List Char) : List Char :=
  match s with
  | '/' :: _ => ['/']
  | ['.'] => ['.']
  | '.' :: '/' :: _ => ['.']
  | _ => []

/-- Whether a part between slashes stands for no step at all. -/
def isIdle (part : List Char) : Bool := part = [] || part = ['.']

/-- The directory that a path lies in; the root and the empty path lie in none. -/
def parent? (p : Path) : Option Path :=
  let s := p.toList
  let start := head s
  let parts := Text.splitOn '/' (s.drop start.length)
  match parts.reverse.dropWhile isIdle with
  | _ :: before =>
    let kept := (before.dropWhile isIdle).reverse
    some (String.ofList (start ++ ['/'].intercalate kept))
  | [] => if start = ['.'] then some "" else none

end Path
end ComposeMerge
