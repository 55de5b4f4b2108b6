import ComposeMerge.Entries
import ComposeMerge.Path
import ComposeMerge.Text.Utf8

/-!
# Files

What the merge engine asks of a file system, and the answers of a tree of files held in memory.

* `FileSystem` lists the questions: the content of a file, whether a path leads anywhere, and the
  last name on the way to a directory once its `..` and `.` steps are taken;
* `FileTree.fileSystem` answers them for a tree and a working directory in it.
-/

namespace ComposeMerge

/-- Why a file could not be read. `unseen` stands for a path that has not been looked at yet. -/
inductive IoFailure where
  | notFound
  | notDirectory
  | isDirectory
  | nameTooLong
  | nulInName
  | notText
  | unseen
  | other (text : String)
  deriving DecidableEq

/-- The words of a failure. -/
def IoFailure.message : IoFailure → String
  | .notFound => "No such file or directory (os error 2)"
  | .notDirectory => "Not a directory (os error 20)"
  | .isDirectory => "Is a directory (os error 21)"
  | .nameTooLong => "File name too long (os error 36)"
  | .nulInName => "file name contained an unexpected NUL byte"
  | .notText => "stream did not contain valid UTF-8"
  | .unseen => "not read yet"
  | .other text => text

/-- The questions that are asked of a file system. -/
structure FileSystem where
  /-- The content of the file at a path. -/
  read : Path → Except IoFailure Bytes
  /-- Whether something is found at a path. -/
  isPresent : Path → Bool
  /-- The name of what is found at a path, free of `.` and `..`; the root has none. -/
  canonicalName : Path → Except IoFailure (Option String)

/-- The content of a file, as text. -/
def FileSystem.readText (files : FileSystem) (p : Path) : Except IoFailure (List Char) :=
  match files.read p with
  | .error failure => .error failure
  | .ok bytes => (Text.Utf8.decode bytes).mapError fun _ => .notText

/-- A file, or a directory of named nodes. -/
inductive FileNode where
  | file (content : Bytes)
  | directory (nodes : List (String × FileNode))

/-- A tree of files with a working directory, given by the names that lead to it. -/
structure FileTree where
  root : FileNode
  work : List String

namespace FileTree

/-- The way to a node: each node on it with its name, the last one first. It ends in the root. -/
abbrev Trail := List (String × FileNode)

/-- The greatest number of bytes in a name and in a path. -/
def nameLimit : Nat := 255
def pathLimit : Nat := 4095

/-- One step down, up or nowhere. Every step starts in a directory. -/
def step (trail : Trail) (name : String) : Except IoFailure Trail :=
  match trail with
  | (_, .directory nodes) :: above =>
    if name = "" ∨ name = "." then .ok trail
    else if name = ".." then .ok (if above.isEmpty then trail else above)
    else if nameLimit < name.utf8ByteSize then .error .nameTooLong
    else match Entries.get? name nodes with
      | some node => .ok ((name, node) :: trail)
      | none => .error .notFound
  | _ => .error .notDirectory

/-- The way from the end of `trail` along some names. -/
def follow (trail : Trail) : List String → Except IoFailure Trail
  | [] => .ok trail
  | name :: names =>
    match step trail name with
    | .ok trail => follow trail names
    | .error failure => .error failure

/-- The way to the root. -/
def top (tree : FileTree) : Trail := [("", tree.root)]

/-- The way to what a path leads to. -/
def resolve (tree : FileTree) (p : Path) : Except IoFailure Trail :=
  if p.isEmpty then .error .notFound
  else if p.toList.contains '\x00' then .error .nulInName
  else if pathLimit < p.utf8ByteSize then .error .nameTooLong
  else
    let names := (Path.components p).map String.ofList
    if Path.isAbsolute p then follow tree.top names
    else (follow tree.top tree.work).bind fun trail => follow trail names

/-- The answers of a tree. -/
def fileSystem (tree : FileTree) : FileSystem where
  read p :=
    match tree.resolve p with
    | .ok ((_, .file content) :: _) => .ok content
    | .ok _ => .error .isDirectory
    | .error failure => .error failure
  isPresent p := (tree.resolve p).isOk
  canonicalName p :=
    match tree.resolve p with
    | .ok ((name, _) :: _ :: _) => .ok (some name)
    | .ok _ => .ok none
    | .error failure => .error failure

end FileTree
end ComposeMerge
