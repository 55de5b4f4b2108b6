import ComposeMerge.Environment
import ComposeMerge.Error

/-!
# Resources

Files that a manifest refers to.

* a `ResourceLookup` gives the content of a reference and the path it was found at; the second
  argument is the manifest that contains the reference;
* `fromFiles` looks references up in the directory of the manifest, `fromMemory` in a list;
* `resolve` is the path that a reference leads to.
-/

namespace ComposeMerge

/-- Where references are looked up. -/
abbrev ResourceLookup := String → Path → Except Error (Bytes × Path)

namespace ResourceLookup

/-- The path that follows `~/` at the start of a reference. -/
def homeRelative? (reference : String) : Option Path :=
  (Text.dropStart? ['~', '/'] reference.toList).map String.ofList

/-- The path of a reference that is not taken from the home directory. -/
def resolveBeside (reference : String) (manifest : Path) : Path :=
  if Path.isAbsolute reference then reference
  else match Path.parent? manifest with
    | some dir => Path.join dir reference
    | none => reference

/-- The path that a reference leads to: beside the manifest, unless the reference is absolute or
starts with `~/` and a home directory is known. -/
def resolve (env : Environment) (reference : String) (manifest : Path) : Path :=
  match homeRelative? reference, env "HOME" with
  | some rest, some home => Path.join home rest
  | _, _ => resolveBeside reference manifest

/-- Looks references up in the file system. -/
def fromFiles (files : FileSystem) (env : Environment) : ResourceLookup :=
  fun reference manifest =>
    let path := resolve env reference manifest
    match files.read path with
    | .ok content => .ok (content, path)
    | .error failure => .error (.resource manifest (.unreadable path failure))

/-- Looks references up in a list of contents. -/
def fromMemory (contents : Entries Bytes) : ResourceLookup :=
  fun reference manifest =>
    match contents.get? reference with
    | some content => .ok (content, reference)
    | none => .error (.resource manifest (.notFound reference))

end ResourceLookup
end ComposeMerge
