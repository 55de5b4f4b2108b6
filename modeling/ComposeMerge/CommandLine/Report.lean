import ComposeMerge.Json
import ComposeMerge.Project
import ComposeMerge.Yaml.Printing

/-!
# Reports

What the commands print about a project.

* `ProjectState.write` is the merged configuration as one document, which can be loaded again;
* `Report.listing` lists services, perhaps with the image or the build context of each.
-/

namespace ComposeMerge

/-- The merged configuration as one document. A version that is not declared is left out, and so is
a section without entries; the services are always there. -/
def ProjectState.write (s : ProjectState) : Value :=
  .mapping
    (Written.field "version" (if s.version.isEmpty then none else some (.string s.version)) ++
      [("services", .mapping (s.services.mapValues fun c => .mapping c.write).entries)] ++
      Written.field "volumes" (Written.table VolumeConfig.write s.volumes) ++
      Written.field "networks" (Written.table NetworkConfig.write s.networks))

namespace Report

/-- A text with a line end after it. -/
def line (s : String) : String := s ++ "\n"

/-- A text with a line end after it, unless it has one already. -/
def closed (s : String) : String := if s.toList.getLast? = some '\n' then s else line s

/-- Texts on a line each. -/
def lines (l : List String) : String := String.join (l.map line)

/-- A configuration as YAML. -/
def yaml (s : ProjectState) : String := closed (Yaml.print s.write)

/-- A configuration as JSON. -/
def json (s : ProjectState) : String := closed (Json.print s.write)

/-- Where the image of a service comes from: it is named, or built from a context. -/
def source (c : ServiceConfig) : String :=
  match c.image, c.build with
  | some image, _ => image
  | none, some build =>
    match build.context with
    | some context => if build.isRemote then s!"build (remote): {context}" else s!"build: {context}"
    | none => "-"
  | none, none => "-"

/-- A text filled up with spaces to a number of characters. -/
def padded (width : Nat) (s : String) : String :=
  s ++ String.ofList (List.replicate (width - s.length) ' ')

/-- A row of the table of services. -/
def row (name source : String) : String := padded 24 name ++ " " ++ padded 40 source

/-- The row of a service. -/
def serviceRow (s : ProjectState) (name : String) : String :=
  row name ((s.services.get? name).elim "" source)

/-- Services by name, or with where they come from. -/
def listing (s : ProjectState) (long : Bool) (names : List String) : String :=
  if names.isEmpty then line "No services defined."
  else if long then lines (row "SERVICE" "SOURCE" :: names.map (serviceRow s))
  else lines names

end Report
end ComposeMerge
