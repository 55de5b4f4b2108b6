import ComposeMerge.Project

/-!
# Summaries

One-line descriptions of a project and of what it is set up from, for people who look for a
mistake.
-/

namespace ComposeMerge
namespace Summary

/-- A record with its fields. -/
def record (name : String) (fields : List (String × String)) : String :=
  name ++ " \x7b " ++ String.intercalate ", " (fields.map fun (k, v) => k ++ ": " ++ v) ++ " \x7d"

/-- A list of paths. -/
def paths (ps : List Path) : String := "[" ++ String.intercalate ", " (ps.map Text.quotedPath) ++ "]"

/-- A text that may be missing. -/
def optionalText : Option String → String
  | some s => s!"Some({Text.quoted s})"
  | none => "None"

/-- What an undefined variable means. -/
def undefinedPolicy : UndefinedPolicy → String
  | .blank => "Empty"
  | .fail => "Error"

/-- The options of a merge. -/
def options (o : Options) : String :=
  record "ParseOptions"
    [("interpolate", boolText o.interpolate), ("validate", boolText o.validate),
     ("undefined", undefinedPolicy o.undefined), ("preprocess", boolText o.preprocess.isSome),
     ("postprocess", boolText o.postprocess.isSome)]

/-- What a project is set up from. -/
def context (c : ProjectContext) : String :=
  record "ProjectContext"
    [("project_name", optionalText c.name), ("compose_files", paths c.manifests),
     ("compose_bytes", toString c.inlineManifests.length),
     ("environment_lookup", boolText c.environment.isSome),
     ("resource_lookup", boolText c.resources.isSome), ("options", options c.options)]

/-- A chain of environments. -/
def environments (count : Nat) : String :=
  record "ComposableEnvLookup" [("lookups", toString count)]

/-- A project; its manifests and surroundings are left out. -/
def project (p : Project) : String :=
  "Project \x7b " ++ String.intercalate ", "
    (["name: " ++ Text.quoted p.name, "version: " ++ Text.quoted p.state.version,
      "services: " ++ toString p.state.services.size,
      "volumes: " ++ toString p.state.volumes.size,
      "networks: " ++ toString p.state.networks.size,
      "files: " ++ paths p.state.files, ".."]) ++ " \x7d"

end Summary
end ComposeMerge
