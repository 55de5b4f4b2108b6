import ComposeMerge.Dependency.Graph
import ComposeMerge.Error

/-!
# Start order

An order of the services in which every service comes after those it needs, found by two depth-first
searches.

* `discover` follows edges from dependencies to dependents and lists services as they are finished:
  a service is finished once everything found below it is. In the list of finished services, the
  last one first, every service comes after its dependencies, if that can be had at all.
* `retrace` follows edges the other way. Along the list it meets one new service at a time exactly
  when there is no cycle; a second one lies on a cycle.

Each search keeps the services not yet met. It takes one away or pops the stack in every step.
-/

namespace ComposeMerge
namespace Dependency

/-- A stack with those of `next` on top that have not been met; the last one is the topmost. -/
def pushUnmet (unmet next stack : List String) : List String :=
  (next.filter (· ∈ unmet)).reverse ++ stack

theorem length_erase_lt {name : String} {unmet : List String} (h : name ∈ unmet) :
    (unmet.erase name).length < unmet.length := by
  have := List.length_pos_of_mem h
  rw [List.length_erase_of_mem h]
  omega

/-- Searches along the stack. Gives the services still not met and the finished ones, the last one
first, or a service that needs itself. -/
def discover (g : Graph) (unmet finished : List String) :
    List String → Except String (List String × List String)
  | [] => .ok (unmet, finished)
  | name :: stack =>
    if name ∈ unmet then
      if name ∈ g.dependents name then .error name
      else
        let rest := unmet.erase name
        discover g rest finished (pushUnmet rest (g.dependents name) (name :: stack))
    else discover g unmet (if name ∈ finished then finished else name :: finished) stack
  termination_by stack => (unmet.length, stack.length)
  decreasing_by
  · exact .left _ _ (length_erase_lt ‹_›)
  · exact .right _ (by simp)

/-- Searches from each service that has not been met yet. -/
def discoverAll (g : Graph) : List String → List String × List String →
    Except String (List String × List String)
  | [], found => .ok found
  | name :: names, (unmet, finished) =>
    if name ∈ unmet then
      match discover g unmet finished [name] with
      | .error culprit => .error culprit
      | .ok found => discoverAll g names found
    else discoverAll g names (unmet, finished)

/-- Searches against the edges. Gives the services met, in order, and those still not met. -/
def retrace (g : Graph) (unmet : List String) : List String → List String × List String
  | [] => ([], unmet)
  | name :: stack =>
    if name ∈ unmet then
      let rest := unmet.erase name
      let found := retrace g rest (pushUnmet rest (g.dependencies name) stack)
      (name :: found.1, found.2)
    else retrace g unmet stack
  termination_by stack => (unmet.length, stack.length)
  decreasing_by
  · exact .left _ _ (length_erase_lt ‹_›)
  · exact .right _ (by simp)

/-- Searches against the edges from each service of a list; the second service met in one search
is the result. -/
def retraceAll (g : Graph) : List String → List String → Option String
  | _, [] => none
  | unmet, name :: names =>
    match retrace g unmet [name] with
    | (_ :: culprit :: _, _) => some culprit
    | (_, unmet) => retraceAll g unmet names

/-- The start order, or a service that depends on itself through others or directly. -/
def Graph.startOrder (g : Graph) : Except String (List String) :=
  match discoverAll g g.services (g.services, []) with
  | .error culprit => .error culprit
  | .ok (_, finished) =>
    match retraceAll g g.services finished with
    | some culprit => .error culprit
    | none => .ok finished

/-- The start order, or the error that names a service on a cycle. -/
def Graph.order (g : Graph) : Except Error (List String) :=
  g.startOrder.mapError fun service => .project (.cycle service)

end Dependency
end ComposeMerge
