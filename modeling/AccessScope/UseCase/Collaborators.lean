import AccessScope.Contact
import AccessScope.Counters
import AccessScope.Response

/-!
# Collaborators

What the operations on rules need from outside: a store of rules that also knows the monitored
resources, a directory of contacts and groups, and a place to count. The operations are written
over any state that offers these, and may fail at any of them.

* `Action.ofExcept`  a pure check as a step that may fail
-/

namespace AccessScope

/-- A step over a state that gives a value or fails. What was done to the state before a failure
stays done. -/
abbrev Action (σ : Type) := ExceptT Failure (StateM σ)

/-- A check as a step that leaves the state alone. -/
def Action.ofExcept {σ α : Type} : Except Failure α → Action σ α
  | .ok a => pure a
  | .error f => throw f

/-- What the operations on rules need from outside, over a state of type `σ`. -/
structure Collaborators (σ : Type) where
  /-- The rule with an id. -/
  findRule : Id → Action σ (Option Rule)
  /-- Every rule. -/
  allRules : Action σ (List Rule)
  /-- The rules that are for a contact by itself. -/
  rulesOfContact : Id → Action σ (List Rule)
  /-- The rules that are for one of these contact groups. -/
  rulesOfGroups : List Id → Action σ (List Rule)
  /-- Has some rule this formatted name? -/
  isNameTaken : String → Action σ Bool
  /-- Those of the ids that are resources of the category. -/
  knownResources : Category → List Id → Action σ (List Id)
  /-- Stores a new rule and gives its id. -/
  addRule : RuleContent → Action σ Id
  /-- Stores a rule in the place of the one with the same id. -/
  updateRule : Rule → Action σ Unit
  /-- Removes the rule with an id. -/
  deleteRule : Id → Action σ Unit
  /-- The access groups of a contact. -/
  accessGroupsOf : Id → Action σ (List AccessGroup)
  /-- Those of the ids that are contacts. -/
  knownContacts : List Id → Action σ (List Id)
  /-- The contact groups of a contact. -/
  contactGroupsOf : Id → Action σ (List ContactGroup)
  /-- Those of the ids that are contact groups. -/
  knownContactGroups : List Id → Action σ (List Id)
  /-- Counts a series once more. -/
  count : Series → StateM σ Unit

end AccessScope
