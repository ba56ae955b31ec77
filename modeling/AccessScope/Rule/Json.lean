import AccessScope.Rule.Request
import AccessScope.Filter.Json

/-!
# Rules and requests in JSON

* `RuleRequest.read`, `ChangeRequest.read`  read requests
* `RuleRequest.toJson`, `ChangeRequest.toJson`  write requests
* `RuleTerms.toJson`, `RuleContent.toJson`, `Rule.toJson`  write rules and their parts
-/

namespace AccessScope

/-- The fields of a request, in their order. -/
def RuleRequest.fieldNames : List String :=
  ["name", "description", "is_enabled", "contacts", "contact_groups", "datasets"]

/-- Reads a request that sets every field. The name and the filters must be given; a rule is in
force unless said otherwise. -/
def RuleRequest.read : Nat → Json → Option RuleRequest
  | 0, _ => none
  | room + 1, j => do
    let field ← j.record RuleRequest.fieldNames
    return {
      name := ← Json.required Json.readText (field "name")
      description := ← Json.defaulted "" Json.readText (field "description")
      isEnabled := ← Json.defaulted true Json.readBool (field "is_enabled")
      contacts := ← Json.defaulted [] (Json.readIds room) (field "contacts")
      contactGroups := ← Json.defaulted [] (Json.readIds room) (field "contact_groups")
      filters := ← Json.required (Json.readList Draft.read room) (field "datasets") }

/-- Reads a request that sets some fields. -/
def ChangeRequest.read : Nat → Json → Option ChangeRequest
  | 0, _ => none
  | room + 1, j => do
    let field ← j.record RuleRequest.fieldNames
    let optional {α : Type} (read : Json → Option α) (name : String) : Option (Option α) :=
      Json.defaulted none (Json.nullable read) (field name)
    return {
      name := ← optional Json.readText "name"
      description := ← optional Json.readText "description"
      isEnabled := ← optional Json.readBool "is_enabled"
      contacts := ← optional (Json.readIds room) "contacts"
      contactGroups := ← optional (Json.readIds room) "contact_groups"
      filters := ← optional (Json.readList Draft.read room) "datasets" }

/-- Reads a request that sets every field, however deep its drafts are. -/
def RuleRequest.ofJson? (j : Json) : Option RuleRequest := RuleRequest.read j.depth j

/-- Reads a request that sets some fields, however deep its drafts are. -/
def ChangeRequest.ofJson? (j : Json) : Option ChangeRequest := ChangeRequest.read j.depth j

/-- A list of drafts as it is written. -/
def Draft.listToJson (drafts : List Draft) : Json := .arr (drafts.map Draft.toJson)

/-- A list of filters as it is written. -/
def Filter.listToJson (filters : List Filter) : Json := .arr (filters.map Filter.toJson)

/-- A set of ids as it is written. -/
def IdSet.toJson (s : IdSet) : Json := .ids s.toList

/-- A request that sets every field, as it is written. -/
def RuleRequest.toJson (r : RuleRequest) : Json :=
  .obj
    [("name", .str r.name), ("description", .str r.description), ("is_enabled", .bool r.isEnabled),
      ("contacts", .ids r.contacts), ("contact_groups", .ids r.contactGroups),
      ("datasets", Draft.listToJson r.filters)]

/-- A request that sets some fields, as it is written: the others are `null`. -/
def ChangeRequest.toJson (r : ChangeRequest) : Json :=
  .obj
    [("name", .orNull .str r.name), ("description", .orNull .str r.description),
      ("is_enabled", .orNull .bool r.isEnabled), ("contacts", .orNull .ids r.contacts),
      ("contact_groups", .orNull .ids r.contactGroups),
      ("datasets", .orNull Draft.listToJson r.filters)]

/-- The terms of a rule as they are written. -/
def RuleTerms.toJson (t : RuleTerms) : Json :=
  .obj
    [("name", .str t.name), ("description", .str t.description), ("is_enabled", .bool t.isEnabled),
      ("linked_contacts", t.contacts.toJson), ("linked_contact_groups", t.contactGroups.toJson),
      ("datasets", Filter.listToJson t.filters)]

/-- The members of an object that a rule's content is written as. -/
def RuleContent.toMembers (c : RuleContent) : List (String × Json) :=
  [("name", .str c.name), ("formatted_name", .str c.formattedName),
    ("description", .str c.description), ("is_enabled", .bool c.isEnabled),
    ("linked_contacts", c.contacts.toJson), ("linked_contact_groups", c.contactGroups.toJson),
    ("datasets", Filter.listToJson c.filters)]

/-- The content of a rule as it is written. -/
def RuleContent.toJson (c : RuleContent) : Json := .obj c.toMembers

/-- A rule as it is written. -/
def Rule.toJson (r : Rule) : Json := .obj (("id", .id r.id) :: r.content.toMembers)

/-- An edit as it is written: the terms that it leaves are `null`. -/
def RuleChanges.toMembers (c : RuleChanges) : List (String × Json) :=
  [("name", .orNull .str c.name), ("description", .orNull .str c.description),
    ("is_enabled", .orNull .bool c.isEnabled), ("linked_contacts", .orNull IdSet.toJson c.contacts),
    ("linked_contact_groups", .orNull IdSet.toJson c.contactGroups),
    ("datasets", .orNull Filter.listToJson c.filters)]

/-- A refused field as it is written. -/
def FieldFault.toJson (f : FieldFault) : Json :=
  let limit : Json := match f with
    | noFilters | emptyName => .obj [("min", .int 1)]
    | descriptionTooLong => .obj [("max", .int RuleTerms.maxDescriptionLength)]
  let message : Json := match f with
    | noFilters => .str f.message
    | _ => .null
  .obj [("field", .str f.field), ("code", .str "length"), ("message", message), ("params", limit)]

end AccessScope
