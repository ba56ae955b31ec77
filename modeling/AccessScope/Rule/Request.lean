import AccessScope.Rule.Basic

/-!
# Requests

What a client sends to make or change a rule: plain lists where a rule has sets, and drafts where it
has filters. A request passes the checks of its fields before its drafts become filters; the checks
of the rule itself come after.

* `RuleRequest.toTerms`, `ChangeRequest.toChanges`  what a request asks for
* `RuleRequest.fieldFaults`, `ChangeRequest.fieldFaults`  the fields that are refused
-/

namespace AccessScope

/-- A request that sets every field of a rule. -/
structure RuleRequest where
  name : String
  description : String
  isEnabled : Bool
  contacts : List Id
  contactGroups : List Id
  filters : List Draft
deriving DecidableEq

/-- A request that sets some fields of a rule. -/
structure ChangeRequest where
  name : Option String
  description : Option String
  isEnabled : Option Bool
  contacts : Option (List Id)
  contactGroups : Option (List Id)
  filters : Option (List Draft)
deriving DecidableEq

/-- What can be wrong with a field of a request. -/
inductive FieldFault where
  | noFilters
  | descriptionTooLong
  /-- The name has no characters at all; white space is one. -/
  | emptyName
deriving DecidableEq, Repr

namespace FieldFault

/-- The field that is refused, by its written name. -/
def field : FieldFault → String
  | noFilters => "datasets"
  | descriptionTooLong => "description"
  | emptyName => "name"

/-- The wording of a fault. -/
def message : FieldFault → String
  | noFilters => "A rule must contain at least one dataset"
  | descriptionTooLong =>
    "must not have more than " ++ toString RuleTerms.maxDescriptionLength ++ " characters"
  | emptyName => "must not be empty"

/-- The wording of all the faults of a request. -/
def joined (faults : List FieldFault) : String :=
  "\n".intercalate (faults.map fun f => f.field ++ ": " ++ f.message)

end FieldFault

namespace ChangeRequest

/-- The fields that are refused, in the order of their names. A field that is not set is not
checked. -/
def fieldFaults (r : ChangeRequest) : List FieldFault :=
  (if r.filters.any (·.isEmpty) then [.noFilters] else [])
    ++ (if r.description.any (RuleTerms.maxDescriptionLength < ·.length) then [.descriptionTooLong]
      else [])
    ++ (if r.name.any (· = "") then [.emptyName] else [])

/-- The edit that the request asks for. -/
def toChanges (r : ChangeRequest) : Except FilterFault RuleChanges := do
  let filters ← r.filters.mapM (·.mapM Filter.ofDraft)
  return {
    name := r.name
    description := r.description
    isEnabled := r.isEnabled
    contacts := r.contacts.map .ofList
    contactGroups := r.contactGroups.map .ofList
    filters }

end ChangeRequest

namespace RuleRequest

/-- The request that sets the same fields, as one that could have left some out. -/
def toChangeRequest (r : RuleRequest) : ChangeRequest :=
  ⟨r.name, r.description, r.isEnabled, r.contacts, r.contactGroups, r.filters⟩

/-- The fields that are refused, in the order of their names. -/
def fieldFaults (r : RuleRequest) : List FieldFault :=
  r.toChangeRequest.fieldFaults

/-- The terms that the request asks for. -/
def toTerms (r : RuleRequest) : Except FilterFault RuleTerms := do
  let filters ← r.filters.mapM Filter.ofDraft
  return {
    name := r.name
    description := r.description
    isEnabled := r.isEnabled
    contacts := .ofList r.contacts
    contactGroups := .ofList r.contactGroups
    filters }

end RuleRequest

end AccessScope
