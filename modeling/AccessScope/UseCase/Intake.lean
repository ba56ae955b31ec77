import AccessScope.Failure

/-!
# Intake of requests

A request is taken in by checking its fields, then its drafts, then the terms of the rule as a
whole. The first check that fails decides.

* `RuleRequest.toContent`  the content of a rule that a request asks for
-/

namespace AccessScope

/-- Fails with the fields that are refused, if there are any. -/
def requireFields : List FieldFault → Except Failure Unit
  | [] => .ok ()
  | faults => .error (.badFields faults)

/-- The terms that a request asks for, once its fields and drafts are checked. -/
def RuleRequest.checkedTerms (r : RuleRequest) : Except Failure RuleTerms := do
  requireFields r.fieldFaults
  r.toTerms.mapError .badFilter

/-- The edit that a request asks for, once its fields and drafts are checked. -/
def ChangeRequest.checkedChanges (r : ChangeRequest) : Except Failure RuleChanges := do
  requireFields r.fieldFaults
  r.toChanges.mapError .badFilter

/-- The content of a rule that a request asks for. -/
def RuleRequest.toContent (r : RuleRequest) : Except Failure RuleContent := do
  let terms ← r.checkedTerms
  (RuleContent.ofTerms terms).mapError .badRule

/-- The rule after the edit that a request asks for, and the edit. -/
def Rule.edited (current : Rule) (r : ChangeRequest) : Except Failure (Rule × RuleChanges) := do
  let changes ← r.checkedChanges
  let merged ← (current.merge changes).mapError .badRule
  return (merged, changes)

/-- The rule with the terms that a request asks for. -/
def Rule.replaced (current : Rule) (r : RuleRequest) : Except Failure Rule := do
  let terms ← r.checkedTerms
  (current.replace terms).mapError .badRule

end AccessScope
