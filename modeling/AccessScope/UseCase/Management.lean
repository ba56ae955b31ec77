import AccessScope.UseCase.EffectiveRules
import AccessScope.UseCase.Intake
import AccessScope.UseCase.References

/-!
# Managing rules

The operations that callers ask for. Each one first decides whether the caller may do it at all,
then finds the rule that it is about, then checks what the request would make of it, and only then
writes. Whatever happens becomes a response, and its outcome is counted.

* `Manager.authorize`  who may manage rules
* `Manager.create`, `Manager.find`, `Manager.list`, `Manager.update`, `Manager.partialUpdate`,
  `Manager.delete`, `Manager.findEffective`  the operations
-/

namespace AccessScope

/-- The collaborators of the operations, and the access group whose members may manage rules. No
group is required without one. -/
structure Manager (σ : Type) where
  collaborators : Collaborators σ
  accessGroup : Option String

/-- The roles of which one is needed to see rules. -/
def viewRoles : List String := [Role.readRules, Role.writeRules]

/-- The roles of which one is needed to change rules. -/
def changeRoles : List String := [Role.writeRules]

/-- The roles of which one is needed for an action. -/
def RuleAction.roles : RuleAction → List String
  | view => viewRoles
  | create | edit | delete => changeRoles

namespace Manager

variable {σ α β : Type} (m : Manager σ)

/-- Fails unless the caller may do this with rules. An admin may. Anyone else must belong to the
access group, if one is required, and have one of the roles. -/
def authorize (caller : Contact) (action : RuleAction) : Action σ Unit := do
  unless caller.isAdmin do
    if let some required := m.accessGroup then
      let groups ← m.collaborators.accessGroupsOf caller.id
      unless groups.any (·.name = required) do
        throw (.notAllowed action)
    unless caller.hasAnyRole action.roles do
      throw (.notAllowed action)

/-- The rule with an id; fails if there is none. -/
def load (id : Id) : Action σ Rule := do
  match ← m.collaborators.findRule id with
  | some rule => return rule
  | none => throw .noRule

/-- Fails unless the name is free or the current one already has the same formatted form. -/
def requireFreeNameFor (current replacement : Rule) : Action σ Unit := do
  unless replacement.formattedName = current.formattedName do
    m.collaborators.requireFreeName replacement.name

/-- Fails unless everything that the terms refer to exists. -/
def requireReferences (terms : RuleTerms) : Action σ Unit := do
  m.collaborators.requireContacts terms.contacts
  m.collaborators.requireContactGroups terms.contactGroups
  m.collaborators.requireResources terms.filters

/-- Fails unless everything that the edit newly refers to exists. -/
def requireChangedReferences (changes : RuleChanges) : Action σ Unit := do
  if let some contacts := changes.contacts then
    m.collaborators.requireContacts contacts
  if let some groups := changes.contactGroups then
    m.collaborators.requireContactGroups groups
  if let some filters := changes.filters then
    m.collaborators.requireResources filters

/-- The steps that make a new rule and give it as it is stored. -/
def tryCreate (caller : Contact) (request : RuleRequest) : Action σ Rule := do
  m.authorize caller .create
  let content ← Action.ofExcept request.toContent
  -- the name comes before the references, so a taken name is reported even if one is missing
  m.collaborators.requireFreeName content.name
  m.requireReferences content.terms
  let id ← m.collaborators.addRule content
  match ← m.collaborators.findRule id with
  | some rule => return rule
  | none => throw (.vanished id)

/-- The steps that give a rule that reaches the caller. -/
def tryFind (caller : Contact) (id : Id) : Action σ Rule := do
  m.authorize caller .view
  let rule ← m.load id
  unless ← m.collaborators.reaches caller id do
    throw .outOfScope
  return rule

/-- The steps that give all rules that reach the caller. -/
def tryList (caller : Contact) : Action σ (List Rule) := do
  m.authorize caller .view
  m.collaborators.effectiveRules caller

/-- The steps that replace the terms of a rule. -/
def tryUpdate (caller : Contact) (id : Id) (request : RuleRequest) : Action σ Unit := do
  m.authorize caller .edit
  let current ← m.load id
  let replacement ← Action.ofExcept (current.replaced request)
  m.requireFreeNameFor current replacement
  m.requireReferences replacement.terms
  m.collaborators.updateRule replacement

/-- The steps that change some terms of a rule. Only what the request sets has its references
checked, and nothing is written when the rule stays as it is. -/
def tryPartialUpdate (caller : Contact) (id : Id) (request : ChangeRequest) : Action σ Unit := do
  m.authorize caller .edit
  let current ← m.load id
  let (merged, changes) ← Action.ofExcept (current.edited request)
  m.requireFreeNameFor current merged
  m.requireChangedReferences changes
  -- an edit that changes nothing is no write
  unless merged = current do
    m.collaborators.updateRule merged

/-- The steps that remove a rule. -/
def tryDelete (caller : Contact) (id : Id) : Action σ Unit := do
  m.authorize caller .delete
  let _ ← m.load id
  m.collaborators.deleteRule id

/-- Runs the steps of an operation that gives a value, counts the outcome and makes the response. -/
def answer (operation : Operation) (steps : Action σ α) : StateM σ (Response α) := do
  let result ← steps.run
  m.collaborators.count (.operation operation.label (outcomeLabel "success" result))
  return .ofResult operation.label result

/-- Runs the steps of an operation that gives nothing, counts the outcome and makes the
response. -/
def answerDone (operation : Operation) (steps : Action σ Unit) : StateM σ (Response Unit) := do
  let result ← steps.run
  m.collaborators.count (.operation operation.label (outcomeLabel "no_content" result))
  return .ofDone operation.label result

/-- Makes a new rule. -/
def create (caller : Contact) (request : RuleRequest) : StateM σ (Response Rule) :=
  m.answer .create (m.tryCreate caller request)

/-- Gives one rule. -/
def find (caller : Contact) (id : Id) : StateM σ (Response Rule) :=
  m.answer .find (m.tryFind caller id)

/-- Gives the rules that reach the caller, to callers who may see rules. -/
def list (caller : Contact) : StateM σ (Response (List Rule)) :=
  m.answer .list (m.tryList caller)

/-- Replaces the terms of a rule. -/
def update (caller : Contact) (id : Id) (request : RuleRequest) : StateM σ (Response Unit) :=
  m.answerDone .update (m.tryUpdate caller id request)

/-- Changes some terms of a rule. -/
def partialUpdate (caller : Contact) (id : Id) (request : ChangeRequest) :
    StateM σ (Response Unit) :=
  m.answerDone .partialUpdate (m.tryPartialUpdate caller id request)

/-- Removes a rule. -/
def delete (caller : Contact) (id : Id) : StateM σ (Response Unit) :=
  m.answerDone .delete (m.tryDelete caller id)

/-- Gives the rules that reach the caller. Everyone may ask for their own. -/
def findEffective (caller : Contact) : StateM σ (Response (List Rule)) :=
  m.answer .findEffective (m.collaborators.effectiveRules caller)

end Manager

end AccessScope
