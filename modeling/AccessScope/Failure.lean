import AccessScope.Rule.Request

/-!
# Failures

Why an operation did not do what it was asked. A failure is a cause; its kind and its wording follow
from that. What a collaborator reports on its own has a kind and words of its own.

* `Failure.kind`, `Failure.text`, `Failure.message`
-/

namespace AccessScope

/-- The kinds of failures. -/
inductive FailureKind where
  | notFound
  | badRequest
  | forbidden
  | conflict
  | validation
  | internal
deriving DecidableEq, Repr

namespace FailureKind

/-- The written name of a kind, which also labels the outcome that is counted. -/
def label : FailureKind → String
  | notFound => "not_found"
  | badRequest => "bad_request"
  | forbidden => "forbidden"
  | conflict => "conflict"
  | validation => "validation"
  | internal => "internal_error"

/-- The words in front of a message of this kind. -/
def heading : FailureKind → String
  | notFound => "Not found"
  | badRequest => "Bad request"
  | forbidden => "Forbidden"
  | conflict => "Conflict"
  | validation => "Validation error"
  | internal => "Internal error"

end FailureKind

/-- What a contact may want to do with rules. -/
inductive RuleAction where
  | create
  | view
  | edit
  | delete
deriving DecidableEq, Repr

/-- The verb of an action. -/
def RuleAction.verb : RuleAction → String
  | create => "create"
  | view => "view"
  | edit => "edit"
  | delete => "delete"

/-- What the ids in a rule refer to. -/
inductive Reference where
  | contact
  | contactGroup
  | resource (category : Category)
deriving DecidableEq, Repr

/-- The plural noun for what is referred to. -/
def Reference.plural : Reference → String
  | contact => "contacts"
  | contactGroup => "contact groups"
  | resource category => category.tag ++ " resources"

/-- Why an operation failed. -/
inductive Failure where
  /-- No rule has the id. -/
  | noRule
  /-- The caller may not do this with rules. -/
  | notAllowed (action : RuleAction)
  /-- The rule is not among those that reach the caller. -/
  | outOfScope
  /-- Another rule has a name with the same formatted form. -/
  | nameTaken (name formatted : String)
  /-- Nothing has these ids. -/
  | missing (what : Reference) (ids : List Id)
  /-- Fields of the request are refused. -/
  | badFields (faults : List FieldFault)
  | badFilter (fault : FilterFault)
  | badRule (fault : RuleFault)
  /-- A rule that was just added cannot be found. -/
  | vanished (id : Id)
  /-- A collaborator failed for reasons of its own. -/
  | reported (kind : FailureKind) (text : String)
deriving DecidableEq, Repr

namespace Failure

/-- The kind of a failure. -/
def kind : Failure → FailureKind
  | noRule => .notFound
  | notAllowed _ | outOfScope => .forbidden
  | nameTaken _ _ => .conflict
  | missing _ _ => .badRequest
  | badFields _ | badFilter _ | badRule _ => .validation
  | vanished _ => .internal
  | reported kind _ => kind

/-- The wording of a failure without its kind. -/
def text : Failure → String
  | noRule => "Rule"
  | notAllowed action => "You are not allowed to " ++ action.verb ++ " resource access rules"
  | outOfScope => "You are not allowed to view this resource access rule"
  | nameTaken name formatted =>
    "Name '" ++ name ++ "' (formatted as '" ++ formatted ++ "') is already used by another rule"
  | missing what ids => "The following " ++ what.plural ++ " do not exist: " ++ Id.joined ids
  | badFields faults => FieldFault.joined faults
  | badFilter fault => fault.message
  | badRule fault => fault.message
  | vanished id => "rule " ++ toString id ++ " not found right after creation"
  | reported _ text => text

/-- The wording of a failure. -/
def message (f : Failure) : String :=
  f.kind.heading ++ ": " ++ f.text

/-- The fields that are refused, if that is the cause. -/
def fields : Failure → List FieldFault
  | badFields faults => faults
  | _ => []

end Failure

end AccessScope
