import AccessScope.Failure
import AccessScope.Json.Basic

/-!
# Responses

What a caller sees of an operation: one of seven outcomes. Every failure becomes one of them, and
the words of an internal failure are not shown.

* `Response.ofResult`  the response to an operation that gives a value
* `Response.ofDone`  the response to an operation that gives nothing
* `outcomeLabel`  the label under which the outcome is counted
-/

namespace AccessScope

/-- What a caller sees of an operation. -/
inductive Response (α : Type) where
  | success (payload : α)
  | noContent
  | forbidden (text : String)
  | notFound (text : String)
  | conflict (text : String)
  /-- The request is refused; `fields` are the fields that are to blame, if it was them. -/
  | invalidArgument (text : String) (fields : List FieldFault)
  | error (text : String)
deriving DecidableEq

namespace Response

variable {α : Type}

/-- The operation's name in words. -/
def inWords (operation : String) : String :=
  operation.map fun c => if c = '_' then ' ' else c

/-- The response to an operation that failed. -/
def ofFailure (operation : String) (f : Failure) : Response α :=
  match f.kind with
  | .forbidden => forbidden f.text
  | .notFound => notFound f.text
  | .conflict => conflict f.text
  | .badRequest | .validation => invalidArgument f.text f.fields
  | .internal => error ("Error while " ++ inWords operation)

/-- The response to an operation that gives a value. -/
def ofResult (operation : String) : Except Failure α → Response α
  | .ok payload => success payload
  | .error f => ofFailure operation f

/-- The response to an operation that gives nothing. -/
def ofDone (operation : String) : Except Failure Unit → Response α
  | .ok () => noContent
  | .error f => ofFailure operation f

/-- Did the operation do what it was asked? -/
def isSuccess : Response α → Bool
  | success _ | noContent => true
  | _ => false

/-- The value that the operation gave, if it gave one. -/
def payload? : Response α → Option α
  | success payload => some payload
  | _ => none

/-- The written name of the outcome. -/
def status : Response α → String
  | success _ => "success"
  | noContent => "no_content"
  | forbidden _ => "forbidden"
  | notFound _ => "not_found"
  | conflict _ => "conflict"
  | invalidArgument _ _ => "invalid_argument"
  | error _ => "error"

/-- A response as it is written. -/
def toJson (payload : α → Json) (r : Response α) : Json :=
  let status := ("status", .str r.status)
  match r with
  | success a => .obj [status, ("body", payload a)]
  | noContent => .obj [status]
  | forbidden text | notFound text | conflict text | invalidArgument text _ | error text =>
    .obj [status, ("body", .str text)]

end Response

/-- The operations on rules that callers can ask for. -/
inductive Operation where
  | create
  | find
  | list
  | update
  | partialUpdate
  | delete
  | findEffective
deriving DecidableEq, Repr

/-- The written name of an operation. -/
def Operation.label : Operation → String
  | create => "create_rule"
  | find => "find_rule"
  | list => "find_rules"
  | update => "update_rule"
  | partialUpdate => "partial_update_rule"
  | delete => "delete_rule"
  | findEffective => "find_effective_rules"

/-- The label under which the outcome of an operation is counted; `done` is the one for success. -/
def outcomeLabel {α : Type} (done : String) : Except Failure α → String
  | .ok _ => done
  | .error f => f.kind.label

end AccessScope
