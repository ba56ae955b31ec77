import AccessScope.Json.Basic

/-!
# Reading typed values from JSON

How a value of the domain is read from a JSON value. A record is an object with the record's fields
as keys, in any order and among any other keys, or the list of its fields in their order, where
fields at the end may be missing. Readers of lists and records take the number of nested lists and
objects that are still allowed, their `room`, and pass one less on to what is inside.

* `Json.record`  the fields of a record
* `Json.required`, `Json.defaulted`, `Json.nullable`  the three ways a field can be read
-/

namespace AccessScope.Json

variable {α : Type}

/-- Reads an id: an integer that 64 bits hold. -/
def readId : Json → Option Id
  | int n => Id.ofInt? n
  | _ => none

/-- Reads a text. -/
def readText : Json → Option String
  | str text => some text
  | _ => none

/-- Reads a truth value. -/
def readBool : Json → Option Bool
  | bool b => some b
  | _ => none

/-- Reads a list, each item with one level less of room. -/
def readList (read : Nat → Json → Option α) : Nat → Json → Option (List α)
  | room + 1, arr items => items.mapM (read room)
  | _, _ => none

/-- Reads a list of ids. -/
def readIds : Nat → Json → Option (List Id) :=
  readList fun _ => readId

/-- Reads a value that may be `null`. -/
def nullable (read : Json → Option α) : Json → Option (Option α)
  | null => some none
  | j => (read j).map some

/-- Reads a field that must be there. -/
def required (read : Json → Option α) (field : Option Json) : Option α :=
  field.bind read

/-- Reads a field that has a default when it is missing. -/
def defaulted (default : α) (read : Json → Option α) : Option Json → Option α
  | none => some default
  | some j => read j

/-- The fields of a record with these names, as a look-up by name. An object may not hold one of
them twice; a list may not be longer than the names. -/
def record (names : List String) : Json → Option (String → Option Json)
  | obj members =>
    if names.all fun name => members.countP (·.1 == name) ≤ 1 then
      some fun name => members.lookup name
    else none
  | arr items =>
    if items.length ≤ names.length then
      some fun name => items[names.idxOf name]?
    else none
  | _ => none

end AccessScope.Json
