import AccessScope.IdSet

/-!
# JSON values

The data format of requests and answers. An object is the list of its members as they were
written, so reading it can tell that a member came twice. Only whole numbers carry meaning here;
any other number is kept as a decimal and is never an id.

* `Json.depth`  how deep lists and objects are nested
* `Json.ids`  a list of ids as it is written
-/

namespace AccessScope

/-- A JSON value. -/
inductive Json where
  | null
  | bool (value : Bool)
  /-- A number that is written as an integer; `-0` is not one. -/
  | int (value : Int)
  /-- Any other number: `mantissa` times the power of ten with this exponent. -/
  | decimal (mantissa exponent : Int)
  | str (text : String)
  | arr (items : List Json)
  | obj (members : List (String × Json))
  /-- A string, or an object with a key, that holds one half of a surrogate pair. It is written
  JSON, but there is no text that it means. -/
  | unpaired
deriving Inhabited

namespace Json

/-- How deep lists and objects are nested. -/
def depth : Json → Nat
  | arr items => 1 + depthOfItems items
  | obj members => 1 + depthOfMembers members
  | _ => 0
where
  /-- The greatest depth of the items of a list. -/
  depthOfItems : List Json → Nat
    | [] => 0
    | j :: rest => max j.depth (depthOfItems rest)
  /-- The greatest depth of the members of an object. -/
  depthOfMembers : List (String × Json) → Nat
    | [] => 0
    | (_, j) :: rest => max j.depth (depthOfMembers rest)

/-- An id as it is written. -/
def id (a : Id) : Json := int a.toInt

/-- A list of ids as it is written. -/
def ids (as : List Id) : Json := arr (as.map id)

/-- A value that may be missing, written as `null` then. -/
def orNull {α : Type} (write : α → Json) : Option α → Json
  | none => null
  | some a => write a

end Json

end AccessScope
