import AccessScope.Json.Read

/-!
# Contacts

The people that rules are for. A contact group gathers contacts, and a rule for the group reaches
its members. An access group and the roles of a contact decide instead whether the contact may
manage rules at all.

* `Contact.hasAnyRole`  the test that guards the management of rules
* `Contact.read`, `Contact.toJson`  contacts in JSON
-/

namespace AccessScope

/-- The contact on whose behalf an operation runs. -/
structure Contact where
  id : Id
  name : String
  isAdmin : Bool
  roles : List String
deriving DecidableEq

/-- A group of contacts that rules can be for. -/
structure ContactGroup where
  id : Id
  name : String
deriving DecidableEq

/-- A group whose members may manage rules; rules are never for it. -/
structure AccessGroup where
  id : Id
  name : String
deriving DecidableEq

namespace Role

/-- The role that lets a contact see the rules. -/
def readRules : String := "ROLE_ADMINISTRATION_ACL_RESOURCE_ACCESS_MANAGEMENT_R"

/-- The role that lets a contact see and change the rules. -/
def writeRules : String := "ROLE_ADMINISTRATION_ACL_RESOURCE_ACCESS_MANAGEMENT_RW"

end Role

/-- Does the contact have one of these roles? -/
def Contact.hasAnyRole (c : Contact) (roles : List String) : Bool :=
  roles.any c.roles.contains

/-- Does the contact have this role? -/
def Contact.hasRole (c : Contact) (role : String) : Bool :=
  c.roles.contains role

/-- The texts in the order of their characters, each once. -/
def sortedOnce (texts : List String) : List String :=
  (texts.mergeSort fun a b => !(b < a)).eraseReps

/-- A contact as it is written: its roles in order, each once. -/
def Contact.toJson (c : Contact) : Json :=
  .obj
    [("id", .id c.id), ("name", .str c.name), ("is_admin", .bool c.isAdmin),
      ("topology_roles", .arr ((sortedOnce c.roles).map .str))]

/-- Reads a contact. -/
def Contact.read : Nat → Json → Option Contact
  | 0, _ => none
  | room + 1, j => do
    let field ← j.record ["id", "name", "is_admin", "topology_roles"]
    return {
      id := ← Json.required Json.readId (field "id")
      name := ← Json.required Json.readText (field "name")
      isAdmin := ← Json.defaulted false Json.readBool (field "is_admin")
      roles := ← Json.defaulted [] (Json.readList (fun _ => Json.readText) room)
        (field "topology_roles") }

/-- Reads an id and a name, the fields of both kinds of groups. -/
def readIdAndName : Nat → Json → Option (Id × String)
  | 0, _ => none
  | _ + 1, j => do
    let field ← j.record ["id", "name"]
    return (← Json.required Json.readId (field "id"), ← Json.required Json.readText (field "name"))

/-- Reads a contact group. -/
def ContactGroup.read (room : Nat) (j : Json) : Option ContactGroup :=
  (readIdAndName room j).map fun (id, name) => { id, name }

/-- Reads an access group. -/
def AccessGroup.read (room : Nat) (j : Json) : Option AccessGroup :=
  (readIdAndName room j).map fun (id, name) => { id, name }

/-- A contact group as it is written. -/
def ContactGroup.toJson (g : ContactGroup) : Json :=
  .obj [("id", .id g.id), ("name", .str g.name)]

/-- An access group as it is written. -/
def AccessGroup.toJson (g : AccessGroup) : Json :=
  .obj [("id", .id g.id), ("name", .str g.name)]

end AccessScope
