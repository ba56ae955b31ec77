import AccessScope.Contact
import AccessScope.IdSet

/-!
# The directory

The contacts, the contact groups and who belongs to them, and the access groups of the contacts.

* `Directory.contactGroupsOf`  the registered contact groups of a contact
* `Directory.mem_groupIds`  the groups that a contact was added to
-/

namespace AccessScope

/-- Contacts, contact groups and memberships. -/
structure Directory where
  contacts : List Contact
  contactGroups : List ContactGroup
  /-- Pairs of a contact and a contact group it belongs to. -/
  memberships : List (Id × Id)
  /-- Pairs of a contact and an access group it belongs to. -/
  accessGroups : List (Id × AccessGroup)
deriving DecidableEq

namespace Directory

/-- The directory without entries. -/
def empty : Directory := ⟨[], [], [], []⟩

/-- Registers a contact, in the place of one with the same id. -/
def withContact (d : Directory) (c : Contact) : Directory :=
  { d with contacts := put Contact.id c d.contacts }

/-- Registers a contact group, in the place of one with the same id. -/
def withContactGroup (d : Directory) (g : ContactGroup) : Directory :=
  { d with contactGroups := put ContactGroup.id g d.contactGroups }

/-- Adds a contact to a contact group. Neither needs to be registered. -/
def addMembership (d : Directory) (contact group : Id) : Directory :=
  if d.memberships.contains (contact, group) then d
  else { d with memberships := d.memberships ++ [(contact, group)] }

/-- Adds a contact to an access group. -/
def withAccessGroup (d : Directory) (contact : Id) (g : AccessGroup) : Directory :=
  { d with accessGroups := d.accessGroups ++ [(contact, g)] }

/-- The contact group with an id. -/
def contactGroup? (d : Directory) (id : Id) : Option ContactGroup :=
  d.contactGroups.find? (·.id = id)

/-- The ids of the contact groups that a contact was added to, registered or not. -/
def groupIds (d : Directory) (contact : Id) : IdSet :=
  .ofList ((d.memberships.filter (·.1 = contact)).map (·.2))

/-- The registered contact groups of a contact, in ascending order of their ids. -/
def contactGroupsOf (d : Directory) (contact : Id) : List ContactGroup :=
  (d.groupIds contact).toList.filterMap d.contactGroup?

/-- The access groups of a contact, in the order in which it was added to them. -/
def accessGroupsOf (d : Directory) (contact : Id) : List AccessGroup :=
  (d.accessGroups.filter (·.1 = contact)).map (·.2)

/-- Those of the ids that are contacts. -/
def knownContacts (d : Directory) (ids : List Id) : List Id :=
  ids.filter fun id => d.contacts.any (·.id = id)

/-- Those of the ids that are contact groups. -/
def knownContactGroups (d : Directory) (ids : List Id) : List Id :=
  ids.filter fun id => d.contactGroups.any (·.id = id)

theorem mem_groupIds {d : Directory} {contact group : Id} :
    group ∈ d.groupIds contact ↔ (contact, group) ∈ d.memberships := by
  simp [groupIds]

/-- A contact belongs to the groups it was added to, and adding it to one more changes no other
membership. -/
theorem mem_addMembership {d : Directory} {contact group : Id} {p : Id × Id} :
    p ∈ (d.addMembership contact group).memberships ↔
      p ∈ d.memberships ∨ p = (contact, group) := by
  rw [addMembership]
  split
  · next h =>
    have : (contact, group) ∈ d.memberships := by simpa using h
    exact ⟨.inl, fun h => h.elim id fun h => h ▸ this⟩
  · simp

end Directory

end AccessScope
