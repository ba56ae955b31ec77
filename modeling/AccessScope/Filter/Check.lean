import AccessScope.Filter.Chain
import AccessScope.IdSet

/-!
# Checking a chain

A chain is lawful if every level names at least one resource, all by positive ids, under a chosen
category, and if each level may narrow the one above it. `Chain.check` looks for the first fault
from the root to the leaf and, inside a level, in a fixed order.

* `checkLevel_eq_ok_iff`  a level passes exactly if it may stand below its parent and is lawful
* `Chain.check_eq_ok_iff`  a chain passes exactly if it is lawful
-/

namespace AccessScope

/-- What can be wrong with a level of a filter. -/
inductive FilterFault where
  /-- The category may not narrow the one above it. -/
  | incompatible (parent child : Category)
  /-- The level names no resource, or its category is not chosen yet. -/
  | noResources (category : Category)
  /-- The level names a resource by a number that is not positive. -/
  | invalidResource (category : Category) (id : Id)
deriving DecidableEq, Repr

/-- The wording of a fault. -/
def FilterFault.message : FilterFault → String
  | incompatible parent child =>
    "Dataset filter of type '" ++ child.tag ++ "' cannot narrow a '" ++ parent.tag ++ "' filter"
  | noResources category =>
    "Dataset filter of type '" ++ category.tag ++ "' must reference at least one resource"
  | invalidResource category id =>
    "Dataset filter of type '" ++ category.tag ++ "' references invalid resource ID " ++ toString id

/-- Checks one level below the category `parent`, if there is one. That it names resources is
checked first, then its place, then its category, then the ids. -/
def checkLevel (parent : Option Category) (category : Category) (ids : IdSet) :
    Except FilterFault Unit :=
  if ids.isEmpty then .error (.noResources category)
  else match parent.filter (!·.admits category) with
    | some p => .error (.incompatible p category)
    | none =>
      if category = .unchosen then .error (.noResources category)
      else match ids.firstInvalid? with
        | some id => .error (.invalidResource category id)
        | none => .ok ()

/-- What a level must satisfy wherever it stands. -/
structure LawfulLevel (category : Category) (ids : IdSet) : Prop where
  nonempty : ids.isEmpty = false
  chosen : category ≠ .unchosen
  positive : ∀ id ∈ ids, 0 < id

/-- A level passes exactly if its parent admits it and it is lawful. -/
theorem checkLevel_eq_ok_iff {parent : Option Category} {category : Category} {ids : IdSet} :
    checkLevel parent category ids = .ok () ↔
      (∀ p ∈ parent, p.admits category) ∧ LawfulLevel category ids := by
  have hparent : parent.filter (!·.admits category) = none ↔ ∀ p ∈ parent, p.admits category := by
    simp [Option.filter_eq_none_iff]
  constructor
  · intro h
    unfold checkLevel at h
    split at h
    · cases h
    · next hne =>
      split at h
      · cases h
      · next hp =>
        split at h
        · cases h
        · next hc =>
          split at h
          · cases h
          · next hv =>
            exact ⟨hparent.1 hp, by simpa using hne, hc, IdSet.firstInvalid?_eq_none.1 hv⟩
  · rintro ⟨hp, hne, hc, hv⟩
    unfold checkLevel
    rw [hne, hparent.2 hp, if_neg hc, IdSet.firstInvalid?_eq_none.2 hv]
    rfl

namespace Chain

/-- Checks the levels from the root to the leaf, below the category `parent` if there is one, and
stops at the first fault. -/
def check (parent : Option Category) : Chain IdSet → Except FilterFault Unit
  | leaf c ids => checkLevel parent c ids
  | narrowed c ids child => do
    checkLevel parent c ids
    child.check (some c)

/-- Every level is lawful and may narrow the one above it. -/
def Lawful : Chain IdSet → Prop
  | leaf c ids => LawfulLevel c ids
  | narrowed c ids child => LawfulLevel c ids ∧ c.admits child.category ∧ child.Lawful

theorem Lawful.level {chain : Chain IdSet} (h : chain.Lawful) :
    LawfulLevel chain.category chain.resources := by
  cases chain with
  | leaf c ids => exact h
  | narrowed c ids child => exact h.1

theorem Lawful.child {chain child : Chain IdSet} (h : chain.Lawful)
    (hc : chain.child? = some child) : child.Lawful := by
  cases chain with
  | leaf c ids => cases hc
  | narrowed c ids rest => cases hc; exact h.2.2

theorem Lawful.admits {chain child : Chain IdSet} (h : chain.Lawful)
    (hc : chain.child? = some child) : chain.category.admits child.category := by
  cases chain with
  | leaf c ids => cases hc
  | narrowed c ids rest => cases hc; exact h.2.1

theorem check_narrowed_eq_ok_iff {parent : Option Category} {c : Category} {ids : IdSet}
    {child : Chain IdSet} :
    (narrowed c ids child).check parent = .ok () ↔
      checkLevel parent c ids = .ok () ∧ child.check (some c) = .ok () := by
  rw [check]
  cases checkLevel parent c ids with
  | error e => simp [bind, Except.bind]
  | ok u => simp [bind, Except.bind]

/-- A chain passes below `parent` exactly if `parent` admits it and it is lawful. -/
theorem check_eq_ok_iff {parent : Option Category} {chain : Chain IdSet} :
    chain.check parent = .ok () ↔ (∀ p ∈ parent, p.admits chain.category) ∧ chain.Lawful := by
  induction chain generalizing parent with
  | leaf c ids => exact checkLevel_eq_ok_iff
  | narrowed c ids child ih =>
    rw [check_narrowed_eq_ok_iff, checkLevel_eq_ok_iff, ih]
    simp [Lawful, category, and_assoc]

end Chain

/-- A filter as a client writes it: each level lists ids in any order and as often as it likes. -/
abbrev Draft := Chain (List Id)

/-- The same chain with the ids of each level as a set. -/
def Draft.settled (draft : Draft) : Chain IdSet :=
  draft.map IdSet.ofList

/-- Checks every level of a draft from the root to the leaf. -/
def Draft.check (draft : Draft) : Except FilterFault Unit :=
  draft.settled.check none

/-- A draft passes exactly if its settled chain is lawful. -/
theorem Draft.check_eq_ok_iff {draft : Draft} : draft.check = .ok () ↔ draft.settled.Lawful := by
  rw [Draft.check, Chain.check_eq_ok_iff]
  simp

end AccessScope
