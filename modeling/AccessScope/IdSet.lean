import AccessScope.Ascending

/-!
# Sets of ids

A finite set of ids is the list of its members in strictly ascending order. Two sets with the same
members are equal.

* `IdSet.mem_insert`, `IdSet.mem_ofList`, `IdSet.mem_sdiff`  the members after each operation
* `IdSet.ext`  a set is determined by its members
-/

namespace AccessScope

/-- A finite set of ids. -/
structure IdSet where
  toList : List Id
  ascending : Ascending id toList
deriving DecidableEq

namespace IdSet

instance : Membership Id IdSet := ⟨fun s a => a ∈ s.toList⟩

instance (a : Id) (s : IdSet) : Decidable (a ∈ s) :=
  inferInstanceAs (Decidable (a ∈ s.toList))

theorem mem_def {a : Id} {s : IdSet} : a ∈ s ↔ a ∈ s.toList := Iff.rfl

/-- A set is determined by its members. -/
theorem ext {s t : IdSet} (h : ∀ a, a ∈ s ↔ a ∈ t) : s = t := by
  cases s with
  | mk l hl =>
    cases t with
    | mk m hm =>
      have : l = m := Ascending.ext hl hm h
      subst this
      rfl

/-- The set without members. -/
def empty : IdSet := ⟨[], .nil⟩

instance : EmptyCollection IdSet := ⟨empty⟩

@[simp] theorem not_mem_empty (a : Id) : ¬ a ∈ (∅ : IdSet) := List.not_mem_nil

/-- Has the set no members? -/
def isEmpty (s : IdSet) : Bool := s.toList.isEmpty

/-- A set without members is the empty list, and any other set has one. -/
theorem isEmpty_iff {s : IdSet} : s.isEmpty ↔ ∀ a, a ∉ s := by
  rw [isEmpty, List.isEmpty_iff, List.eq_nil_iff_forall_not_mem]
  rfl

/-- The set with one more member. -/
def insert (s : IdSet) (a : Id) : IdSet := ⟨put id a s.toList, s.ascending.put⟩

theorem mem_insert {s : IdSet} {a b : Id} : b ∈ s.insert a ↔ b = a ∨ b ∈ s := by
  rw [mem_def, insert, s.ascending.mem_put, mem_def]
  constructor
  · exact fun h => h.imp id And.left
  · intro h
    by_cases hba : b = a
    · exact .inl hba
    · exact .inr ⟨h.resolve_left hba, hba⟩

/-- The set of the ids in a list. -/
def ofList (ids : List Id) : IdSet :=
  ids.foldr (fun a s => s.insert a) ∅

@[simp] theorem mem_ofList {a : Id} {ids : List Id} : a ∈ ofList ids ↔ a ∈ ids := by
  induction ids with
  | nil => simp [ofList]
  | cons b ids ih =>
    have : ofList (b :: ids) = (ofList ids).insert b := rfl
    rw [this, mem_insert, ih, List.mem_cons]

@[simp] theorem isEmpty_ofList (ids : List Id) : (ofList ids).isEmpty = ids.isEmpty := by
  rw [Bool.eq_iff_iff, isEmpty_iff, List.isEmpty_iff, List.eq_nil_iff_forall_not_mem]
  simp

/-- Listing a set and reading the list back gives the set. -/
@[simp] theorem ofList_toList (s : IdSet) : ofList s.toList = s :=
  ext fun _ => mem_ofList

/-- The members of a set that are not in a list. -/
def sdiff (s : IdSet) (known : List Id) : IdSet :=
  ⟨s.toList.filter (!known.contains ·), s.ascending.filter _⟩

theorem mem_sdiff {s : IdSet} {known : List Id} {a : Id} :
    a ∈ s.sdiff known ↔ a ∈ s ∧ a ∉ known := by
  simp [mem_def, sdiff]

/-- The smallest member that names nothing, since it is not positive. -/
def firstInvalid? (s : IdSet) : Option Id :=
  s.toList.find? (· ≤ 0)

/-- No member is refused exactly if all are positive. -/
theorem firstInvalid?_eq_none {s : IdSet} : s.firstInvalid? = none ↔ ∀ a ∈ s, 0 < a := by
  simp [firstInvalid?, mem_def, Int64.not_le]

end IdSet

end AccessScope
