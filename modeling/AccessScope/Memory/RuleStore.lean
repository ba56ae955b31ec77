import AccessScope.Failure

/-!
# The rule store

Rules under the ids that the store gave them, the last id given, and the monitored resources. The
formatted names of the stored rules differ: adding or updating a rule is refused when another rule
has the name.

* `RuleStore.find?_eq_some_iff`  a rule is found under its own id
* `RuleStore.nameOwner?_eq_none_iff`  a name has no owner exactly if no rule has it
* `RuleStore.add_eq_ok_iff`, `RuleStore.update_eq_ok_iff`, `RuleStore.delete_eq_ok_iff`  when a
  write is accepted, and what the store is afterwards
* `RuleStore.mem_store`, `RuleStore.mem_remove`  the stored rules after a write
-/

namespace AccessScope

/-- The stored rules, the last id that was given to one, and the resources that exist. -/
structure RuleStore where
  rules : List Rule
  ascending : Ascending Rule.id rules
  lastId : Id
  resources : List (Category × Id)
deriving DecidableEq

namespace RuleStore

/-- The store without rules and resources. -/
def empty : RuleStore := ⟨[], .nil, 0, []⟩

/-- The rule with an id. -/
def find? (s : RuleStore) (id : Id) : Option Rule :=
  s.rules.find? (·.id = id)

/-- The id of a rule with this formatted name. -/
def nameOwner? (s : RuleStore) (formatted : String) : Option Id :=
  (s.rules.find? (·.formattedName = formatted)).map (·.id)

/-- The rules that are for a contact by itself. -/
def rulesOfContact (s : RuleStore) (contact : Id) : List Rule :=
  s.rules.filter (·.bindsContact contact)

/-- The rules that are for one of these contact groups. -/
def rulesOfGroups (s : RuleStore) (groups : List Id) : List Rule :=
  s.rules.filter (·.bindsAnyGroup groups)

/-- Those of the ids that are resources of the category. -/
def knownResources (s : RuleStore) (category : Category) (ids : List Id) : List Id :=
  ids.filter fun id => s.resources.contains (category, id)

/-- The store with more resources of a category. -/
def withResources (s : RuleStore) (category : Category) (ids : List Id) : RuleStore :=
  { s with resources := s.resources ++ ids.map (category, ·) }

/-- The store with a rule in the place of the one with the same id, if there is one. -/
def store (s : RuleStore) (r : Rule) : RuleStore :=
  { s with rules := put Rule.id r s.rules, ascending := s.ascending.put }

/-- The id that the next new rule gets. -/
def nextId (s : RuleStore) : Id := s.lastId + 1

/-- Adds a new rule under the next id. -/
def add (s : RuleStore) (c : RuleContent) : Except Failure (RuleStore × Id) :=
  match s.nameOwner? c.formattedName with
  | some _ => .error (.nameTaken c.name c.formattedName)
  | none => .ok ({ s.store (c.withId s.nextId) with lastId := s.nextId }, s.nextId)

/-- Stores a rule in the place of the one with the same id. -/
def update (s : RuleStore) (r : Rule) : Except Failure RuleStore :=
  if (s.find? r.id).isNone then .error .noRule
  -- a rule may keep its own name
  else if (s.nameOwner? r.formattedName).any (· ≠ r.id) then
    .error (.nameTaken r.name r.formattedName)
  else .ok (s.store r)

/-- The store without the rule with an id. -/
def remove (s : RuleStore) (id : Id) : RuleStore :=
  { s with rules := s.rules.filter (·.id ≠ id), ascending := s.ascending.filter _ }

/-- Removes the rule with an id. -/
def delete (s : RuleStore) (id : Id) : Except Failure RuleStore :=
  if (s.find? id).isNone then .error .noRule
  else .ok (s.remove id)

/-- A rule is found exactly under its own id. -/
theorem find?_eq_some_iff {s : RuleStore} {id : Id} {r : Rule} :
    s.find? id = some r ↔ r ∈ s.rules ∧ r.id = id :=
  s.ascending.find?_eq_some_iff

theorem find?_eq_none_iff {s : RuleStore} {id : Id} :
    s.find? id = none ↔ ∀ r ∈ s.rules, r.id ≠ id := by
  simp [find?]

/-- A name has no owner exactly if no rule has it. -/
theorem nameOwner?_eq_none_iff {s : RuleStore} {formatted : String} :
    s.nameOwner? formatted = none ↔ ∀ r ∈ s.rules, r.formattedName ≠ formatted := by
  simp [nameOwner?]

/-- The stored rules after one was put in the place of the one with its id. -/
@[simp] theorem mem_store {s : RuleStore} {r q : Rule} :
    q ∈ (s.store r).rules ↔ q = r ∨ q ∈ s.rules ∧ q.id ≠ r.id :=
  s.ascending.mem_put

/-- The stored rules after the one with an id was removed. -/
@[simp] theorem mem_remove {s : RuleStore} {id : Id} {q : Rule} :
    q ∈ (s.remove id).rules ↔ q ∈ s.rules ∧ q.id ≠ id := by
  simp [remove]

/-- A new rule is accepted exactly if no rule has its name. It gets the next id, and nothing else
changes. -/
theorem add_eq_ok_iff {s t : RuleStore} {c : RuleContent} {id : Id} :
    s.add c = .ok (t, id) ↔
      s.nameOwner? c.formattedName = none ∧ id = s.nextId ∧
        t = { s.store (c.withId s.nextId) with lastId := s.nextId } := by
  unfold add
  split
  · next h => simp [h]
  · next h =>
    simp only [h, Except.ok.injEq, Prod.mk.injEq, true_and]
    exact ⟨fun ⟨ht, hid⟩ => ⟨hid.symm, ht.symm⟩, fun ⟨hid, ht⟩ => ⟨ht.symm, hid.symm⟩⟩

/-- A rule is stored exactly if one with its id is there and no other has its name. -/
theorem update_eq_ok_iff {s t : RuleStore} {r : Rule} :
    s.update r = .ok t ↔
      (s.find? r.id).isSome ∧ (∀ id ∈ s.nameOwner? r.formattedName, id = r.id) ∧
        t = s.store r := by
  unfold update
  split
  · next h =>
    have : s.find? r.id = none := by simpa using h
    simp [this]
  · next h =>
    have hfound : (s.find? r.id).isSome := by simpa [Option.isSome_iff_ne_none] using h
    split
    · next ho =>
      obtain ⟨id, hid, hne⟩ := (Option.any_eq_true ..).1 ho
      refine ⟨nofun, fun hall => ?_⟩
      exact absurd (hall.2.1 id hid) (by simpa using hne)
    · next ho =>
      simp only [Except.ok.injEq, hfound, true_and]
      constructor
      · rintro rfl
        refine ⟨fun id hid => ?_, rfl⟩
        rw [Option.mem_def.1 hid] at ho
        simpa using ho
      · exact fun h => h.2.symm

/-- A rule is removed exactly if one with the id is there. -/
theorem delete_eq_ok_iff {s t : RuleStore} {id : Id} :
    s.delete id = .ok t ↔ (s.find? id).isSome ∧ t = s.remove id := by
  unfold delete
  split
  · next h =>
    have : s.find? id = none := by simpa using h
    simp [this]
  · next h =>
    have hfound : (s.find? id).isSome := by simpa [Option.isSome_iff_ne_none] using h
    simp only [Except.ok.injEq, hfound, true_and]
    exact eq_comm

end RuleStore

end AccessScope
