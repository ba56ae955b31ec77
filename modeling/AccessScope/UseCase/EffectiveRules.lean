import AccessScope.UseCase.Collaborators

/-!
# Rules that reach a contact

A rule reaches a contact that it is for by itself or through one of the contact's groups, and every
rule reaches an admin. Together they are the contact's effective rules, and their filters, as far as
the rules are in force, are what the contact may see.

* `ascending_unionRules`, `mem_unionRules`  a union of two lists of rules has each id once, in
  order, and under it the first rule of the lists
* `Collaborators.effectiveRules`, `Collaborators.reaches`, `Collaborators.effectiveFilters`
-/

namespace AccessScope

/-- The rules of two lists, each id once and in ascending order. Of two rules with the same id the
first one stays. -/
def unionRules (direct viaGroups : List Rule) : List Rule :=
  (direct ++ viaGroups).foldr (put Rule.id) []

private theorem ascending_foldr_put (l : List Rule) :
    Ascending Rule.id (l.foldr (put Rule.id) []) := by
  induction l with
  | nil => exact .nil
  | cons r l ih => exact ih.put

/-- A union has each id once, in ascending order. -/
theorem ascending_unionRules (direct viaGroups : List Rule) :
    Ascending Rule.id (unionRules direct viaGroups) :=
  ascending_foldr_put _

private theorem mem_foldr_put {r : Rule} {l : List Rule} :
    r ∈ l.foldr (put Rule.id) [] ↔ l.find? (·.id = r.id) = some r := by
  induction l with
  | nil => simp
  | cons q l ih =>
    rw [List.foldr_cons, (ascending_foldr_put l).mem_put, List.find?_cons]
    by_cases h : q.id = r.id
    · simp [h, eq_comm]
    · have hne : r ≠ q := fun he => h (he ▸ rfl)
      simp [h, hne, Ne.symm h, ih]

/-- A union has the first rule of each id in the two lists. -/
theorem mem_unionRules {direct viaGroups : List Rule} {r : Rule} :
    r ∈ unionRules direct viaGroups ↔ (direct ++ viaGroups).find? (·.id = r.id) = some r :=
  mem_foldr_put

/-- The rules in ascending order of their ids; rules with the same id stay in their order. -/
def sortedById (rules : List Rule) : List Rule :=
  rules.mergeSort fun r s => r.id ≤ s.id

/-- The filters of the rules that are in force, each one once, where it comes first. -/
def grantedFilters (rules : List Rule) : List Filter :=
  ((rules.filter (·.isEnabled)).flatMap (·.filters)).eraseDups

namespace Collaborators

variable {σ : Type} (c : Collaborators σ)

/-- The rules that reach a contact. An admin's are all rules; for anyone else the rules for the
contact come first, so that they stay where a rule is found twice. -/
def effectiveRules (contact : Contact) : Action σ (List Rule) := do
  c.count (.effectiveRules contact.isAdmin)
  if contact.isAdmin then
    return sortedById (← c.allRules)
  else
    let direct ← c.rulesOfContact contact.id
    let groups := (← c.contactGroupsOf contact.id).map (·.id)
    -- nobody is asked for the rules of no groups
    let viaGroups ← if groups.isEmpty then pure [] else c.rulesOfGroups groups
    return unionRules direct viaGroups

/-- Does the rule with this id reach the contact? An admin is not looked up. -/
def reaches (contact : Contact) (rule : Id) : Action σ Bool := do
  if contact.isAdmin then
    return true
  else
    return (← c.effectiveRules contact).any (·.id = rule)

/-- The filters that the contact is granted. -/
def effectiveFilters (contact : Contact) : Action σ (List Filter) := do
  return grantedFilters (← c.effectiveRules contact)

end Collaborators

end AccessScope
