import AccessScope.UseCase.Collaborators

/-!
# References of a rule

What a rule refers to must exist, and its name must be free. These checks ask the collaborators and
fail with everything that is missing of one kind.

* `mem_resourcesOf`  the resources of one category that filters name
* `requestedResources`  the resources of all levels of all filters, category by category
* `Collaborators.requireResources`  fails for the first category with something missing
-/

namespace AccessScope

/-- The resources of one category that the filters name at any level. -/
def resourcesOf (category : Category) (filters : List Filter) : IdSet :=
  .ofList (((filters.flatMap Filter.levels).filter (·.1 = category)).flatMap (·.2.toList))

theorem mem_resourcesOf {category : Category} {filters : List Filter} {a : Id} :
    a ∈ resourcesOf category filters ↔
      ∃ f ∈ filters, ∃ level ∈ f.levels, level.1 = category ∧ a ∈ level.2 := by
  rw [resourcesOf, IdSet.mem_ofList]
  simp only [List.mem_flatMap, List.mem_filter, decide_eq_true_eq]
  constructor
  · rintro ⟨level, ⟨⟨f, hf, hl⟩, hc⟩, ha⟩
    exact ⟨f, hf, level, hl, hc, ha⟩
  · rintro ⟨f, hf, level, hl, hc, ha⟩
    exact ⟨level, ⟨⟨f, hf, hl⟩, hc⟩, ha⟩

/-- The categories that the filters name at any level, in their order, each with the resources of
it. -/
def requestedResources (filters : List Filter) : List (Category × IdSet) :=
  (Category.values.filter fun category =>
      (filters.flatMap Filter.levels).any (·.1 = category)).map fun category =>
    (category, resourcesOf category filters)

namespace Collaborators

variable {σ : Type} (c : Collaborators σ)

/-- Fails if another rule has a name with the same formatted form. -/
def requireFreeName (name : String) : Action σ Unit := do
  if ← c.isNameTaken (RuleName.formatted name) then
    throw (.nameTaken name (RuleName.formatted name))

/-- Fails if some of the ids are not among the known ones. -/
def requireKnown (what : Reference) (ids : IdSet) (known : List Id) : Action σ Unit :=
  if (ids.sdiff known).isEmpty then pure () else throw (.missing what (ids.sdiff known).toList)

/-- Fails if some of the ids are no contacts. Nobody is asked about no ids. -/
def requireContacts (ids : IdSet) : Action σ Unit := do
  unless ids.isEmpty do
    requireKnown .contact ids (← c.knownContacts ids.toList)

/-- Fails if some of the ids are no contact groups. Nobody is asked about no ids. -/
def requireContactGroups (ids : IdSet) : Action σ Unit := do
  unless ids.isEmpty do
    requireKnown .contactGroup ids (← c.knownContactGroups ids.toList)

/-- Fails if some resources of a level are no resources of the level's category. Each category is
asked about once. -/
def requireResources (filters : List Filter) : Action σ Unit :=
  (requestedResources filters).forM fun (category, ids) => do
    requireKnown (.resource category) ids (← c.knownResources category ids.toList)

end Collaborators

end AccessScope
