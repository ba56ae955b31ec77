import AccessScope.Proofs.WorldRuns
import Mathlib.Tactic.ByContra

/-!
# Missing resources

Whether the resources of filters exist is asked category by category: the ids that all levels of all
filters name are put together by their category, those that the store knows are taken away, and the
first category with ids left over is reported. This file says what that comes to, without following
the regrouping: filters pass exactly if every level names registered resources, and otherwise the
report has the first category that lacks some, with all that it lacks and nothing else. Only which
filters there are matters to the report, so they may come in any order and more than once.

## Key results

- `run_forM_of_fault`: a sequence of checks ends at the first fault
- `run_requireResources`: what the check of filters reports
- `RuleStore.findSome?_fault?_eq_none_iff`, `RuleStore.least_of_findSome?_fault?`: when nothing is
  reported, and what is reported otherwise
- `Collaborators.requireResources_congr`: the order and the repetition of filters do not matter
- `requireResources_exact`: these together, for every world
-/

namespace AccessScope

/-! ## Sequences of checks -/

/-- Checks that change nothing, one after the other, end at the first one that finds a fault. -/
theorem run_forM_of_fault {α : Type} {w : World} {l : List α} {step : α → Action World Unit}
    {fault? : α → Option Failure}
    (h : ∀ x, (step x).run.run w = ((fault? x).elim (.ok ()) .error, w)) :
    (l.forM step).run.run w = ((l.findSome? fault?).elim (.ok ()) .error, w) := by
  induction l with
  | nil => rfl
  | cons x l ih =>
    have hx := h x
    rw [List.findSome?_cons]
    cases hfault : fault? x with
    | none =>
      rw [hfault] at hx
      exact (run_bind_ok hx).trans ih
    | some failure =>
      rw [hfault] at hx
      exact run_bind_error hx

/-! ## What is asked for -/

variable {filters others : List Filter}

/-- A category is asked about exactly if a level names it, with the resources of all its levels. -/
theorem mem_requestedResources {category : Category} {ids : IdSet} :
    (category, ids) ∈ requestedResources filters ↔
      (∃ f ∈ filters, ∃ level ∈ f.levels, level.1 = category) ∧
        ids = resourcesOf category filters := by
  simp only [requestedResources, List.mem_map, List.mem_filter, Category.mem_values, true_and,
    List.any_eq_true, decide_eq_true_eq, List.mem_flatMap]
  constructor
  · rintro ⟨_, ⟨level, ⟨f, hf, hl⟩, hc⟩, ⟨⟩⟩
    exact ⟨⟨f, hf, level, hl, hc⟩, rfl⟩
  · rintro ⟨⟨f, hf, level, hl, hc⟩, rfl⟩
    exact ⟨category, ⟨level, ⟨f, hf, hl⟩, hc⟩, rfl⟩

/-- Categories are asked about in their order. -/
theorem pairwise_requestedResources :
    (requestedResources filters).Pairwise fun a b => a.1.rank < b.1.rank := by
  have hvalues : Category.values.Pairwise fun a b => a.rank < b.rank := by decide
  rw [requestedResources, List.pairwise_map]
  exact hvalues.filter _

/-- What is asked for depends on which filters there are, not on their order or repetition. -/
theorem requestedResources_congr (h : ∀ f, f ∈ filters ↔ f ∈ others) :
    requestedResources filters = requestedResources others := by
  have hresources (category : Category) :
      resourcesOf category filters = resourcesOf category others := by
    refine IdSet.ext fun id => ?_
    simp only [mem_resourcesOf, h]
  have hnamed (category : Category) :
      (filters.flatMap Filter.levels).any (·.1 = category) =
        (others.flatMap Filter.levels).any (·.1 = category) := by
    rw [Bool.eq_iff_iff]
    simp only [List.any_eq_true, List.mem_flatMap, h]
  simp only [requestedResources, hresources, hnamed]

/-- Whatever the collaborators answer, the order and the repetition of filters make no difference to
    their check. -/
theorem Collaborators.requireResources_congr {σ : Type} (c : Collaborators σ)
    (h : ∀ f, f ∈ filters ↔ f ∈ others) :
    c.requireResources filters = c.requireResources others := by
  rw [requireResources, requireResources, requestedResources_congr h]

/-! ## What is missing -/

namespace RuleStore

variable {s : RuleStore} {failure : Failure}

/-- The filters name this id at some level of the category, and no resource of the category has
    it. -/
def Lacks (s : RuleStore) (filters : List Filter) (category : Category) (id : Id) : Prop :=
  ∃ f ∈ filters, ∃ level ∈ f.levels, level.1 = category ∧ id ∈ level.2 ∧
    (category, id) ∉ s.resources

/-- Those of the ids that are no resources of the category. -/
def missing (s : RuleStore) (category : Category) (ids : IdSet) : IdSet :=
  ids.sdiff (s.knownResources category ids.toList)

/-- What is reported of a category and the ids that are asked for. -/
def fault? (s : RuleStore) (request : Category × IdSet) : Option Failure :=
  if (s.missing request.1 request.2).isEmpty then none
  else some (.missing (.resource request.1) (s.missing request.1 request.2).toList)

/-- What is missing of a category are the ids that the filters name and the store lacks. -/
theorem mem_missing_resourcesOf {category : Category} {id : Id} :
    id ∈ s.missing category (resourcesOf category filters) ↔ s.Lacks filters category id := by
  have hknown (ids : IdSet) :
      id ∈ s.missing category ids ↔ id ∈ ids ∧ (category, id) ∉ s.resources := by
    simp only [missing, IdSet.mem_sdiff, knownResources, List.mem_filter, List.contains_iff_mem,
      ← IdSet.mem_def]
    exact and_congr_right fun hid => not_congr (and_iff_right hid)
  rw [hknown, mem_resourcesOf, Lacks]
  constructor
  · rintro ⟨⟨f, hf, level, hl, hc, hid⟩, hnot⟩
    exact ⟨f, hf, level, hl, hc, hid, hnot⟩
  · rintro ⟨f, hf, level, hl, hc, hid, hnot⟩
    exact ⟨⟨f, hf, level, hl, hc, hid⟩, hnot⟩

/-- A category that the filters name is reported exactly if it lacks something. -/
theorem fault?_eq_none_iff {category : Category} :
    s.fault? (category, resourcesOf category filters) = none ↔
      ∀ id, ¬ s.Lacks filters category id := by
  simp only [fault?, ← mem_missing_resourcesOf, ← IdSet.isEmpty_iff]
  split <;> simp_all

/-- Nothing is reported exactly if every level names resources of its category. -/
theorem findSome?_fault?_eq_none_iff :
    (requestedResources filters).findSome? s.fault? = none ↔ s.HasResources filters := by
  rw [List.findSome?_eq_none_iff]
  constructor
  · intro h f hf level hl id hid
    -- the category of this level was asked about, and with it this id
    have hasked : (level.1, resourcesOf level.1 filters) ∈ requestedResources filters :=
      mem_requestedResources.2 ⟨⟨f, hf, level, hl, rfl⟩, rfl⟩
    by_contra hnot
    exact fault?_eq_none_iff.1 (h _ hasked) id ⟨f, hf, level, hl, rfl, hid, hnot⟩
  · rintro h ⟨category, ids⟩ hasked
    obtain ⟨_, rfl⟩ := mem_requestedResources.1 hasked
    refine fault?_eq_none_iff.2 fun id ⟨f, hf, level, hl, hc, hid, hnot⟩ => ?_
    exact hnot (hc ▸ h f hf level hl id hid)

/-- What is reported is the first category that lacks something, with all that it lacks. -/
theorem least_of_findSome?_fault?
    (h : (requestedResources filters).findSome? s.fault? = some failure) :
    ∃ category ids, failure = .missing (.resource category) ids ∧
      (∃ id, s.Lacks filters category id) ∧
      (∀ other, (∃ id, s.Lacks filters other id) → category.rank ≤ other.rank) ∧
      ids.Pairwise (· < ·) ∧ ∀ id, id ∈ ids ↔ s.Lacks filters category id := by
  obtain ⟨before, ⟨category, asked⟩, after, hsplit, hfault, hbefore⟩ :=
    List.findSome?_eq_some_iff.1 h
  have hmem : (category, asked) ∈ requestedResources filters := by simp [hsplit]
  obtain ⟨_, rfl⟩ := mem_requestedResources.1 hmem
  have hlacks : ∃ id, s.Lacks filters category id := by
    by_contra hnone
    rw [fault?_eq_none_iff.2 (not_exists.1 hnone)] at hfault
    cases hfault
  let ids := s.missing category (resourcesOf category filters)
  refine ⟨category, ids.toList, ?_, hlacks, fun other hother => ?_, ids.ascending,
    fun id => mem_missing_resourcesOf⟩
  · -- a fault is only reported where something is left over
    unfold fault? at hfault
    split at hfault
    · cases hfault
    · exact (Option.some.inj hfault).symm
  · -- the other category is asked about as well: not before this one, since something is missing
    obtain ⟨id, hid⟩ := hother
    have ⟨f, hf, level, hl, hc, _⟩ := hid
    have hasked : (other, resourcesOf other filters) ∈ requestedResources filters :=
      mem_requestedResources.2 ⟨⟨f, hf, level, hl, hc⟩, rfl⟩
    have hordered := @pairwise_requestedResources filters
    rw [hsplit] at hasked hordered
    obtain hin | hin := List.mem_append.1 hasked
    · exact absurd hid (fault?_eq_none_iff.1 (hbefore _ hin) id)
    · obtain heq | hin := List.mem_cons.1 hin
      · cases heq
        exact Nat.le_refl _
      · exact Nat.le_of_lt (List.rel_of_pairwise_cons (List.pairwise_append.1 hordered).2.1 hin)

end RuleStore

/-! ## The check -/

/-- The wording for resources that are missing. -/
theorem Failure.text_missing_resource (category : Category) (ids : List Id) :
    (missing (.resource category) ids).text =
      "The following " ++ category.tag ++ " resources do not exist: " ++ Id.joined ids := by
  have hplural : " resources" ++ " do not exist: " = " resources do not exist: " := rfl
  show "The following " ++ (category.tag ++ " resources") ++ " do not exist: " ++ _ = _
  simp only [← hplural, String.append_assoc]

/-- The check of filters reports the first category with something missing, and changes nothing. -/
theorem run_requireResources (filters : List Filter) (w : World) :
    (World.collaborators.requireResources filters).run.run w =
      (((requestedResources filters).findSome? w.store.fault?).elim (.ok ()) .error, w) := by
  refine run_forM_of_fault fun (category, ids) => ?_
  apply (run_bind_ok (x := w.store.knownResources category ids.toList) rfl).trans
  unfold Collaborators.requireKnown RuleStore.fault? RuleStore.missing
  split <;> rfl

end AccessScope
