import AccessScope.Filter.Basic

/-!
# Filters and drafts

A filter is written as a draft without loss: the draft passes its check and makes the filter again.
The other way round, what a draft makes is the draft with its ids put in order, and nothing else of
it is changed. So the filters are exactly what drafts make, by whatever steps they were built; a
step that puts another filter below a root level can only fail because the two do not fit together.

## Key results

- `Filter.ofDraft_toDraft`: the draft of a filter makes the filter
- `Filter.toDraft_of_ofDraft`: a filter that a draft makes is written as that draft, in order
- `Filter.withChild_eq_ok_iff`, `Filter.withChild_eq_error_iff`: what can be put below a root level
- `Filter.drafts_round_trip`: these together, and what they say of putting filters below others
-/

namespace AccessScope

namespace Filter

/-! ## Writing a filter as a draft -/

/-- Settling the draft of a filter gives the chain of the filter. -/
theorem settled_toDraft (f : Filter) : f.toDraft.settled = f.chain := by
  have hsame : IdSet.ofList ∘ IdSet.toList = id := funext IdSet.ofList_toList
  rw [toDraft, Draft.settled, Chain.map_map, hsame, Chain.map_id]

/-- The draft of a filter passes, since it settles to the chain of the filter. -/
theorem check_toDraft (f : Filter) : f.toDraft.check = .ok () := by
  rw [Draft.check_eq_ok_iff, settled_toDraft]
  exact f.lawful

theorem ofDraft_toDraft (f : Filter) : ofDraft f.toDraft = .ok f :=
  ofDraft_eq_ok_iff.2 f.settled_toDraft.symm

/-- A filter that a draft makes is written as that draft with the ids of each level in order. -/
theorem toDraft_of_ofDraft {draft : Draft} {f : Filter} (h : ofDraft draft = .ok f) :
    f.toDraft = draft.map fun ids => (IdSet.ofList ids).toList := by
  rw [toDraft, ofDraft_eq_ok_iff.1 h, Draft.settled, Chain.map_map]
  rfl

/-! ## Putting another filter below -/

/-- A level is not built if it has a fault itself, or else if it does not admit what is below. -/
theorem build_eq_error_iff {category : Category} {ids : IdSet} {child : Option Filter}
    {fault : FilterFault} :
    build category ids child = .error fault ↔
      checkLevel none category ids = .error fault ∨
        checkLevel none category ids = .ok () ∧
          ∃ below ∈ child, category.admits below.category = false ∧
            fault = .incompatible category below.category := by
  unfold build
  split
  · next h => simp [h]
  · next h =>
    have hlevel : checkLevel none category ids = .ok () := h
    cases child with
    | none => simp [hlevel]
    | some below =>
      cases hadmits : category.admits below.category with
      | true => simp [hlevel, hadmits]
      | false => simpa [hlevel, hadmits] using eq_comm

/-- A filter can be put below a root level exactly if the level admits it; the level itself was
    checked when it was built. -/
theorem withChild_eq_ok_iff {f g : Filter} {child : Option Filter} :
    f.withChild child = .ok g ↔
      (∀ below ∈ child, f.category.admits below.category) ∧
        g.chain = .ofRoot f.category f.resources (child.map (·.chain)) := by
  rw [withChild, build_eq_ok_iff]
  exact and_iff_right f.lawful.level

/-- It cannot be put there for one reason only. -/
theorem withChild_eq_error_iff {f : Filter} {child : Option Filter} {fault : FilterFault} :
    f.withChild child = .error fault ↔
      ∃ below ∈ child, f.category.admits below.category = false ∧
        fault = .incompatible f.category below.category := by
  -- the root level of a filter has no fault
  have hlevel : checkLevel none f.category f.resources = .ok () :=
    checkLevel_eq_ok_iff.2 ⟨by simp, f.lawful.level⟩
  rw [withChild, build_eq_error_iff, hlevel]
  simp

/-- A filter with what is below it put there again is the same filter. -/
theorem withChild_child? (f : Filter) : f.withChild f.child? = .ok f := by
  have hchain : f.child?.map (·.chain) = f.chain.child? := by
    unfold child?
    split
    · next h => simp [h]
    · next h => simp [h]
  -- that the levels fit was checked when the filter was built
  refine withChild_eq_ok_iff.2 ⟨fun below hbelow => ?_, ?_⟩
  · have hbelow' : f.chain.child? = some below.chain := by
      rw [← hchain, hbelow]
      rfl
    exact f.lawful.admits hbelow'
  · rw [hchain]
    exact (Chain.ofRoot_child? f.chain).symm

/-- What was put below a root level before does not matter. -/
theorem withChild_withChild {f g : Filter} {a : Option Filter} (h : f.withChild a = .ok g)
    (b : Option Filter) : g.withChild b = f.withChild b := by
  obtain ⟨_, hchain⟩ := withChild_eq_ok_iff.1 h
  have hcategory : g.category = f.category := by
    rw [category, hchain, Chain.category_ofRoot]
  have hresources : g.resources = f.resources := by
    rw [resources, hchain, Chain.resources_ofRoot]
  rw [withChild, withChild, hcategory, hresources]

/-! ## Both ways -/

/-- Every filter, however it was built, is written as a draft that passes and makes it again. A
    draft that makes a filter is changed by this in one respect only: the ids of each level come in
    ascending order and without repetition. Putting what is below a filter there again changes
    nothing, what is put below twice is what is put there last, and what is refused does not fit. -/
theorem drafts_round_trip :
    (∀ f : Filter, f.toDraft.check = .ok () ∧ ofDraft f.toDraft = .ok f) ∧
    (∀ draft f, ofDraft draft = .ok f →
      f.toDraft = draft.map fun ids => (IdSet.ofList ids).toList) ∧
    (∀ ids : List Id, (IdSet.ofList ids).toList.Pairwise (· < ·) ∧
      ∀ id, id ∈ (IdSet.ofList ids).toList ↔ id ∈ ids) ∧
    (∀ f : Filter, f.withChild f.child? = .ok f) ∧
    (∀ (f g : Filter) (a b : Option Filter), f.withChild a = .ok g →
      g.withChild b = f.withChild b) ∧
    ∀ (f : Filter) (child : Option Filter) (fault : FilterFault),
      f.withChild child = .error fault →
        ∃ below ∈ child, fault = .incompatible f.category below.category := by
  refine ⟨fun f => ⟨f.check_toDraft, f.ofDraft_toDraft⟩, fun draft f => toDraft_of_ofDraft,
    fun ids => ⟨(IdSet.ofList ids).ascending, fun id => IdSet.mem_ofList⟩, withChild_child?,
    fun f g a b h => withChild_withChild h b, fun f child fault h => ?_⟩
  obtain ⟨below, hbelow, _, hfault⟩ := withChild_eq_error_iff.1 h
  exact ⟨below, hbelow, hfault⟩

/-- A draft with repeated ids makes a filter that is written in order. With its lower levels taken
    away and put back it is the same filter. -/
theorem drafts_round_trip_unordered :
    let draft : Draft :=
      .narrowed .hostGroup [12, 11, 12] (.narrowed .host [120, 110] (.leaf .service [5]))
    ∃ f bare, ofDraft draft = .ok f ∧ f.withChild none = .ok bare ∧
      f.toDraft = .narrowed .hostGroup [11, 12] (.narrowed .host [110, 120] (.leaf .service [5])) ∧
        bare.withChild f.child? = .ok f := by
  intro draft
  obtain ⟨f, hf⟩ : ∃ f, ofDraft draft = .ok f := ⟨_, rfl⟩
  obtain ⟨_, hordered, _, hsame, hlast, hrefused⟩ := drafts_round_trip
  have htoDraft := hordered draft f hf
  cases hnone : f.withChild none with
  | error fault =>
    obtain ⟨below, hbelow, _⟩ := hrefused f none fault hnone
    cases hbelow
  | ok bare =>
    exact ⟨f, bare, hf, hnone, htoDraft.trans (by decide),
      (hlast f bare none f.child? hnone).trans (hsame f)⟩

end Filter

end AccessScope
