import AccessScope.Proofs.FilterDrafts
import AccessScope.Proofs.Requests

/-!
# Ways to build a filter

A draft is checked from the root to the leaf, each level against the one above it. Only then are its
levels built, from the leaf to the root, and there every level is checked once more: by itself, and
against the category of what is already built below it. The two passes make their checks in a
different order. This file shows that it is the first pass that decides, on success as on which of
several faults is reported, and that a single level on top of a filter is built just like the draft
with that level at its root.

## Key results

- `Chain.Lawful.check_of_not_admits`: the fault of a chain that stands in the wrong place
- `Filter.stack_levels_reverse`: building one level after the other never ends without a filter
- `Filter.ofDraft_eq_error_iff`: what is wrong with a draft is what its check reports
- `Filter.build_eq_ofDraft`: building a level is building the draft with that level at its root
- `Filter.ofDraft_follows_check`: these together, and which filter a draft makes
-/

namespace AccessScope

/-! ## Faults of chains -/

/-- A level below a category that does not admit it fails for that, once it names resources. -/
theorem checkLevel_of_not_admits {parent category : Category} {ids : IdSet}
    (hids : ids.isEmpty = false) (hnot : parent.admits category = false) :
    checkLevel (some parent) category ids = .error (.incompatible parent category) := by
  have hfilter : (some parent).filter (!·.admits category) = some parent := by simp [hnot]
  rw [checkLevel, hids, hfilter]
  rfl

namespace Chain

/-- The levels further down are only looked at if the root level passes. -/
theorem check_narrowed_eq_error_iff {parent : Option Category} {c : Category} {ids : IdSet}
    {child : Chain IdSet} {fault : FilterFault} :
    (narrowed c ids child).check parent = .error fault ↔
      checkLevel parent c ids = .error fault ∨
        checkLevel parent c ids = .ok () ∧ child.check (some c) = .error fault := by
  rw [check, bind_eq_error_iff]
  constructor
  · rintro (h | ⟨_, hlevel, h⟩)
    · exact .inl h
    · exact .inr ⟨hlevel, h⟩
  · rintro (h | ⟨hlevel, h⟩)
    · exact .inl h
    · exact .inr ⟨(), hlevel, h⟩

/-- With a lawful chain nothing can be wrong but the place of its root. -/
theorem Lawful.check_of_not_admits {parent : Category} {chain : Chain IdSet} (h : chain.Lawful)
    (hnot : parent.admits chain.category = false) :
    chain.check (some parent) = .error (.incompatible parent chain.category) := by
  have hroot := checkLevel_of_not_admits h.level.nonempty hnot
  cases chain with
  | leaf c ids => exact hroot
  | narrowed c ids child => exact check_narrowed_eq_error_iff.2 (.inl hroot)

end Chain

namespace Filter

/-! ## Level after level -/

/-- Builds levels on top of a filter, or of nothing, the lowest level first. -/
def stack (below : Option Filter) (levels : List (Category × List Id)) :
    Except FilterFault (Option Filter) :=
  levels.foldlM (fun below level => some <$> build level.1 (.ofList level.2) below) below

/-- The levels of a draft, built one after the other, are what the draft assembles to; there is
    always a filter at the end. -/
theorem stack_levels_reverse (draft : Draft) :
    stack none draft.levels.reverse = some <$> assemble draft := by
  induction draft with
  | leaf c ids => simp [stack, Chain.levels, assemble]
  | narrowed c ids child ih =>
    have hlast (below : Option Filter) :
        stack below [(c, ids)] = some <$> build c (.ofList ids) below := by
      simp [stack]
    -- the root level comes last, on top of what the others were built to
    calc stack none (Chain.narrowed c ids child).levels.reverse
      _ = stack none child.levels.reverse >>= fun below => stack below [(c, ids)] := by
          simp [stack, Chain.levels, List.foldlM_append]
      _ = some <$> assemble (.narrowed c ids child) := by
          simp [ih, hlast, assemble, map_bind]

/-! ## The check decides -/

/-- After the check nothing is refused any more. -/
theorem assemble_of_check {draft : Draft} (h : draft.check = .ok ()) :
    ∃ f, assemble draft = .ok f :=
  ⟨⟨draft.settled, Draft.check_eq_ok_iff.1 h⟩, assemble_eq_ok_iff.2 rfl⟩

/-- What is wrong with a draft is what its check reports. -/
theorem ofDraft_eq_error_iff {draft : Draft} {fault : FilterFault} :
    ofDraft draft = .error fault ↔ draft.check = .error fault := by
  rw [ofDraft, bind_eq_error_iff]
  constructor
  · rintro (hcheck | ⟨_, hcheck, hfault⟩)
    · exact hcheck
    · -- a fault of the second pass would be one that the first pass has let through
      obtain ⟨f, hf⟩ := assemble_of_check hcheck
      cases hf.symm.trans hfault
  · exact .inl

/-- A draft that passes is built level after level, and to the same filter. -/
theorem stack_of_check {draft : Draft} (h : draft.check = .ok ()) :
    ∃ f, stack none draft.levels.reverse = .ok (some f) ∧ ofDraft draft = .ok f := by
  obtain ⟨f, hf⟩ := assemble_of_check h
  refine ⟨f, ?_, ofDraft_eq_ok_iff.2 (assemble_eq_ok_iff.1 hf)⟩
  rw [stack_levels_reverse, hf]
  rfl

/-- The levels of a filter are those of its draft, with the ids of each level as a set. -/
theorem levels_of_ofDraft {draft : Draft} {f : Filter} (h : ofDraft draft = .ok f) :
    f.levels = draft.levels.map fun level => (level.1, IdSet.ofList level.2) := by
  rw [levels, ofDraft_eq_ok_iff.1 h, Draft.settled, Chain.levels_map]

theorem depth_of_ofDraft {draft : Draft} {f : Filter} (h : ofDraft draft = .ok f) :
    f.depth = draft.depth := by
  have hlength := congrArg List.length (levels_of_ofDraft h)
  rwa [List.length_map] at hlength

/-! ## One level on top of a filter -/

/-- Building a level on top of a filter is building the draft with that level at its root: what is
    below is lawful, so only the level itself and the step below it can be at fault, and both ways
    look at the level first. -/
theorem build_eq_ofDraft (category : Category) (ids : List Id) (child : Option Filter) :
    build category (.ofList ids) child = ofDraft (.ofRoot category ids (child.map toDraft)) := by
  have hsettled : Draft.settled (.ofRoot category ids (child.map toDraft)) =
      .ofRoot category (.ofList ids) (child.map (·.chain)) := by
    cases child with
    | none => rfl
    | some below => exact congrArg (Chain.narrowed category _) below.settled_toDraft
  cases hbuild : build category (.ofList ids) child with
  | ok f =>
    -- a filter is its chain, and both ways make the same one
    obtain ⟨_, _, hchain⟩ := build_eq_ok_iff.1 hbuild
    exact (ofDraft_eq_ok_iff.2 (hchain.trans hsettled.symm)).symm
  | error fault =>
    refine (ofDraft_eq_error_iff.2 ?_).symm
    rw [Draft.check, hsettled]
    -- the fault of the level itself comes first in both; then the step below it, which the check
    -- finds at the root of what is below
    obtain hlevel | ⟨hlevel, below, hbelow, hnot, rfl⟩ := build_eq_error_iff.1 hbuild
    · cases child with
      | none => exact hlevel
      | some below => exact Chain.check_narrowed_eq_error_iff.2 (.inl hlevel)
    · cases hbelow
      have hplace := below.lawful.check_of_not_admits hnot
      exact Chain.check_narrowed_eq_error_iff.2 (.inr ⟨hlevel, hplace⟩)

/-! ## Both ways -/

/-- Both ways to build filters agree, for every draft and for every level on top of a filter. A
    draft makes a filter exactly if it passes its check, and otherwise is refused for the fault that
    the check reports; after the check, building its levels from the leaf to the root ends with the
    filter. Its levels are those of the draft in the same order, each with the ids as a set. A level
    that is built on top of a filter, or of none, ends as the draft with this level at its root and
    the filter's draft below it: with the same filter or the same fault. -/
theorem ofDraft_follows_check :
    (∀ draft : Draft, ((∃ f, ofDraft draft = .ok f) ↔ draft.check = .ok ()) ∧
      (∀ fault, ofDraft draft = .error fault ↔ draft.check = .error fault) ∧
      (draft.check = .ok () →
        ∃ f, stack none draft.levels.reverse = .ok (some f) ∧ ofDraft draft = .ok f)) ∧
    (∀ (draft : Draft) (f : Filter), ofDraft draft = .ok f →
      f.levels = draft.levels.map (fun level => (level.1, IdSet.ofList level.2)) ∧
        f.depth = draft.depth) ∧
    (∀ (ids : List Id) (id : Id), id ∈ IdSet.ofList ids ↔ id ∈ ids) ∧
    ∀ (category : Category) (ids : List Id) (child : Option Filter),
      build category (.ofList ids) child = ofDraft (.ofRoot category ids (child.map toDraft)) := by
  have hchecked (draft : Draft) (f : Filter) (h : ofDraft draft = .ok f) :=
    And.intro (levels_of_ofDraft h) (depth_of_ofDraft h)
  exact ⟨fun draft => ⟨exists_ofDraft_iff, fun fault => ofDraft_eq_error_iff, stack_of_check⟩,
    hchecked, fun ids id => IdSet.mem_ofList, build_eq_ofDraft⟩

/-- Of three levels with ids in any order the filter has the sets. On top of it no other level of
    hosts can be built, whichever way is taken. -/
theorem ofDraft_follows_check_three_levels :
    let draft : Draft :=
      .narrowed .hostGroup [12, 11, 12] (.narrowed .host [120, 110] (.leaf .service [5]))
    ∃ f, draft.check = .ok () ∧ stack none draft.levels.reverse = .ok (some f) ∧
      ofDraft draft = .ok f ∧ f.depth = 3 ∧
        f.levels.map (fun level => (level.1, level.2.toList)) =
          [(.hostGroup, [11, 12]), (.host, [110, 120]), (.service, [5])] ∧
        ofDraft (.narrowed .host [0] f.toDraft) = .error (.invalidResource .host 0) ∧
          ofDraft (.narrowed .host [7] f.toDraft) = .error (.incompatible .host .hostGroup) := by
  intro draft
  obtain ⟨hdrafts, hlevels, _, hbuild⟩ := ofDraft_follows_check
  have hcheck : draft.check = .ok () := by rfl
  obtain ⟨f, hstack, hf⟩ := (hdrafts draft).2.2 hcheck
  obtain ⟨hflevels, hdepth⟩ := hlevels draft f hf
  have hsame : f = ⟨draft.settled, Draft.check_eq_ok_iff.1 hcheck⟩ := ext (ofDraft_eq_ok_iff.1 hf)
  refine ⟨f, hcheck, hstack, hf, hdepth, ?_, ?_, ?_⟩
  · rw [hflevels]
    decide
  · exact (hbuild .host [0] (some f)).symm.trans (hsame ▸ rfl)
  · exact (hbuild .host [7] (some f)).symm.trans (hsame ▸ rfl)

end Filter

end AccessScope
