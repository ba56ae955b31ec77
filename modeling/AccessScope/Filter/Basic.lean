import AccessScope.Filter.Check

/-!
# Filters

A filter is a chain that is lawful, so no filter with a fault can be written down. It is built level
by level on top of a filter that is already there, or from a client's draft as a whole.

* `Filter.build_eq_ok_iff`  when building succeeds, and with what
* `Filter.ofDraft_eq_ok_iff`  a draft becomes a filter exactly if it passes its check, and then the
  filter's chain is the settled draft
-/

namespace AccessScope

/-- A filter: a lawful chain of levels. -/
structure Filter where
  chain : Chain IdSet
  lawful : chain.Lawful
deriving DecidableEq

namespace Filter

theorem ext {f g : Filter} (h : f.chain = g.chain) : f = g := by
  cases f
  cases g
  cases h
  rfl

/-- The category of the root level. -/
def category (f : Filter) : Category := f.chain.category

/-- The resources of the root level. -/
def resources (f : Filter) : IdSet := f.chain.resources

/-- The filter below the root level. -/
def child? (f : Filter) : Option Filter :=
  match h : f.chain.child? with
  | none => none
  | some child => some ⟨child, f.lawful.child h⟩

/-- The levels from the root to the leaf. -/
def levels (f : Filter) : List (Category × IdSet) := f.chain.levels

/-- The number of levels. -/
def depth (f : Filter) : Nat := f.chain.depth

/-- The filter as a client would write it, with the ids of each level in ascending order. -/
def toDraft (f : Filter) : Draft := f.chain.map IdSet.toList

/-- Builds a level on top of a filter. The level itself is checked first, then whether it admits
the filter below. -/
def build (category : Category) (ids : IdSet) (child : Option Filter) :
    Except FilterFault Filter :=
  match h : checkLevel none category ids with
  | .error fault => .error fault
  | .ok () =>
    match child with
    | none => .ok ⟨.leaf category ids, (checkLevel_eq_ok_iff.1 h).2⟩
    | some below =>
      -- the filter below is lawful already, so only the step between the two is left to check
      if ha : category.admits below.category then
        .ok ⟨.narrowed category ids below.chain, (checkLevel_eq_ok_iff.1 h).2, ha, below.lawful⟩
      else .error (.incompatible category below.category)

/-- The same root level on top of another filter, or of none. -/
def withChild (f : Filter) (child : Option Filter) : Except FilterFault Filter :=
  build f.category f.resources child

/-- Have the two filters the same root level? -/
def sameRoot (f g : Filter) : Bool :=
  f.category == g.category && f.resources == g.resources

/-- Builds the levels of a draft from the leaf to the root. -/
def assemble : Draft → Except FilterFault Filter
  | .leaf c ids => build c (.ofList ids) none
  | .narrowed c ids child => do
    let below ← assemble child
    build c (.ofList ids) (some below)

/-- The filter that a draft describes. The draft is checked from the root to the leaf first, so
that the fault nearest to the root is the one reported. -/
def ofDraft (draft : Draft) : Except FilterFault Filter := do
  draft.check
  assemble draft

/-- A level is built exactly if it is lawful and admits what is below, and the result is that
chain. -/
theorem build_eq_ok_iff {c : Category} {ids : IdSet} {child : Option Filter} {f : Filter} :
    build c ids child = .ok f ↔
      LawfulLevel c ids ∧ (∀ below ∈ child, c.admits below.category) ∧
        f.chain = .ofRoot c ids (child.map (·.chain)) := by
  unfold build
  split
  · next fault h =>
    refine ⟨nofun, fun hl => ?_⟩
    rw [checkLevel_eq_ok_iff.2 ⟨by simp, hl.1⟩] at h
    cases h
  · next h =>
    have hl := (checkLevel_eq_ok_iff.1 h).2
    cases child with
    | none =>
      simp only [Except.ok.injEq]
      constructor
      · rintro rfl
        exact ⟨hl, by simp, rfl⟩
      · exact fun h => (ext h.2.2).symm
    | some below =>
      dsimp only
      split
      · next ha =>
        simp only [Except.ok.injEq]
        constructor
        · rintro rfl
          exact ⟨hl, by simpa using ha, rfl⟩
        · exact fun h => (ext h.2.2).symm
      · next ha =>
        refine ⟨nofun, fun h => ?_⟩
        exact absurd (h.2.1 below rfl) ha

/-- Building from the leaf to the root succeeds exactly on the drafts that settle to a lawful
chain. -/
theorem assemble_eq_ok_iff {draft : Draft} {f : Filter} :
    assemble draft = .ok f ↔ f.chain = draft.settled := by
  induction draft generalizing f with
  | leaf c ids =>
    rw [assemble, build_eq_ok_iff]
    constructor
    · exact fun h => h.2.2
    · intro h
      refine ⟨?_, by simp, h⟩
      have := f.lawful
      rw [h] at this
      exact this
  | narrowed c ids child ih =>
    rw [assemble]
    constructor
    · intro h
      cases hb : assemble child with
      | error e => simp [hb, bind, Except.bind] at h
      | ok below =>
        rw [hb] at h
        have hbuild : build c (.ofList ids) (some below) = .ok f := h
        have := (build_eq_ok_iff.1 hbuild).2.2
        rw [this, Draft.settled, Chain.map]
        rw [ih] at hb
        simp [hb, Chain.ofRoot, Draft.settled]
    · intro h
      have hl := f.lawful
      rw [h] at hl
      have hb : assemble child = .ok ⟨Draft.settled child, hl.2.2⟩ := ih.2 rfl
      rw [hb]
      have hbuild : build c (.ofList ids) (some ⟨Draft.settled child, hl.2.2⟩) = .ok f := by
        refine build_eq_ok_iff.2 ⟨hl.1, ?_, h⟩
        rintro below ⟨⟩
        exact hl.2.1
      exact hbuild

/-- A draft becomes a filter exactly if it settles to that filter's chain. -/
theorem ofDraft_eq_ok_iff {draft : Draft} {f : Filter} :
    ofDraft draft = .ok f ↔ f.chain = draft.settled := by
  rw [ofDraft]
  constructor
  · intro h
    cases hc : draft.check with
    | error e => simp [hc, bind, Except.bind] at h
    | ok u =>
      rw [hc] at h
      exact assemble_eq_ok_iff.1 h
  · intro h
    have hc : draft.check = .ok () := Draft.check_eq_ok_iff.2 (h ▸ f.lawful)
    rw [hc]
    exact assemble_eq_ok_iff.2 h

end Filter

end AccessScope
