import AccessScope.Proofs.FilterConstruction
import AccessScope.Proofs.TermFaults
import Mathlib.Data.List.Forall2

/-!
# Faults of drafts

A draft can be wrong at many levels and in several ways at one of them, and its check tells one
fault. This file says which, without following the check: it is a fault of the first level from the
root that has any defect, and of the defects of that level the one whose condition comes first. So
nothing that stands below that level matters, nor the order in which ids are listed, nor how often.

## Key results

- `LevelDefect.checkLevel_eq_ok_iff_none`, `LevelDefect.checkLevel_of_first`: what the check of a
  level tells
- `Draft.check_eq_error_iff_checkAt`: the check of a draft ends at the first level that fails
- `Draft.check_eq_error_iff_firstDefect`: a draft is refused exactly for its first defect
- `Draft.check_congr`, `Draft.checkAt_congr`: what the check does not depend on
- `Draft.check_tells_first_defect`: these together
-/

namespace AccessScope

/-! ## Defects of a level -/

/-- What can be wrong with a level of a draft. A level can have several defects at once. -/
inductive LevelDefect where
  /-- The level lists no ids. -/
  | nothingListed
  /-- The category above, which is this one, may not be narrowed by that of the level. -/
  | misplaced (parent : Category)
  /-- The category is not chosen yet. -/
  | notChosen
  /-- The level lists ids that are not positive, and this is the smallest of them. -/
  | notPositive (id : Id)

namespace LevelDefect

/-- The place of a defect's condition in the order in which a level is checked. -/
def rank : LevelDefect → Nat
  | nothingListed => 0
  | misplaced _ => 1
  | notChosen => 2
  | notPositive _ => 3

/-- What is told of a defect of a level with the category `c`. -/
def fault (c : Category) : LevelDefect → FilterFault
  | nothingListed => .noResources c
  | misplaced parent => .incompatible parent c
  | notChosen => .noResources .unchosen
  | notPositive id => .invalidResource c id

/-- A level that stands below the category `parent`, if there is one, has this defect. -/
def InLevel (parent : Option Category) (level : Category × List Id) : LevelDefect → Prop
  | nothingListed => level.2 = []
  | misplaced p => parent = some p ∧ ¬ p.admits level.1
  | notChosen => level.1 = .unchosen
  | notPositive id => IsLeast {a | a ∈ level.2 ∧ a ≤ 0} id

variable {parent : Option Category} {level : Category × List Id} {defect : LevelDefect}

/-- The smallest id that is not positive is found in a list as in the set of its members. -/
theorem firstInvalid?_ofList_eq_some_iff {ids : List Id} {id : Id} :
    (IdSet.ofList ids).firstInvalid? = some id ↔ IsLeast {a | a ∈ ids ∧ a ≤ 0} id := by
  simp only [IdSet.firstInvalid?_eq_some_iff, IdSet.mem_ofList]

/-- A level without defects lists ids, all of them positive, and has a chosen category that may
    stand where it does. -/
theorem forall_not_inLevel_iff :
    (∀ defect : LevelDefect, ¬ defect.InLevel parent level) ↔
      level.2 ≠ [] ∧ (∀ p ∈ parent, p.admits level.1) ∧ level.1 ≠ .unchosen ∧
        ∀ id ∈ level.2, 0 < id := by
  -- there is no smallest id that is not positive exactly if there is no such id at all
  have hpositive : (∀ id, ¬ (notPositive id).InLevel parent level) ↔ ∀ id ∈ level.2, 0 < id := by
    have hnone := @IdSet.firstInvalid?_eq_none (.ofList level.2)
    rw [Option.eq_none_iff_forall_ne_some] at hnone
    simpa [InLevel, firstInvalid?_ofList_eq_some_iff] using hnone
  rw [← hpositive]
  constructor
  · intro h
    refine ⟨h nothingListed, fun p hp => ?_, h notChosen, fun id => h (notPositive id)⟩
    by_contra hnot
    exact h (misplaced p) ⟨hp, hnot⟩
  · intro ⟨hlisted, hadmits, hchosen, hid⟩ defect
    cases defect with
    | nothingListed => exact hlisted
    | misplaced p => exact fun h => h.2 (hadmits p h.1)
    | notChosen => exact hchosen
    | notPositive id => exact hid id

/-- A level passes exactly if it has no defects. -/
theorem checkLevel_eq_ok_iff_none :
    checkLevel parent level.1 (.ofList level.2) = .ok () ↔
      ∀ defect : LevelDefect, ¬ defect.InLevel parent level := by
  rw [checkLevel_eq_ok_iff, forall_not_inLevel_iff]
  constructor
  · intro ⟨hadmits, hnonempty, hchosen, hpositive⟩
    refine ⟨?_, hadmits, hchosen, fun id hid => hpositive id (IdSet.mem_ofList.2 hid)⟩
    simpa using hnonempty
  · intro ⟨hlisted, hadmits, hchosen, hpositive⟩
    refine ⟨hadmits, ?_, hchosen, fun id hid => hpositive id (IdSet.mem_ofList.1 hid)⟩
    simpa using hlisted

/-- Of the defects of a level the one whose condition comes first is told. -/
theorem checkLevel_of_first (h : defect.InLevel parent level)
    (hfirst : ∀ other : LevelDefect, other.InLevel parent level → defect.rank ≤ other.rank) :
    checkLevel parent level.1 (.ofList level.2) = .error (defect.fault level.1) := by
  obtain ⟨c, ids⟩ := level
  -- the conditions in front of the one that is told do not hold
  have hnot (other : LevelDefect) (hrank : other.rank < defect.rank) :
      ¬ other.InLevel parent (c, ids) := fun hother =>
    Nat.not_le.2 hrank (hfirst other hother)
  have hlisted (hrank : 0 < defect.rank) : (IdSet.ofList ids).isEmpty = false := by
    simpa [InLevel] using hnot nothingListed hrank
  have hplace (hrank : 1 < defect.rank) : parent.filter (!·.admits c) = none := by
    refine Option.filter_eq_none_iff.2 fun p hp => ?_
    simpa [InLevel, hp] using hnot (misplaced p) hrank
  cases defect with
  | nothingListed =>
    have hempty : ids = [] := h
    rw [hempty]
    rfl
  | misplaced p =>
    obtain ⟨rfl, hadmits⟩ := h
    exact checkLevel_of_not_admits (hlisted (by simp [rank])) (by simpa using hadmits)
  | notChosen =>
    have hc : c = .unchosen := h
    rw [checkLevel, hlisted (by simp [rank]), hplace (by simp [rank]), hc]
    rfl
  | notPositive id =>
    have hchosen : c ≠ .unchosen := hnot notChosen (by simp [rank])
    rw [checkLevel, hlisted (by simp [rank]), hplace (by simp [rank]), if_neg hchosen,
      firstInvalid?_ofList_eq_some_iff.2 h]
    rfl

end LevelDefect

/-! ## Levels of a draft -/

namespace Chain

variable {ρ : Type}

/-- The category above the level at place `k` of a chain that stands below `parent`. -/
def parentAt (parent : Option Category) (chain : Chain ρ) : Nat → Option Category
  | 0 => parent
  | k + 1 => chain.levels[k]?.map (·.1)

/-- Behind the root level, a chain is what is below that level. -/
theorem parentAt_narrowed_succ (parent : Option Category) (c : Category) (resources : ρ)
    (child : Chain ρ) (k : Nat) :
    (narrowed c resources child).parentAt parent (k + 1) = child.parentAt (some c) k := by
  cases k <;> rfl

/-- A chain is determined by its levels. -/
theorem ext_levels {chain other : Chain ρ} (h : chain.levels = other.levels) : chain = other := by
  induction chain generalizing other with
  | leaf c r =>
    cases other with
    | leaf d s => simpa [levels] using h
    | narrowed d s rest => cases rest <;> simp [levels] at h
  | narrowed c r child ih =>
    cases other with
    | leaf d s => cases child <;> simp [levels] at h
    | narrowed d s rest =>
      obtain ⟨hroot, hrest⟩ := List.cons.inj h
      cases hroot
      rw [ih hrest]

end Chain

namespace Draft

variable {parent : Option Category} {draft other : Draft} {k : Nat} {level : Category × List Id}
  {defect : LevelDefect} {fault : FilterFault}

/-- What the check of the level at place `k` tells, if there are that many levels. -/
def checkAt (parent : Option Category) (draft : Draft) (k : Nat) :
    Option (Except FilterFault Unit) :=
  draft.levels[k]?.map fun level =>
    checkLevel (draft.parentAt parent k) level.1 (.ofList level.2)

theorem checkAt_narrowed_succ (parent : Option Category) (c : Category) (ids : List Id)
    (child : Draft) (k : Nat) :
    checkAt parent (.narrowed c ids child) (k + 1) = checkAt (some c) child k := by
  rw [checkAt, Chain.parentAt_narrowed_succ]
  rfl

/-- The check of a draft ends at the first level that fails, with what is told of that level. -/
theorem check_eq_error_iff_checkAt : draft.settled.check parent = .error fault ↔
    ∃ k, draft.checkAt parent k = some (.error fault) ∧
      ∀ j < k, draft.checkAt parent j = some (.ok ()) := by
  induction draft generalizing parent with
  | leaf c ids =>
    constructor
    · intro h
      exact ⟨0, congrArg some h, fun j hj => absurd hj (Nat.not_lt_zero j)⟩
    · intro ⟨k, h, _⟩
      -- there is no level but the root
      cases k with
      | zero => exact Option.some.inj h
      | succ k => cases h
  | narrowed c ids child ih =>
    have hsettled : Draft.settled (.narrowed c ids child) =
        .narrowed c (.ofList ids) (Draft.settled child) := rfl
    rw [hsettled, Chain.check_narrowed_eq_error_iff, ih]
    constructor
    · rintro (h | ⟨hroot, k, h, habove⟩)
      · exact ⟨0, congrArg some h, fun j hj => absurd hj (Nat.not_lt_zero j)⟩
      · refine ⟨k + 1, ?_, fun j hj => ?_⟩
        · rw [checkAt_narrowed_succ, h]
        · cases j with
          | zero => exact congrArg some hroot
          | succ j => rw [checkAt_narrowed_succ, habove j (by omega)]
    · intro ⟨k, h, habove⟩
      cases k with
      | zero => exact .inl (Option.some.inj h)
      | succ k =>
        refine .inr ⟨Option.some.inj (habove 0 (by omega)), k, ?_, fun j hj => ?_⟩
        · rw [← checkAt_narrowed_succ parent c ids, h]
        · rw [← checkAt_narrowed_succ parent c ids, habove (j + 1) (by omega)]

/-! ## The first defect -/

/-- The level at place `k`, counted from the root, has this defect. -/
def HasDefect (draft : Draft) (k : Nat) (defect : LevelDefect) : Prop :=
  ∃ level, draft.levels[k]? = some level ∧ defect.InLevel (draft.parentAt none k) level

/-- No level above the one at place `k` has a defect, and of the defects of that level this one
    comes first. -/
structure FirstDefect (draft : Draft) (k : Nat) (defect : LevelDefect) : Prop where
  has : draft.HasDefect k defect
  none_above : ∀ j < k, ∀ other, ¬ draft.HasDefect j other
  first : ∀ other, draft.HasDefect k other → defect.rank ≤ other.rank

theorem hasDefect_iff (hlevel : draft.levels[k]? = some level) :
    draft.HasDefect k defect ↔ defect.InLevel (draft.parentAt none k) level := by
  simp [HasDefect, hlevel]

/-- A level of a draft passes exactly if it has no defects. -/
theorem checkAt_eq_ok_iff (hk : k < draft.levels.length) :
    draft.checkAt none k = some (.ok ()) ↔ ∀ defect, ¬ draft.HasDefect k defect := by
  have hlevel := List.getElem?_eq_getElem hk
  simp only [hasDefect_iff hlevel]
  rw [checkAt, hlevel, ← LevelDefect.checkLevel_eq_ok_iff_none]
  exact Option.some_inj

/-- At the place of the first defect the check fails, and it passes all levels above. -/
theorem FirstDefect.checkAt (h : draft.FirstDefect k defect)
    (hlevel : draft.levels[k]? = some level) :
    draft.checkAt none k = some (.error (defect.fault level.1)) ∧
      ∀ j < k, draft.checkAt none j = some (.ok ()) := by
  constructor
  · rw [Draft.checkAt, hlevel]
    refine congrArg some (LevelDefect.checkLevel_of_first ((hasDefect_iff hlevel).1 h.has) ?_)
    exact fun other hother => h.first other ((hasDefect_iff hlevel).2 hother)
  · intro j hj
    have hk := (List.getElem?_eq_some_iff.1 hlevel).1
    exact (checkAt_eq_ok_iff (hj.trans hk)).2 (h.none_above j hj)

/-- A draft that does not pass has a first defect. -/
theorem exists_firstDefect (h : draft.check = .error fault) :
    ∃ k level defect, draft.levels[k]? = some level ∧ draft.FirstDefect k defect := by
  obtain ⟨k, hfault, habove⟩ := check_eq_error_iff_checkAt.1 h
  obtain ⟨level, hlevel, _⟩ := Option.map_eq_some_iff.1 hfault
  have hk := (List.getElem?_eq_some_iff.1 hlevel).1
  have hdefects : ∃ defect, draft.HasDefect k defect := by
    by_contra hnone
    rw [(checkAt_eq_ok_iff hk).2 (not_exists.1 hnone)] at hfault
    cases hfault
  -- of all defects that the level has, one comes first
  obtain ⟨defect, hdefect, hleast⟩ := (measure LevelDefect.rank).wf.has_min
    {defect | draft.HasDefect k defect} hdefects
  refine ⟨k, level, defect, hlevel, hdefect, fun j hj => ?_, fun other hother => ?_⟩
  · exact (checkAt_eq_ok_iff (hj.trans hk)).1 (habove j hj)
  · exact Nat.le_of_not_lt (hleast other hother)

/-- A draft does not pass exactly if it has a first defect, and that one is told. -/
theorem check_eq_error_iff_firstDefect : draft.check = .error fault ↔
    ∃ k level defect, draft.levels[k]? = some level ∧ draft.FirstDefect k defect ∧
      fault = defect.fault level.1 := by
  constructor
  · intro h
    obtain ⟨k, level, defect, hlevel, hfirst⟩ := exists_firstDefect h
    have htold := check_eq_error_iff_checkAt.2 ⟨k, hfirst.checkAt hlevel⟩
    refine ⟨k, level, defect, hlevel, hfirst, ?_⟩
    exact Except.error.inj (h.symm.trans htold)
  · rintro ⟨k, level, defect, hlevel, hfirst, rfl⟩
    exact check_eq_error_iff_checkAt.2 ⟨k, hfirst.checkAt hlevel⟩

/-! ## What does not matter -/

/-- A level with its ids as a set. -/
def settledLevel (level : Category × List Id) : Category × IdSet :=
  (level.1, .ofList level.2)

/-- Two levels have the same category and list the same ids, in any order and however often. -/
def SameLevel (l m : Category × List Id) : Prop :=
  l.1 = m.1 ∧ ∀ id, id ∈ l.2 ↔ id ∈ m.2

theorem sameLevel_iff {l m : Category × List Id} :
    SameLevel l m ↔ settledLevel l = settledLevel m := by
  rw [settledLevel, settledLevel, Prod.mk.injEq]
  refine and_congr_right fun _ => ⟨fun h => IdSet.ext fun id => ?_, fun h id => ?_⟩
  · rw [IdSet.mem_ofList, IdSet.mem_ofList, h]
  · rw [← IdSet.mem_ofList, h, IdSet.mem_ofList]

/-- Levels are the same one by one exactly if they settle to the same levels. -/
theorem forall₂_sameLevel_iff {ls ms : List (Category × List Id)} :
    List.Forall₂ SameLevel ls ms ↔ ls.map settledLevel = ms.map settledLevel := by
  simp only [← List.forall₂_eq_eq_eq, List.forall₂_map_left_iff, List.forall₂_map_right_iff,
    ← sameLevel_iff]

/-- Drafts with the same levels, but for the order and the repetition of ids, have the same
    check. -/
theorem check_congr (h : List.Forall₂ SameLevel draft.levels other.levels) :
    other.check = draft.check := by
  have hlevels : other.settled.levels = draft.settled.levels := by
    rw [settled, settled, Chain.levels_map, Chain.levels_map]
    exact (forall₂_sameLevel_iff.1 h).symm
  rw [check, check, Chain.ext_levels hlevels]

/-- What the check of a level tells does not depend on the levels below. -/
theorem checkAt_congr
    (h : List.Forall₂ SameLevel (draft.levels.take (k + 1)) (other.levels.take (k + 1))) {j : Nat}
    (hj : j ≤ k) : other.checkAt parent j = draft.checkAt parent j := by
  have hlevels (i : Nat) (hi : i ≤ k) :
      other.levels[i]?.map settledLevel = draft.levels[i]?.map settledLevel := by
    have htake := congrArg (·[i]?) (forall₂_sameLevel_iff.1 h)
    simp only [List.getElem?_map, List.getElem?_take_of_lt (Nat.lt_succ_of_le hi)] at htake
    exact htake.symm
  -- the category above a level is that of the level before, or the given one at the root
  have hparent : other.parentAt parent j = draft.parentAt parent j := by
    cases j with
    | zero => rfl
    | succ i =>
      have := congrArg (Option.map (·.1)) (hlevels i (by omega))
      simpa [Chain.parentAt, settledLevel, Function.comp_def] using this
  have hchecked (d : Draft) : d.checkAt parent j =
      (d.levels[j]?.map settledLevel).map fun level =>
        checkLevel (d.parentAt parent j) level.1 level.2 := by
    rw [Option.map_map]
    rfl
  rw [hchecked, hchecked, hparent, hlevels j hj]

/-- A draft that agrees with another down to its first defect is refused for that. -/
theorem FirstDefect.check_of_same (h : draft.FirstDefect k defect)
    (hlevel : draft.levels[k]? = some level)
    (hsame : List.Forall₂ SameLevel (draft.levels.take (k + 1)) (other.levels.take (k + 1))) :
    other.check = .error (defect.fault level.1) := by
  obtain ⟨hfault, habove⟩ := h.checkAt hlevel
  refine check_eq_error_iff_checkAt.2 ⟨k, ?_, fun j hj => ?_⟩
  · rw [checkAt_congr hsame (Nat.le_refl k), hfault]
  · rw [checkAt_congr hsame (Nat.le_of_lt hj), habove j hj]

/-- A draft is refused for its first defect: at the first level from the root that has any, and of
    the defects of that level for the one whose condition comes first, with the smallest id where
    ids are not positive. A level has none exactly if it lists ids, only positive ones, and has a
    chosen category that may narrow the one above it. The order and the repetition of ids make no
    difference to what is told, and neither does anything below the level that is told about. -/
theorem check_tells_first_defect (draft : Draft) :
    (∀ fault, draft.check = .error fault ↔
      ∃ k level defect, draft.levels[k]? = some level ∧ draft.FirstDefect k defect ∧
        fault = defect.fault level.1) ∧
    (∀ k level, draft.levels[k]? = some level →
      ((∀ defect, ¬ draft.HasDefect k defect) ↔
        level.2 ≠ [] ∧ (∀ parent ∈ draft.parentAt none k, parent.admits level.1) ∧
          level.1 ≠ .unchosen ∧ ∀ id ∈ level.2, 0 < id)) ∧
    (∀ other : Draft, List.Forall₂ SameLevel draft.levels other.levels →
      other.check = draft.check) ∧
    ∀ k level defect, draft.levels[k]? = some level → draft.FirstDefect k defect →
      ∀ other : Draft,
        List.Forall₂ SameLevel (draft.levels.take (k + 1)) (other.levels.take (k + 1)) →
          other.check = .error (defect.fault level.1) := by
  refine ⟨fun fault => check_eq_error_iff_firstDefect, fun k level hlevel => ?_,
    fun other => check_congr, fun k level defect hlevel hfirst other => hfirst.check_of_same hlevel⟩
  simp only [hasDefect_iff hlevel]
  exact LevelDefect.forall_not_inLevel_iff

/-- Services of a group are listed by ids that are not positive, and below them come hosts that are
    not listed and could not narrow them. The services are told about, by their smallest id, and so
    they are when their ids are listed otherwise and nothing comes below. -/
theorem check_tells_first_defect_middle :
    let draft : Draft :=
      .narrowed .hostGroup [1] (.narrowed .service [2, 0, -4, 0] (.leaf .host []))
    let other : Draft := .narrowed .hostGroup [1, 1] (.leaf .service [-4, 0, 2])
    draft.FirstDefect 1 (.notPositive (-4)) ∧ draft.HasDefect 2 .nothingListed ∧
      draft.HasDefect 2 (.misplaced .service) ∧
        List.Forall₂ SameLevel (draft.levels.take 2) (other.levels.take 2) ∧
          draft.check = .error (.invalidResource .service (-4)) ∧
            other.check = .error (.invalidResource .service (-4)) := by
  intro draft other
  obtain ⟨htold, hnone, _, hbelow⟩ := check_tells_first_defect draft
  let services : Category × List Id := (.service, [2, 0, -4, 0])
  have hservice : draft.levels[1]? = some services := rfl
  have hfirst : draft.FirstDefect 1 (.notPositive (-4)) := by
    refine ⟨(hasDefect_iff hservice).2 ?_, fun j hj => ?_, fun defect hdefect => ?_⟩
    · exact LevelDefect.firstInvalid?_ofList_eq_some_iff.1 (by decide)
    · obtain rfl : j = 0 := by omega
      have hpositive : ∀ id ∈ [(1 : Id)], 0 < id := by simp
      exact (hnone 0 (.hostGroup, [1]) rfl).2 ⟨by simp, nofun, nofun, hpositive⟩
    · -- the level has no defect of another kind
      rw [hasDefect_iff hservice] at hdefect
      cases defect with
      | nothingListed => cases hdefect
      | misplaced p =>
        obtain ⟨hp, hnot⟩ := hdefect
        cases hp
        exact absurd rfl hnot
      | notChosen => cases hdefect
      | notPositive id => exact Nat.le_refl _
  have hsame : List.Forall₂ SameLevel (draft.levels.take 2) (other.levels.take 2) :=
    forall₂_sameLevel_iff.2 (by decide)
  refine ⟨hfirst, ⟨_, rfl, rfl⟩, ⟨_, rfl, rfl, by decide⟩, hsame, ?_, ?_⟩
  · exact (htold _).2 ⟨1, _, _, hservice, hfirst, rfl⟩
  · exact hbelow 1 _ _ hservice hfirst other hsame

end Draft

end AccessScope
