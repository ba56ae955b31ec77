import AccessScope.Proofs.StoredRules
import Mathlib.Order.Bounds.Basic
import Mathlib.Order.WellFounded

/-!
# Faults of terms

Terms can have several faults at once, and the check tells one of them. This file says which,
without following the check: of the faults that the terms have, the one whose condition comes first.
A fault is told with its evidence, and there the least counts: the smallest id that is not positive,
or the first filter with the root level of an earlier one, and the first such earlier one.

## Key results

- `IdSet.firstInvalid?_eq_some_iff`, `RuleTerms.firstRepeat?_eq_some_iff`: what the searches find
- `RuleTerms.exists_firstFault`: terms that are not acceptable have a first fault
- `RuleTerms.check_eq_error_iff`: that is the fault which the check tells
- `RuleContent.ofTerms_tells_first_fault`: when terms are accepted, what becomes of them, and what
  is told otherwise
-/

namespace AccessScope

/-! ## What the searches find -/

/-- The id that is found is the least of those that are not positive. -/
theorem IdSet.firstInvalid?_eq_some_iff {s : IdSet} {id : Id} :
    s.firstInvalid? = some id ↔ IsLeast {a | a ∈ s ∧ a ≤ 0} id := by
  have hfound {a : Id} (h : s.firstInvalid? = some a) : IsLeast {a | a ∈ s ∧ a ≤ 0} a := by
    obtain ⟨hle, before, after, hlist, hbefore⟩ := List.find?_eq_some_iff_append.1 h
    have hmem {b : Id} : b ∈ s ↔ b ∈ before ∨ b = a ∨ b ∈ after := by
      rw [mem_def, hlist, List.mem_append, List.mem_cons]
    refine ⟨⟨hmem.2 (.inr (.inl rfl)), by simpa using hle⟩, fun b ⟨hb, hb0⟩ => ?_⟩
    obtain hb | rfl | hb := hmem.1 hb
    · exact absurd hb0 (by simpa using hbefore b hb)
    · exact Int64.le_refl _
    · -- the members are listed in ascending order
      have hascending := s.ascending
      rw [hlist] at hascending
      exact Int64.le_of_lt (List.rel_of_pairwise_cons (List.pairwise_append.1 hascending).2.1 hb)
  constructor
  · exact hfound
  · intro h
    cases hs : s.firstInvalid? with
    | none =>
      exact absurd (firstInvalid?_eq_none.1 hs id h.1.1) (Int64.not_lt.2 h.1.2)
    | some a =>
      -- two least ones are one
      have ha := hfound hs
      rw [Int64.le_antisymm (ha.2 h.1) (h.2 ha.1)]

/-- Two filters have the same root level if they agree in its category and its resources. -/
theorem Filter.sameRoot_iff {f g : Filter} :
    f.sameRoot g ↔ f.category = g.category ∧ f.resources = g.resources := by
  simp [sameRoot]

namespace RuleTerms

/-- The filters at these two places have the same root level, whatever is below. -/
def SameRootAt (filters : List Filter) (i j : Nat) : Prop :=
  ∃ f g, filters[i]? = some f ∧ filters[j]? = some g ∧
    f.category = g.category ∧ f.resources = g.resources

/-- The places of filters that have the root level of an earlier one. -/
def repeats (filters : List Filter) : Set Nat :=
  {j | ∃ i < j, SameRootAt filters i j}

section

variable {earlier rest : List Filter} {g : Filter}

/-- Which filters in front of `g` have the root level of `g`. -/
private theorem sameRootAt_length_iff {i : Nat} :
    i < earlier.length ∧ SameRootAt (earlier ++ g :: rest) i earlier.length ↔
      ∃ f, earlier[i]? = some f ∧ f.sameRoot g := by
  constructor
  · rintro ⟨hi, f, h, hf, hg, hroot⟩
    rw [List.getElem?_append_left hi] at hf
    obtain rfl : g = h := by simpa using hg
    exact ⟨f, hf, Filter.sameRoot_iff.2 hroot⟩
  · rintro ⟨f, hf, hroot⟩
    have hi : i < earlier.length := (List.getElem?_eq_some_iff.1 hf).1
    refine ⟨hi, f, g, ?_, by simp, Filter.sameRoot_iff.1 hroot⟩
    rw [List.getElem?_append_left hi, hf]

/-- Looking for the first filter that has the root level of `g`. -/
private theorem findIdx?_sameRoot_eq_some_iff {i : Nat} :
    earlier.findIdx? (·.sameRoot g) = some i ↔
      IsLeast {i | i < earlier.length ∧ SameRootAt (earlier ++ g :: rest) i earlier.length} i := by
  simp only [sameRootAt_length_iff]
  rw [List.findIdx?_eq_some_iff_getElem]
  constructor
  · rintro ⟨hi, hroot, hbefore⟩
    refine ⟨⟨_, List.getElem?_eq_getElem hi, hroot⟩, fun j ⟨f, hf, hj⟩ => Nat.le_of_not_lt ?_⟩
    intro hji
    obtain ⟨_, rfl⟩ := List.getElem?_eq_some_iff.1 hf
    exact hbefore j hji hj
  · rintro ⟨⟨f, hf, hroot⟩, hleast⟩
    obtain ⟨hi, rfl⟩ := List.getElem?_eq_some_iff.1 hf
    refine ⟨hi, hroot, fun j hji hj => ?_⟩
    exact Nat.not_le.2 hji (hleast ⟨_, List.getElem?_eq_getElem _, hj⟩)

private theorem not_repeats_of_findIdx?_eq_none (h : earlier.findIdx? (·.sameRoot g) = none) :
    earlier.length ∉ repeats (earlier ++ g :: rest) := by
  rintro ⟨i, hi, hroot⟩
  obtain ⟨f, hf, hsame⟩ := sameRootAt_length_iff.1 ⟨hi, hroot⟩
  rw [List.findIdx?_eq_none_iff.1 h f (List.mem_of_getElem? hf)] at hsame
  cases hsame

/-- The filters from `earlier.length` on are searched in their order, each behind all that are in
    front of it. -/
private theorem repeatBehind_eq_some_iff {index place : Nat} :
    repeatBehind earlier rest = some (index, place) ↔
      IsLeast {j | earlier.length ≤ j ∧ j ∈ repeats (earlier ++ rest)} index ∧
        IsLeast {i | i < index ∧ SameRootAt (earlier ++ rest) i index} place := by
  induction rest generalizing earlier with
  | nil =>
    -- there is no place behind the filters that were searched
    simp only [repeatBehind, reduceCtorEq, false_iff, not_and]
    rintro ⟨⟨hle, _, _, _, _, _, hbeyond, _⟩, _⟩
    rw [List.append_nil] at hbeyond
    have := (List.getElem?_eq_some_iff.1 hbeyond).1
    omega
  | cons g rest ih =>
    rw [repeatBehind]
    split
    · next first hfound =>
      -- the first place of all is that of `g`
      have hplace : IsLeast {i | i < earlier.length ∧
          SameRootAt (earlier ++ g :: rest) i earlier.length} first :=
        findIdx?_sameRoot_eq_some_iff.1 hfound
      have hindex : IsLeast {j | earlier.length ≤ j ∧ j ∈ repeats (earlier ++ g :: rest)}
          earlier.length := ⟨⟨Nat.le_refl _, first, hplace.1⟩, fun j hj => hj.1⟩
      constructor
      · rintro ⟨⟩
        exact ⟨hindex, hplace⟩
      · rintro ⟨hindex', hplace'⟩
        obtain rfl := hindex'.unique hindex
        rw [hplace'.unique hplace]
    · next hnone =>
      -- `g` is no repeat, so the search goes on as if it began behind `g`
      have hnext : {j | (earlier ++ [g]).length ≤ j ∧ j ∈ repeats (earlier ++ g :: rest)} =
          {j | earlier.length ≤ j ∧ j ∈ repeats (earlier ++ g :: rest)} := by
        refine Set.ext fun j => and_congr_left fun hj => ?_
        have : j ≠ earlier.length := fun heq => not_repeats_of_findIdx?_eq_none hnone (heq ▸ hj)
        rw [List.length_append, List.length_singleton]
        omega
      rw [ih, List.append_assoc, List.singleton_append, hnext]

end

/-- The search tells the first filter that has the root level of an earlier one, and the first such
    earlier one. -/
theorem firstRepeat?_eq_some_iff {filters : List Filter} {index earlier : Nat} :
    firstRepeat? filters = some (index, earlier) ↔ IsLeast (repeats filters) index ∧
      IsLeast {i | i < index ∧ SameRootAt filters i index} earlier := by
  rw [firstRepeat?, repeatBehind_eq_some_iff]
  simp

end RuleTerms

/-! ## Faults -/

/-- The place of a fault's condition in the order in which terms are checked. -/
def RuleFault.rank : RuleFault → Nat
  | emptyName => 0
  | nameTooLong _ => 1
  | descriptionTooLong => 2
  | invalidContact _ => 3
  | invalidContactGroup _ => 4
  | repeatedRoot _ _ => 5

namespace RuleTerms

/-- The terms have this fault, with this evidence. They may have others, too. -/
def Has (t : RuleTerms) : RuleFault → Prop
  | .emptyName => (RuleName.formatted t.name).length = 0
  | .nameTooLong name => name = t.name ∧ 255 < (RuleName.formatted t.name).length
  | .descriptionTooLong => 65535 < t.description.length
  | .invalidContact id => IsLeast {a | a ∈ t.contacts ∧ a ≤ 0} id
  | .invalidContactGroup id => IsLeast {a | a ∈ t.contactGroups ∧ a ≤ 0} id
  | .repeatedRoot index earlier => IsLeast (repeats t.filters) index ∧
      IsLeast {i | i < index ∧ SameRootAt t.filters i index} earlier

/-- The fault of the terms whose condition comes first. -/
def FirstFault (t : RuleTerms) (fault : RuleFault) : Prop :=
  t.Has fault ∧ ∀ other, t.Has other → fault.rank ≤ other.rank

/-- The terms meet the first `k` of the six conditions. -/
def MeetsFirst (t : RuleTerms) (k : Nat) : Prop :=
  ∀ fault : RuleFault, fault.rank < k → ¬ t.Has fault

variable {t : RuleTerms} {fault : RuleFault}

namespace MeetsFirst

variable {k : Nat} (h : t.MeetsFirst k)
include h

theorem name_ne_empty (hk : 0 < k) : RuleName.formatted t.name ≠ "" := fun hempty =>
  h .emptyName hk (String.length_eq_zero_iff.2 hempty)

theorem name_not_long (hk : 1 < k) :
    ¬ RuleName.maxLength < (RuleName.formatted t.name).length := fun hlong =>
  h (.nameTooLong t.name) hk ⟨rfl, hlong⟩

theorem description_not_long (hk : 2 < k) : ¬ maxDescriptionLength < t.description.length :=
  h .descriptionTooLong hk

theorem contacts_eq_none (hk : 3 < k) : t.contacts.firstInvalid? = none :=
  Option.eq_none_iff_forall_ne_some.2 fun id hid =>
    h (.invalidContact id) hk (IdSet.firstInvalid?_eq_some_iff.1 hid)

theorem contactGroups_eq_none (hk : 4 < k) : t.contactGroups.firstInvalid? = none :=
  Option.eq_none_iff_forall_ne_some.2 fun id hid =>
    h (.invalidContactGroup id) hk (IdSet.firstInvalid?_eq_some_iff.1 hid)

theorem filters_eq_none (hk : 5 < k) : firstRepeat? t.filters = none :=
  Option.eq_none_iff_forall_ne_some.2 fun (index, earlier) hfound =>
    h (.repeatedRoot index earlier) hk (firstRepeat?_eq_some_iff.1 hfound)

end MeetsFirst

/-- Terms that meet all six are acceptable. -/
theorem acceptable_of_meetsFirst (h : t.MeetsFirst 6) : t.Acceptable where
  name_ne_empty := h.name_ne_empty (by decide)
  name_length_le := Nat.le_of_not_lt (h.name_not_long (by decide))
  description_length_le := Nat.le_of_not_lt (h.description_not_long (by decide))
  contacts_positive := IdSet.firstInvalid?_eq_none.1 (h.contacts_eq_none (by decide))
  contactGroups_positive := IdSet.firstInvalid?_eq_none.1 (h.contactGroups_eq_none (by decide))
  roots_differ := firstRepeat?_eq_none_iff.1 (h.filters_eq_none (by decide))

/-- The first fault is the one that the check tells, since it passes all conditions in front. -/
theorem check_of_firstFault (h : t.FirstFault fault) : t.check = .error fault := by
  obtain ⟨hhas, hfirst⟩ := h
  have hmeets : t.MeetsFirst fault.rank := fun other hrank hother =>
    Nat.not_le.2 hrank (hfirst other hother)
  cases fault with
  | emptyName => rw [check, if_pos (String.length_eq_zero_iff.1 hhas)]
  | nameTooLong name =>
    have h : t.MeetsFirst 1 := hmeets
    obtain ⟨rfl, hlong⟩ : _ ∧ RuleName.maxLength < _ := hhas
    rw [check, if_neg (h.name_ne_empty (by decide)), if_pos hlong]
  | descriptionTooLong =>
    have h : t.MeetsFirst 2 := hmeets
    have hlong : maxDescriptionLength < t.description.length := hhas
    rw [check, if_neg (h.name_ne_empty (by decide)), if_neg (h.name_not_long (by decide)),
      if_pos hlong]
  | invalidContact id =>
    have h : t.MeetsFirst 3 := hmeets
    rw [check, if_neg (h.name_ne_empty (by decide)), if_neg (h.name_not_long (by decide)),
      if_neg (h.description_not_long (by decide)),
      IdSet.firstInvalid?_eq_some_iff.2 hhas]
  | invalidContactGroup id =>
    have h : t.MeetsFirst 4 := hmeets
    rw [check, if_neg (h.name_ne_empty (by decide)), if_neg (h.name_not_long (by decide)),
      if_neg (h.description_not_long (by decide)),
      h.contacts_eq_none (by decide), IdSet.firstInvalid?_eq_some_iff.2 hhas]
  | repeatedRoot index earlier =>
    have h : t.MeetsFirst 5 := hmeets
    rw [check, if_neg (h.name_ne_empty (by decide)), if_neg (h.name_not_long (by decide)),
      if_neg (h.description_not_long (by decide)),
      h.contacts_eq_none (by decide), h.contactGroups_eq_none (by decide),
      firstRepeat?_eq_some_iff.2 hhas]

/-- Terms that are not acceptable have a first fault. -/
theorem exists_firstFault (h : ¬ t.Acceptable) : ∃ fault, t.FirstFault fault := by
  have hhas : ∃ fault, t.Has fault := by
    by_contra hnone
    exact h (acceptable_of_meetsFirst fun fault _ hfault => hnone ⟨fault, hfault⟩)
  -- of all faults that the terms have, one comes first
  obtain ⟨fault, hfault, hleast⟩ := (measure RuleFault.rank).wf.has_min {f | t.Has f} hhas
  exact ⟨fault, hfault, fun other hother => Nat.le_of_not_lt (hleast other hother)⟩

/-- The check tells the first fault. -/
theorem check_eq_error_iff : t.check = .error fault ↔ t.FirstFault fault := by
  constructor
  · intro h
    have hbad : ¬ t.Acceptable := fun hacceptable => by
      rw [check_eq_ok_iff.2 hacceptable] at h
      cases h
    -- there is a first fault, which is told as well, so it is this one
    obtain ⟨first, hfirst⟩ := exists_firstFault hbad
    have htold : Except.error first = Except.error (ε := RuleFault) (α := Unit) fault :=
      (check_of_firstFault hfirst).symm.trans h
    cases htold
    exact hfirst
  · exact check_of_firstFault

/-- What acceptable terms are, in full. -/
theorem acceptable_iff : t.Acceptable ↔
    (1 ≤ (RuleName.formatted t.name).length ∧ (RuleName.formatted t.name).length ≤ 255) ∧
      t.description.length ≤ 65535 ∧ (∀ id ∈ t.contacts, 0 < id) ∧
        (∀ id ∈ t.contactGroups, 0 < id) ∧
          t.filters.Pairwise fun f g =>
            ¬ (f.category = g.category ∧ f.resources = g.resources) := by
  have hname : RuleName.formatted t.name ≠ "" ↔ 1 ≤ (RuleName.formatted t.name).length := by
    rw [Nat.one_le_iff_ne_zero, ne_eq, ne_eq, String.length_eq_zero_iff]
  simp only [← hname, ← Filter.sameRoot_eq_false_iff]
  constructor
  · intro h
    exact ⟨⟨h.name_ne_empty, h.name_length_le⟩, h.description_length_le, h.contacts_positive,
      h.contactGroups_positive, h.roots_differ⟩
  · rintro ⟨⟨hne, hlength⟩, hdescription, hcontacts, hgroups, hroots⟩
    exact ⟨hne, hlength, hdescription, hcontacts, hgroups, hroots⟩

end RuleTerms

namespace RuleContent

/-- Terms become content exactly if the formatted name has between 1 and 255 characters, the
    description has at most 65535, all ids are positive, and no two filters have the same root
    level, whatever is below. Then only the name is changed, by trimming it, and the formatted name
    is that of the name before and after. Otherwise the fault that is told is the first one that the
    terms have: with the smallest id that is not positive, or with the first place of a filter that
    has the root level of an earlier one and the place of the first such earlier one. -/
theorem ofTerms_tells_first_fault (t : RuleTerms) :
    ((∃ c, ofTerms t = .ok c) ↔
        (1 ≤ (RuleName.formatted t.name).length ∧ (RuleName.formatted t.name).length ≤ 255) ∧
          t.description.length ≤ 65535 ∧ (∀ id ∈ t.contacts, 0 < id) ∧
            (∀ id ∈ t.contactGroups, 0 < id) ∧
              t.filters.Pairwise fun f g =>
                ¬ (f.category = g.category ∧ f.resources = g.resources)) ∧
      (∀ c, ofTerms t = .ok c →
        c.terms = { t with name := RuleName.trimmed t.name } ∧
          c.formattedName = RuleName.formatted t.name ∧
            c.formattedName = RuleName.formatted c.name) ∧
      ∀ fault, ofTerms t = .error fault ↔ t.FirstFault fault := by
  refine ⟨?_, fun c hc => ?_, fun fault => ?_⟩
  · rw [exists_ofTerms_iff, RuleTerms.acceptable_iff]
  · obtain ⟨hterms, hformatted⟩ := fields_of_ofTerms hc
    exact ⟨hterms, hformatted, c.formattedName_eq⟩
  · rw [ofTerms_eq_error_iff, RuleTerms.check_eq_error_iff]

/-- Two filters with different root levels make a rule. Listed once more in reverse they do not: the
    third has the root level of the second. Of two contacts that are refused the smaller id is told,
    and neither the contact group behind them nor the filters. -/
theorem ofTerms_tells_first_fault_several :
    let filters := pairWorld.store.rules.flatMap (·.filters)
    let terms : RuleTerms := ⟨" Ops ", "", true, .ofList [1], ∅, filters⟩
    let repeated : RuleTerms := { terms with filters := filters ++ filters.reverse }
    let several : RuleTerms :=
      { repeated with contacts := .ofList [5, 0, -3], contactGroups := .ofList [-7] }
    (∃ c, ofTerms terms = .ok c ∧ c.name = "Ops" ∧ c.formattedName = "ops") ∧
      repeated.FirstFault (.repeatedRoot 2 1) ∧ several.FirstFault (.invalidContact (-3)) := by
  intro filters terms repeated several
  obtain ⟨c, hc⟩ := exists_ofTerms_iff.2
    (RuleTerms.check_eq_ok_iff.1 (show terms.check = .ok () by decide +kernel))
  obtain ⟨_, hmade, _⟩ := ofTerms_tells_first_fault terms
  obtain ⟨hterms, hformatted, _⟩ := hmade c hc
  have hname : c.name = "Ops" := (congrArg RuleTerms.name hterms).trans (by decide +kernel)
  refine ⟨⟨c, hc, hname, hformatted.trans (by decide +kernel)⟩, ?_, ?_⟩
  · exact ((ofTerms_tells_first_fault repeated).2.2 _).1 (by decide +kernel)
  · exact ((ofTerms_tells_first_fault several).2.2 _).1 (by decide +kernel)

end RuleContent

end AccessScope
