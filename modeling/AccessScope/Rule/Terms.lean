import AccessScope.Rule.Name
import AccessScope.Filter.Basic

/-!
# Terms of a rule

What a rule says: how it is called, whether it is in force, which contacts and contact groups it is
for, and which filters it grants them. `RuleTerms.check` finds the first fault in a fixed order.

* `RuleTerms.firstRepeat?_eq_none_iff`  no filter is refused exactly if all roots differ
* `RuleTerms.check_eq_ok_iff`  terms pass exactly if they are acceptable
-/

namespace AccessScope

/-- What a rule says, before any check. -/
structure RuleTerms where
  name : String
  description : String
  isEnabled : Bool
  contacts : IdSet
  contactGroups : IdSet
  filters : List Filter
deriving DecidableEq

/-- What can be wrong with the terms of a rule. -/
inductive RuleFault where
  /-- The name is nothing but white space. -/
  | emptyName
  /-- The formatted name is too long; `name` is the name as it was given. -/
  | nameTooLong (name : String)
  | descriptionTooLong
  | invalidContact (id : Id)
  | invalidContactGroup (id : Id)
  /-- The filter at `index` has the same root level as an earlier one. -/
  | repeatedRoot (index earlier : Nat)
deriving DecidableEq, Repr

namespace RuleTerms

/-- The greatest number of characters of a description. -/
def maxDescriptionLength : Nat := 65535

/-- The first filter of `rest` that has the same root level as one in front of it, with the first
such one: their places when `earlier` stands in front of `rest`. -/
def repeatBehind (earlier : List Filter) : List Filter → Option (Nat × Nat)
  | [] => none
  | f :: rest =>
    match earlier.findIdx? (·.sameRoot f) with
    | some place => some (earlier.length, place)
    | none => repeatBehind (earlier ++ [f]) rest

/-- The place of the first filter that has the same root level as an earlier one, and the place of
the first such earlier one. -/
def firstRepeat? (filters : List Filter) : Option (Nat × Nat) :=
  repeatBehind [] filters

/-- Checks the name, the description, the contacts, the contact groups and the filters, in this
order. -/
def check (t : RuleTerms) : Except RuleFault Unit :=
  if RuleName.formatted t.name = "" then .error .emptyName
  else if RuleName.maxLength < (RuleName.formatted t.name).length then .error (.nameTooLong t.name)
  else if maxDescriptionLength < t.description.length then .error .descriptionTooLong
  else match t.contacts.firstInvalid? with
    | some id => .error (.invalidContact id)
    | none =>
      match t.contactGroups.firstInvalid? with
      | some id => .error (.invalidContactGroup id)
      | none =>
        match firstRepeat? t.filters with
        | some (index, earlier) => .error (.repeatedRoot index earlier)
        | none => .ok ()

/-- What the terms of every rule satisfy. -/
structure Acceptable (t : RuleTerms) : Prop where
  name_ne_empty : RuleName.formatted t.name ≠ ""
  name_length_le : (RuleName.formatted t.name).length ≤ RuleName.maxLength
  description_length_le : t.description.length ≤ maxDescriptionLength
  contacts_positive : ∀ id ∈ t.contacts, 0 < id
  contactGroups_positive : ∀ id ∈ t.contactGroups, 0 < id
  roots_differ : t.filters.Pairwise fun f g => f.sameRoot g = false

private theorem repeatBehind_eq_none_iff {earlier rest : List Filter} :
    repeatBehind earlier rest = none ↔
      (∀ f ∈ earlier, ∀ g ∈ rest, f.sameRoot g = false) ∧
        rest.Pairwise fun f g => f.sameRoot g = false := by
  induction rest generalizing earlier with
  | nil => simp [repeatBehind]
  | cons g rest ih =>
    rw [repeatBehind]
    split
    · next place h =>
      simp only [reduceCtorEq, false_iff, not_and]
      intro hall
      have : earlier.findIdx? (·.sameRoot g) = none :=
        List.findIdx?_eq_none_iff.2 fun f hf => hall f hf g List.mem_cons_self
      rw [this] at h
      cases h
    · next h =>
      rw [ih, List.pairwise_cons]
      have h' : ∀ f ∈ earlier, f.sameRoot g = false := List.findIdx?_eq_none_iff.1 h
      constructor
      · rintro ⟨hall, hrest⟩
        refine ⟨fun f hf k hk => ?_, fun k hk => hall g (by simp) k hk, hrest⟩
        rcases List.mem_cons.1 hk with rfl | hk
        · exact h' f hf
        · exact hall f (by simp [hf]) k hk
      · rintro ⟨hall, hg, hrest⟩
        refine ⟨fun f hf k hk => ?_, hrest⟩
        rcases List.mem_append.1 hf with hf | hf
        · exact hall f hf k (List.mem_cons_of_mem _ hk)
        · cases List.mem_singleton.1 hf
          exact hg k hk

/-- No filter is refused exactly if all roots differ. -/
theorem firstRepeat?_eq_none_iff {filters : List Filter} :
    firstRepeat? filters = none ↔ filters.Pairwise fun f g => f.sameRoot g = false := by
  rw [firstRepeat?, repeatBehind_eq_none_iff]
  simp

/-- Terms pass exactly if they are acceptable. -/
theorem check_eq_ok_iff {t : RuleTerms} : t.check = .ok () ↔ t.Acceptable := by
  constructor
  · intro h
    unfold check at h
    split at h
    · cases h
    · next h1 =>
      split at h
      · cases h
      · next h2 =>
        split at h
        · cases h
        · next h3 =>
          split at h
          · cases h
          · next h4 =>
            split at h
            · cases h
            · next h5 =>
              split at h
              · cases h
              · next h6 =>
                exact ⟨h1, Nat.le_of_not_lt h2, Nat.le_of_not_lt h3,
                  IdSet.firstInvalid?_eq_none.1 h4, IdSet.firstInvalid?_eq_none.1 h5,
                  firstRepeat?_eq_none_iff.1 h6⟩
  · rintro ⟨h1, h2, h3, h4, h5, h6⟩
    unfold check
    rw [if_neg h1, if_neg (Nat.not_lt.2 h2), if_neg (Nat.not_lt.2 h3),
      IdSet.firstInvalid?_eq_none.2 h4, IdSet.firstInvalid?_eq_none.2 h5,
      firstRepeat?_eq_none_iff.2 h6]

/-- Trimming the name keeps terms acceptable. -/
theorem Acceptable.trim {t : RuleTerms} (h : t.Acceptable) :
    Acceptable { t with name := RuleName.trimmed t.name } :=
  ⟨by simpa using h.name_ne_empty, by simpa using h.name_length_le, h.description_length_le,
    h.contacts_positive, h.contactGroups_positive, h.roots_differ⟩

end RuleTerms

/-- The wording of a fault. -/
def RuleFault.message : RuleFault → String
  | emptyName => "Rule name cannot be empty"
  | nameTooLong name =>
    "Rule name '" ++ name ++ "' exceeds the maximum length of " ++ toString RuleName.maxLength
      ++ " characters"
  | descriptionTooLong =>
    "Rule description exceeds the maximum length of " ++ toString RuleTerms.maxDescriptionLength
      ++ " characters"
  | invalidContact id => "Invalid contact ID " ++ toString id
  | invalidContactGroup id => "Invalid contact group ID " ++ toString id
  | repeatedRoot index earlier =>
    "Dataset #" ++ toString index ++ " has the same root filter as dataset #" ++ toString earlier

end AccessScope
