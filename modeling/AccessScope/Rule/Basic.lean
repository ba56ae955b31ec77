import AccessScope.Rule.Terms

/-!
# Rules

A rule is what its checked terms say, under the id that the store gave it. Rules are values: an edit
makes a new rule of the same id and passes every check again.

* `RuleContent.ofTerms_eq_ok_iff`  when terms are accepted, and what is made of them
* `Rule.replace_terms`  replacing a rule's terms by its own changes nothing
-/

namespace AccessScope

/-- What a rule says, checked: the terms are acceptable and the name is trimmed. -/
structure RuleContent extends RuleTerms where
  formattedName : String
  formattedName_eq : formattedName = RuleName.formatted name
  name_trimmed : RuleName.trimmed name = name
  acceptable : toRuleTerms.Acceptable
deriving DecidableEq

/-- A rule with its identity. -/
structure Rule extends RuleContent where
  id : Id
deriving DecidableEq

namespace RuleContent

/-- The terms that a rule's content was made from, but for white space around the name. -/
abbrev terms (c : RuleContent) : RuleTerms := c.toRuleTerms

theorem ext {c d : RuleContent} (h : c.terms = d.terms) : c = d := by
  obtain ⟨t, f, hf, _, _⟩ := c
  obtain ⟨u, g, hg, _, _⟩ := d
  cases h
  cases hf.trans hg.symm
  rfl

/-- The content that acceptable terms make. -/
def ofTerms (t : RuleTerms) : Except RuleFault RuleContent :=
  match h : t.check with
  | .error fault => .error fault
  | .ok () =>
    .ok
      { toRuleTerms := { t with name := RuleName.trimmed t.name }
        formattedName := RuleName.formatted t.name
        formattedName_eq := (RuleName.formatted_trimmed t.name).symm
        name_trimmed := RuleName.trimmed_trimmed t.name
        acceptable := (RuleTerms.check_eq_ok_iff.1 h).trim }

/-- Terms are accepted exactly if they are acceptable, and only the name is changed: it is
trimmed. -/
theorem ofTerms_eq_ok_iff {t : RuleTerms} {c : RuleContent} :
    ofTerms t = .ok c ↔ t.Acceptable ∧ c.terms = { t with name := RuleName.trimmed t.name } := by
  unfold ofTerms
  split
  · next fault h =>
    refine ⟨nofun, fun hc => ?_⟩
    rw [RuleTerms.check_eq_ok_iff.2 hc.1] at h
    cases h
  · next h =>
    have ha := RuleTerms.check_eq_ok_iff.1 h
    simp only [Except.ok.injEq]
    constructor
    · rintro rfl
      exact ⟨ha, rfl⟩
    · exact fun hc => (ext hc.2).symm

/-- The terms that are not accepted are refused for the fault that their check finds. -/
theorem ofTerms_eq_error_iff {t : RuleTerms} {fault : RuleFault} :
    ofTerms t = .error fault ↔ t.check = .error fault := by
  unfold ofTerms
  split
  · next h => simp [h]
  · next h => simp [h]

/-- The terms of a content make that content again. -/
theorem ofTerms_terms (c : RuleContent) : ofTerms c.terms = .ok c :=
  ofTerms_eq_ok_iff.2 ⟨c.acceptable, by rw [c.name_trimmed]⟩

/-- The rule with this content and an id. -/
def withId (c : RuleContent) (id : Id) : Rule := { c with id }

end RuleContent

namespace Rule

/-- What the rule says, without its identity. -/
abbrev content (r : Rule) : RuleContent := r.toRuleContent

/-- The terms of a rule, from which it can be made again. -/
abbrev terms (r : Rule) : RuleTerms := r.toRuleTerms

/-- The rule with this id that acceptable terms make. -/
def ofTerms (id : Id) (t : RuleTerms) : Except RuleFault Rule :=
  (RuleContent.ofTerms t).map (·.withId id)

/-- The rule with the same id and other terms. -/
def replace (r : Rule) (t : RuleTerms) : Except RuleFault Rule :=
  ofTerms r.id t

/-- Is the rule for this contact by itself? -/
def bindsContact (r : Rule) (contact : Id) : Bool :=
  r.contacts.toList.contains contact

/-- Is the rule for one of these contact groups? -/
def bindsAnyGroup (r : Rule) (groups : List Id) : Bool :=
  groups.any fun g => r.contactGroups.toList.contains g

/-- Replacing a rule's terms by its own changes nothing. -/
theorem replace_terms (r : Rule) : r.replace r.terms = .ok r := by
  rw [replace, ofTerms, RuleContent.ofTerms_terms]
  rfl

end Rule

/-- The terms of a rule that an edit sets; the others stay as they are. -/
structure RuleChanges where
  name : Option String
  description : Option String
  isEnabled : Option Bool
  contacts : Option IdSet
  contactGroups : Option IdSet
  filters : Option (List Filter)
deriving DecidableEq

namespace RuleChanges

/-- The edit that sets nothing. -/
def none : RuleChanges := ⟨.none, .none, .none, .none, .none, .none⟩

/-- Does the edit set nothing? -/
def isNone (c : RuleChanges) : Bool := c == none

/-- The terms after the edit. -/
def applyTo (c : RuleChanges) (t : RuleTerms) : RuleTerms where
  name := c.name.getD t.name
  description := c.description.getD t.description
  isEnabled := c.isEnabled.getD t.isEnabled
  contacts := c.contacts.getD t.contacts
  contactGroups := c.contactGroups.getD t.contactGroups
  filters := c.filters.getD t.filters

@[simp] theorem none_applyTo (t : RuleTerms) : none.applyTo t = t := rfl

end RuleChanges

/-- The rule after an edit. -/
def Rule.merge (r : Rule) (c : RuleChanges) : Except RuleFault Rule :=
  r.replace (c.applyTo r.terms)

/-- An edit that sets nothing leaves the rule as it is. -/
theorem Rule.merge_none (r : Rule) : r.merge .none = .ok r :=
  r.replace_terms

end AccessScope
