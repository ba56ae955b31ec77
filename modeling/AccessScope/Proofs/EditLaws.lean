import AccessScope.Proofs.Revisions
import Mathlib.Data.List.Induction

/-!
# Laws of edits

An edit sets some terms of a rule and makes a new rule of them, with every check passed anew and the
name trimmed once more. This file shows that edits compose in spite of that: two of them one after
the other are one, in which the second takes precedence. The checks look at one term each, so what
passed for both edits passes for the two together; and trimming a name takes away nothing that the
checks see, since what they see is the formatted name.

## Key results

- `RuleContent.ofTerms_trimmed`: a name that is short enough may as well be trimmed before
- `Rule.merge_merge`: two edits one after the other are one
- `Rule.foldlM_merge`: so are any number of edits
- `Rule.merge_comm`: edits of different terms can be made in either order
- `Rule.merge_laws`: the laws together
-/

namespace AccessScope

/-! ## Several edits as one -/

namespace RuleChanges

/-- Both edits as one: what the second sets takes precedence. -/
def overriddenBy (p q : RuleChanges) : RuleChanges where
  name := q.name.or p.name
  description := q.description.or p.description
  isEnabled := q.isEnabled.or p.isEnabled
  contacts := q.contacts.or p.contacts
  contactGroups := q.contactGroups.or p.contactGroups
  filters := q.filters.or p.filters

/-- No term is set by both edits. -/
structure Apart (p q : RuleChanges) : Prop where
  name : p.name = .none ∨ q.name = .none
  description : p.description = .none ∨ q.description = .none
  isEnabled : p.isEnabled = .none ∨ q.isEnabled = .none
  contacts : p.contacts = .none ∨ q.contacts = .none
  contactGroups : p.contactGroups = .none ∨ q.contactGroups = .none
  filters : p.filters = .none ∨ q.filters = .none

variable (p q : RuleChanges)

@[simp] theorem overriddenBy_self : p.overriddenBy p = p := by
  simp [overriddenBy]

/-- An edit of the terms that another edit made is the edit of both. -/
theorem applyTo_applyTo (t : RuleTerms) :
    q.applyTo (p.applyTo t) = (p.overriddenBy q).applyTo t := by
  simp [applyTo, overriddenBy]

variable {p q}

/-- Neither of two edits that are apart takes precedence. -/
theorem Apart.overriddenBy_comm (h : p.Apart q) : p.overriddenBy q = q.overriddenBy p := by
  have hcomm {α : Type} {o o' : Option α} (h : o = .none ∨ o' = .none) : o'.or o = o.or o' := by
    obtain rfl | rfl := h <;> simp
  simp only [overriddenBy, hcomm h.name, hcomm h.description, hcomm h.isEnabled, hcomm h.contacts,
    hcomm h.contactGroups, hcomm h.filters]

/-- Terms that are acceptable after each of two edits are acceptable after both, since no check
    looks at two terms. -/
theorem acceptable_overriddenBy {t : RuleTerms} (hp : (p.applyTo t).Acceptable)
    (hq : (q.applyTo t).Acceptable) : ((p.overriddenBy q).applyTo t).Acceptable := by
  -- each term after both is the one after the first or the one after the second
  have hone {α : Type} {P : α → Prop} {o o' : Option α} {a : α} (h : P (o.getD a))
      (h' : P (o'.getD a)) : P ((o'.or o).getD a) := by
    cases o' with
    | none => exact h
    | some b => exact h'
  exact
    { name_ne_empty := hone (P := (RuleName.formatted · ≠ "")) hp.name_ne_empty hq.name_ne_empty
      name_length_le := hone (P := fun name => (RuleName.formatted name).length ≤ _)
        hp.name_length_le hq.name_length_le
      description_length_le := hone (P := fun text : String => text.length ≤ _)
        hp.description_length_le hq.description_length_le
      contacts_positive := hone (P := fun ids : IdSet => ∀ id ∈ ids, 0 < id)
        hp.contacts_positive hq.contacts_positive
      contactGroups_positive := hone (P := fun ids : IdSet => ∀ id ∈ ids, 0 < id)
        hp.contactGroups_positive hq.contactGroups_positive
      roots_differ := hone (P := List.Pairwise fun f g : Filter => f.sameRoot g = false)
        hp.roots_differ hq.roots_differ }

end RuleChanges

/-! ## Names that were trimmed before -/

/-- Trimming a name makes no difference to the checks, unless the name is too long: then it is told
    as it was given. -/
theorem RuleTerms.check_trimmed {t : RuleTerms}
    (h : (RuleName.formatted t.name).length ≤ RuleName.maxLength) :
    check { t with name := RuleName.trimmed t.name } = t.check := by
  simp [check, Nat.not_lt.2 h]

/-- Nor does it make one to the content. -/
theorem RuleContent.ofTerms_trimmed {t : RuleTerms}
    (h : (RuleName.formatted t.name).length ≤ RuleName.maxLength) :
    ofTerms { t with name := RuleName.trimmed t.name } = ofTerms t := by
  cases hmade : ofTerms t with
  | ok c =>
    obtain ⟨hacceptable, hterms⟩ := ofTerms_eq_ok_iff.1 hmade
    exact ofTerms_eq_ok_iff.2 ⟨hacceptable.trim, by simpa using hterms⟩
  | error fault =>
    rw [ofTerms_eq_error_iff, RuleTerms.check_trimmed h]
    exact ofTerms_eq_error_iff.1 hmade

/-- An edit sets a name in place of a trimmed one, or leaves the trimmed one. -/
theorem RuleChanges.applyTo_trimmed (q : RuleChanges) (t : RuleTerms) :
    let trimmed := { t with name := RuleName.trimmed t.name }
    q.applyTo trimmed = q.applyTo t ∨
      (q.applyTo t).name = t.name ∧
        q.applyTo trimmed = { q.applyTo t with name := RuleName.trimmed t.name } := by
  intro trimmed
  cases hname : q.name with
  | none => exact .inr (by simp [trimmed, applyTo, hname])
  | some name => exact .inl (by simp [trimmed, applyTo, hname])

/-! ## Edits of rules -/

namespace Rule

variable {r s rp rq : Rule} {p q : RuleChanges}

/-- An edit can be made exactly if the terms are acceptable with it. -/
theorem exists_merge_iff : (∃ s, r.merge p = .ok s) ↔ (p.applyTo r.terms).Acceptable := by
  rw [← RuleContent.exists_ofTerms_iff]
  simp only [merge, replace_eq_ok_iff]
  constructor
  · intro ⟨_, c, hc, _⟩
    exact ⟨c, hc⟩
  · intro ⟨c, hc⟩
    exact ⟨_, c, hc, rfl⟩

/-- To edit what an edit made is to make both edits as one, with the same rule or the same fault. -/
theorem merge_merge (h : r.merge p = .ok s) : s.merge q = r.merge (p.overriddenBy q) := by
  have hacceptable : (p.applyTo r.terms).Acceptable := exists_merge_iff.1 ⟨s, h⟩
  have hterms := (fields_of_replace h).1
  have hid : s.id = r.id := id_of_replace h
  rw [merge, merge, hterms, replace, replace, hid, ← RuleChanges.applyTo_applyTo]
  obtain hset | ⟨hname, hleft⟩ := q.applyTo_trimmed (p.applyTo r.terms)
  · rw [hset]
  · -- the second edit leaves the name, which passed the checks before it was trimmed
    have hlength : (RuleName.formatted (q.applyTo (p.applyTo r.terms)).name).length ≤
        RuleName.maxLength := by
      rw [hname]
      exact hacceptable.name_length_le
    rw [hleft, ← hname, ofTerms, ofTerms, RuleContent.ofTerms_trimmed hlength]

/-- Edits one after the other, of which each can be made, are one: the last to set a term
    decides. -/
theorem foldlM_merge {edits : List RuleChanges} (h : edits.foldlM merge r = .ok s) :
    r.merge (edits.foldl RuleChanges.overriddenBy .none) = .ok s := by
  -- all edits but the last are one already, and the last is made on top of that one
  induction edits using List.reverseRecOn generalizing s with
  | nil =>
    cases h
    exact r.merge_none
  | append_singleton edits q ih =>
    rw [List.foldlM_append] at h
    obtain ⟨mid, hmid, hlast⟩ := bind_eq_ok_iff.1 h
    rw [List.foldl_append, List.foldl_cons, List.foldl_nil, ← merge_merge (ih hmid)]
    simpa using hlast

/-- What an edit made of a rule is left alone by the same edit. -/
theorem merge_again (h : r.merge p = .ok s) : s.merge p = .ok s := by
  rw [merge_merge h, RuleChanges.overriddenBy_self, h]

/-- Two edits that are apart and can be made each by itself can be made in either order, with the
    same outcome. -/
theorem merge_comm (hapart : p.Apart q) (hp : r.merge p = .ok rp) (hq : r.merge q = .ok rq) :
    ∃ s, rp.merge q = .ok s ∧ rq.merge p = .ok s := by
  -- both edits as one can be made, and they are the same one in either order
  have hboth := RuleChanges.acceptable_overriddenBy (exists_merge_iff.1 ⟨rp, hp⟩)
    (exists_merge_iff.1 ⟨rq, hq⟩)
  obtain ⟨s, hs⟩ := exists_merge_iff.2 hboth
  refine ⟨s, ?_, ?_⟩
  · rw [merge_merge hp, hs]
  · rw [merge_merge hq, ← hapart.overriddenBy_comm, hs]

/-- A rule that is replaced is edited in all its terms. -/
theorem replace_eq_merge (t : RuleTerms) : r.replace t = r.merge t.toChanges := rfl

/-- The laws of edits, for every rule and any two edits. The edit that sets nothing leaves the rule,
    which can be made again from its terms. To edit what one edit made is to make both edits as one,
    with the same rule or the same fault; so the same edit again leaves the rule alone. Two edits
    that set different terms and can each be made come out alike in either order. And to replace a
    rule is to edit all its terms. -/
theorem merge_laws (r : Rule) (p q : RuleChanges) :
    (r.merge .none = .ok r ∧ ofTerms r.id r.terms = .ok r) ∧
      (∀ s, r.merge p = .ok s → s.merge q = r.merge (p.overriddenBy q) ∧ s.merge p = .ok s) ∧
      (p.Apart q → ∀ rp rq, r.merge p = .ok rp → r.merge q = .ok rq →
        ∃ s, rp.merge q = .ok s ∧ rq.merge p = .ok s) ∧
      ∀ t, r.replace t = r.merge t.toChanges := by
  refine ⟨⟨r.merge_none, r.replace_terms⟩, fun s hp => ?_, fun hapart rp rq hp hq => ?_,
    fun t => ?_⟩
  · exact ⟨merge_merge hp, merge_again hp⟩
  · exact merge_comm hapart hp hq
  · exact replace_eq_merge t

/-- A rule is renamed and put out of force, in either order or at once. -/
theorem merge_laws_rename_and_disable :
    let terms : RuleTerms := ⟨" Ops ", "", true, .ofList [1], ∅, []⟩
    let rename : RuleChanges := { RuleChanges.none with name := some "\u2003Dev  Hosts\n" }
    let disable : RuleChanges := { RuleChanges.none with isEnabled := some false }
    ∃ r rp rq s, ofTerms 1 terms = .ok r ∧ r.merge rename = .ok rp ∧ r.merge disable = .ok rq ∧
      rp.merge disable = .ok s ∧ rq.merge rename = .ok s ∧
        r.merge (rename.overriddenBy disable) = .ok s ∧
          s.terms = ⟨"Dev  Hosts", "", false, .ofList [1], ∅, []⟩ := by
  intro terms rename disable
  obtain ⟨c, hc⟩ := RuleContent.exists_ofTerms_iff.2
    (RuleTerms.check_eq_ok_iff.1 (show terms.check = .ok () by decide +kernel))
  let r := c.withId 1
  have hr : ofTerms 1 terms = .ok r := by
    rw [ofTerms, hc]
    rfl
  have hterms : r.terms = ⟨"Ops", "", true, .ofList [1], ∅, []⟩ :=
    (RuleContent.fields_of_ofTerms hc).1.trans (by decide +kernel)
  have hacceptable : ∀ p ∈ [rename, disable], (p.applyTo r.terms).Acceptable := by
    simp only [← RuleTerms.check_eq_ok_iff, hterms]
    decide +kernel
  obtain ⟨rp, hp⟩ := exists_merge_iff.2 (hacceptable rename (by simp))
  obtain ⟨rq, hq⟩ := exists_merge_iff.2 (hacceptable disable (by simp))
  obtain ⟨_, hcompose, hcommute, _⟩ := merge_laws r rename disable
  have hapart : rename.Apart disable :=
    ⟨.inr rfl, .inl rfl, .inl rfl, .inl rfl, .inl rfl, .inl rfl⟩
  obtain ⟨s, hs, hs'⟩ := hcommute hapart rp rq hp hq
  have hboth : r.merge (rename.overriddenBy disable) = .ok s := (hcompose rp hp).1.symm.trans hs
  refine ⟨r, rp, rq, s, hr, hp, hq, hs, hs', hboth, ?_⟩
  rw [(fields_of_replace hboth).1, hterms]
  decide +kernel

end Rule

end AccessScope
