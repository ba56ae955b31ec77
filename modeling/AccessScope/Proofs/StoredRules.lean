import AccessScope.Proofs.FilterDrafts
import AccessScope.Proofs.WorldRuns

/-!
# Stored rules are well formed

What a rule says is checked in three places: the fields of a request when it comes in, the terms
when the rule is made, and the references by the operation. An edit has only the references checked
that it sets. This file shows that nothing slips through between the checks, whatever is created,
replaced, edited and removed: what an edit does not set was checked when it was stored, and
contacts, contact groups and resources do not go away.

## Key results

- `Rule.Backed`: what the operations, and not the type of rules, see to
- `World.Change.backed`: one change keeps every stored rule backed
- `wellFormed_after_runs`: after every run, every stored rule is well formed
-/

namespace AccessScope

/-! ## Well-formed rules -/

/-- All that is required of a rule in a world. -/
structure Rule.WellFormed (r : Rule) (w : World) : Prop where
  name_trimmed : RuleName.trimmed r.name = r.name
  formattedName_eq : r.formattedName = RuleName.formatted r.name
  formattedName_ne_empty : r.formattedName ≠ ""
  formattedName_length_le : r.formattedName.length ≤ 255
  description_length_le : r.description.length ≤ 65535
  filters_ne_nil : r.filters ≠ []
  /-- No two filters have the same root level. -/
  roots_differ : r.filters.Pairwise fun f g =>
    ¬ (f.category = g.category ∧ f.resources = g.resources)
  /-- Every filter, written as a draft, passes the check of drafts. -/
  filters_pass : ∀ f ∈ r.filters, f.toDraft.check = .ok ()
  contacts : ∀ id ∈ r.contacts, 0 < id ∧ ∃ c ∈ w.directory.contacts, c.id = id
  contactGroups : ∀ id ∈ r.contactGroups, 0 < id ∧ ∃ g ∈ w.directory.contactGroups, g.id = id
  /-- Every level of every filter names resources of its category. -/
  resources : ∀ f ∈ r.filters, ∀ level ∈ f.levels, ∀ id ∈ level.2,
    (level.1, id) ∈ w.store.resources

/-- What the type of rules does not say of a rule: it has a filter, and all that it refers to is
    registered. -/
structure Rule.Backed (r : Rule) (w : World) : Prop where
  filters_ne_nil : r.filters ≠ []
  known : w.Knows r.terms

theorem Filter.sameRoot_eq_false_iff {f g : Filter} :
    f.sameRoot g = false ↔ ¬ (f.category = g.category ∧ f.resources = g.resources) := by
  simp [sameRoot, ← not_and]

/-- A backed rule is well formed: its type sees to the rest. -/
theorem Rule.Backed.wellFormed {r : Rule} {w : World} (h : r.Backed w) : r.WellFormed w where
  name_trimmed := r.name_trimmed
  formattedName_eq := r.formattedName_eq
  formattedName_ne_empty := by
    rw [r.formattedName_eq]
    exact r.acceptable.name_ne_empty
  formattedName_length_le := by
    rw [r.formattedName_eq]
    exact r.acceptable.name_length_le
  description_length_le := r.acceptable.description_length_le
  filters_ne_nil := h.filters_ne_nil
  roots_differ := r.acceptable.roots_differ.imp Filter.sameRoot_eq_false_iff.1
  filters_pass := fun f _ => f.check_toDraft
  contacts := fun id hid => ⟨r.acceptable.contacts_positive id hid, h.known.contacts id hid⟩
  contactGroups := fun id hid =>
    ⟨r.acceptable.contactGroups_positive id hid, h.known.contactGroups id hid⟩
  resources := h.known.resources

/-! ## Changes -/

/-- What an edit leaves alone was known before, and what it sets is known now. -/
theorem World.Knows.applyTo {w : World} {t : RuleTerms} {changes : RuleChanges} (h : w.Knows t)
    (hchanges : w.KnowsChanges changes) : w.Knows (changes.applyTo t) where
  contacts := by
    have hset := hchanges.contacts
    cases hc : changes.contacts with
    | none => simpa [RuleChanges.applyTo, hc] using h.contacts
    | some ids => simpa [RuleChanges.applyTo, hc] using hset ids hc
  contactGroups := by
    have hset := hchanges.contactGroups
    cases hc : changes.contactGroups with
    | none => simpa [RuleChanges.applyTo, hc] using h.contactGroups
    | some ids => simpa [RuleChanges.applyTo, hc] using hset ids hc
  resources := by
    have hset := hchanges.resources
    cases hc : changes.filters with
    | none => simpa [RuleChanges.applyTo, hc] using h.resources
    | some filters => simpa [RuleChanges.applyTo, hc] using hset filters hc

/-- As many filters come out as drafts went in, so one is left if there was one. -/
theorem Filter.ne_nil_of_mapM {drafts : List Draft} {filters : List Filter}
    (h : drafts.mapM ofDraft = .ok filters) (hdrafts : drafts ≠ []) : filters ≠ [] := by
  have hlength := length_of_mapM_ofDraft h
  have hpos := List.length_pos_iff.2 hdrafts
  exact List.length_pos_iff.1 (by omega)

/-- The terms of a request have a filter, since the fields are checked first. -/
theorem RuleRequest.filters_ne_nil {request : RuleRequest} {t : RuleTerms}
    (hfields : request.fieldFaults = []) (ht : request.toTerms = .ok t) : t.filters ≠ [] := by
  obtain ⟨hdrafts, _⟩ := ChangeRequest.fieldFaults_eq_nil_iff.1 hfields
  exact Filter.ne_nil_of_mapM (toTerms_eq_ok_iff.1 ht).1 (hdrafts _ rfl)

/-- An edit leaves a filter if there was one before. -/
theorem ChangeRequest.filters_ne_nil {request : ChangeRequest} {changes : RuleChanges}
    {t : RuleTerms} (hfields : request.fieldFaults = [])
    (hchanges : request.toChanges = .ok changes) (ht : t.filters ≠ []) :
    (changes.applyTo t).filters ≠ [] := by
  obtain ⟨hdrafts, _⟩ := fieldFaults_eq_nil_iff.1 hfields
  obtain ⟨_, hnone⟩ | ⟨drafts, filters, hr, hc, hmap⟩ := filters_of_toChanges hchanges
  · simpa [RuleChanges.applyTo, hnone] using ht
  · simpa [RuleChanges.applyTo, hc] using Filter.ne_nil_of_mapM hmap (hdrafts drafts hr)

/-- One change keeps every stored rule backed. -/
theorem World.Change.backed {w : World} {s : RuleStore} (h : w.Change s)
    (hrules : ∀ r ∈ w.store.rules, r.Backed w) : ∀ r ∈ s.rules, r.Backed w := by
  intro r hr
  -- a rule that was stored before is backed already, so only the one that is written matters
  cases h with
  | kept => exact hrules r hr
  | @created request content hrequest _ hknown =>
    obtain rfl | ⟨hold, _⟩ := RuleStore.mem_store.1 hr
    · obtain ⟨hfields, t, ht, hcontent⟩ := RuleRequest.toContent_eq_ok_iff.1 hrequest
      have hterms := (RuleContent.fields_of_ofTerms hcontent).1
      have hfilters : content.terms.filters = t.filters := by rw [hterms]
      refine ⟨?_, hknown⟩
      show content.terms.filters ≠ []
      rw [hfilters]
      exact RuleRequest.filters_ne_nil hfields ht
    · exact hrules r hold
  | @replaced request current next _ hnext _ hknown =>
    obtain rfl | ⟨hold, _⟩ := RuleStore.mem_store.1 hr
    · obtain ⟨hfields, t, ht, hreplace⟩ := Rule.replaced_eq_ok_iff.1 hnext
      have hterms := (Rule.fields_of_replace hreplace).1
      have hfilters : r.terms.filters = t.filters := by rw [hterms]
      refine ⟨?_, hknown⟩
      rw [hfilters]
      exact RuleRequest.filters_ne_nil hfields ht
    · exact hrules r hold
  | @edited request current merged changes hcurrent hedit _ hknown =>
    obtain rfl | ⟨hold, _⟩ := RuleStore.mem_store.1 hr
    · obtain ⟨hfields, hchanges, hmerge⟩ := Rule.edited_eq_ok_iff.1 hedit
      have hterms := (Rule.fields_of_replace hmerge).1
      have hfilters : r.terms.filters = (changes.applyTo current.terms).filters := by rw [hterms]
      -- the rule before the edit is a stored one, so it is backed
      have hbefore := hrules current (RuleStore.find?_eq_some_iff.1 hcurrent).1
      refine ⟨?_, ?_⟩
      · rw [hfilters]
        exact ChangeRequest.filters_ne_nil hfields hchanges hbefore.filters_ne_nil
      · rw [hterms, World.knows_rename_iff]
        exact hbefore.known.applyTo hknown
    · exact hrules r hold
  | deleted => exact hrules r (RuleStore.mem_remove.1 hr).1

/-! ## Runs -/

/-- After every run of operations and new memberships in a world without rules, every stored rule is
    well formed, and all that rules can refer to is what there was at the start. -/
theorem wellFormed_after_runs {start : World} (accessGroup : Option String) (events : List Event)
    (hfresh : start.store.Fresh) :
    let w := start.after accessGroup events
    (∀ r ∈ w.store.rules, r.WellFormed w) ∧ start.SameReferents w := by
  intro w
  have hstart : ∀ r ∈ start.store.rules, r.Backed start := by
    intro r hr
    rw [hfresh.rules] at hr
    cases hr
  have hstep (u v : World) (_ : u.store.NamesDiffer) (hv : u.Evolves v)
      (hu : (∀ r ∈ u.store.rules, r.Backed u) ∧ start.SameReferents u) :
      (∀ r ∈ v.store.rules, r.Backed v) ∧ start.SameReferents v := by
    obtain ⟨hrules, hsame⟩ := hu
    refine ⟨fun r hr => ?_, hsame.trans hv.sameReferents⟩
    -- the change itself keeps rules backed by what was there before it, and that stays
    obtain ⟨hfilters, hknown⟩ := hv.change.backed hrules r hr
    exact ⟨hfilters, hv.sameReferents.knows hknown⟩
  obtain ⟨_, hbacked, hsame⟩ := World.after_induction hfresh ⟨hstart, .refl start⟩ hstep events
  exact ⟨fun r hr => (hbacked r hr).wellFormed, hsame⟩

/-- A rule that is made, edited to another host, and not edited to a contact that does not exist. -/
theorem wellFormed_after_edits :
    let events : List Event := [.call root (.create (hostRequest " Ops " 7)), .join root.id 5,
      .call root (.partialUpdate 1 { noEdit with filters := some [.leaf .host [8]] }),
      .call root (.partialUpdate 1 { noEdit with contacts := some [9] })]
    let w := smallWorld.after none events
    w.store.rules.map (fun r => (r.name, r.formattedName, r.contacts.toList)) =
        [("Ops", "ops", [root.id])] ∧
      w.store.rules.map (·.filters.map (·.toDraft)) = [[.leaf .host [8]]] ∧
        smallWorld.store.Fresh ∧
          (∀ r ∈ w.store.rules, r.WellFormed w) ∧ smallWorld.SameReferents w := by
  intro events w
  have hfresh : smallWorld.store.Fresh := ⟨rfl, rfl⟩
  exact ⟨by rfl, by rfl, hfresh, wellFormed_after_runs none events hfresh⟩

end AccessScope
