import AccessScope.UseCase.Intake

/-!
# What becomes of a request

A request is taken in by a sequence of checks that each may refuse it. This file says when none of
them does, and what the rule then holds, so that later proofs need not follow the sequence.

## Key results

- `Filter.mapM_ofDraft_eq_ok_iff`: drafts become the filters that have their settled chains
- `ChangeRequest.mem_fieldFaults_iff`: which fields are refused
- `RuleRequest.toContent_eq_ok_iff`, `Rule.replaced_eq_ok_iff`, `Rule.edited_eq_ok_iff`: when a
  request is taken in
- `ChangeRequest.makes_of_merge`: what a merged rule holds, field by field
- `RuleRequest.kind_of_toContent`: a request that is not taken in is refused as invalid
-/

namespace AccessScope

/-! ## Results that may be failures -/

/-- A sequence of checks passes exactly if each passes in turn. -/
theorem bind_eq_ok_iff {ε α β : Type} {a : Except ε α} {f : α → Except ε β} {b : β} :
    (a >>= f) = .ok b ↔ ∃ x, a = .ok x ∧ f x = .ok b := by
  cases a <;> simp [bind, Except.bind]

/-- A sequence of checks fails at the first one that does. -/
theorem bind_eq_error_iff {ε α β : Type} {a : Except ε α} {f : α → Except ε β} {e : ε} :
    (a >>= f) = .error e ↔ a = .error e ∨ ∃ x, a = .ok x ∧ f x = .error e := by
  cases a <;> simp [bind, Except.bind]

/-- All values that a result may have are one value that it has. -/
theorem exists_and_forall_ok_iff {ε α : Type} {a : Except ε α} {P : α → Prop} :
    (∃ x, a = .ok x) ∧ (∀ x, a = .ok x → P x) ↔ ∃ x, a = .ok x ∧ P x := by
  cases a <;> simp

/-- Where there is a value only if something holds, and it does not, there is a failure. -/
theorem exists_eq_error_of_not {ε α : Type} {a : Except ε α} {P : Prop}
    (hok : (∃ x, a = .ok x) ↔ P) (h : ¬ P) : ∃ e, a = .error e := by
  cases a with
  | ok x => exact absurd (hok.1 ⟨x, rfl⟩) h
  | error e => exact ⟨e, rfl⟩

theorem map_eq_ok_iff {ε α β : Type} {a : Except ε α} {f : α → β} {b : β} :
    (f <$> a) = .ok b ↔ ∃ x, a = .ok x ∧ f x = b := by
  cases a <;> simp [Functor.map, Except.map]

theorem map_eq_error_iff {ε α β : Type} {a : Except ε α} {f : α → β} {e : ε} :
    (f <$> a) = .error e ↔ a = .error e := by
  cases a <;> simp [Functor.map, Except.map]

theorem mapError_eq_ok_iff {ε δ α : Type} {a : Except ε α} {f : ε → δ} {x : α} :
    a.mapError f = .ok x ↔ a = .ok x := by
  cases a with
  | error e => exact ⟨nofun, nofun⟩
  | ok y =>
    show (Except.ok y : Except δ α) = .ok x ↔ _
    simp

theorem mapError_eq_error_iff {ε δ α : Type} {a : Except ε α} {f : ε → δ} {d : δ} :
    a.mapError f = .error d ↔ ∃ e, a = .error e ∧ f e = d := by
  cases a with
  | ok y => exact ⟨nofun, nofun⟩
  | error e =>
    show Except.error (f e) = .error d ↔ _
    simp

/-! ## Drafts -/

namespace Filter

/-- A draft becomes a filter exactly if it passes its check. -/
theorem exists_ofDraft_iff {draft : Draft} :
    (∃ f, ofDraft draft = .ok f) ↔ draft.check = .ok () := by
  rw [Draft.check_eq_ok_iff]
  constructor
  · intro ⟨f, hf⟩
    rw [← ofDraft_eq_ok_iff.1 hf]
    exact f.lawful
  · intro h
    exact ⟨⟨draft.settled, h⟩, ofDraft_eq_ok_iff.2 rfl⟩

/-- Drafts become the filters that have their settled chains, one by one. -/
theorem mapM_ofDraft_eq_ok_iff {drafts : List Draft} {filters : List Filter} :
    drafts.mapM ofDraft = .ok filters ↔ filters.map (·.chain) = drafts.map Draft.settled := by
  -- one draft that is refused leaves no filters at all, so both sides go through the drafts in step
  induction drafts generalizing filters with
  | nil => cases filters <;> simp [pure, Except.pure]
  | cons draft drafts ih =>
    simp only [List.mapM_cons, bind_eq_ok_iff, ofDraft_eq_ok_iff, ih]
    constructor
    · intro ⟨f, hf, rest, hrest, heq⟩
      cases heq
      simp [hf, hrest]
    · intro h
      cases filters with
      | nil => simp at h
      | cons f rest =>
        obtain ⟨hf, hrest⟩ := List.cons.inj h
        exact ⟨f, hf, rest, hrest, rfl⟩

/-- Drafts become filters exactly if each of them passes its check. -/
theorem exists_mapM_ofDraft_iff {drafts : List Draft} :
    (∃ filters, drafts.mapM ofDraft = .ok filters) ↔ ∀ draft ∈ drafts, draft.check = .ok () := by
  induction drafts with
  | nil => simp [pure, Except.pure]
  | cons draft drafts ih =>
    rw [List.forall_mem_cons, ← ih, ← exists_ofDraft_iff]
    simp only [List.mapM_cons, bind_eq_ok_iff]
    constructor
    · intro ⟨_, f, hf, rest, hrest, _⟩
      exact ⟨⟨f, hf⟩, rest, hrest⟩
    · intro ⟨⟨f, hf⟩, rest, hrest⟩
      exact ⟨f :: rest, f, hf, rest, hrest, rfl⟩

/-- What holds of the ids of every level holds for the filters as for their drafts. -/
theorem forall_levels_iff {drafts : List Draft} {filters : List Filter}
    (h : drafts.mapM ofDraft = .ok filters) (P : Category → Id → Prop) :
    (∀ f ∈ filters, ∀ level ∈ f.levels, ∀ id ∈ level.2, P level.1 id) ↔
      ∀ draft ∈ drafts, ∀ level ∈ draft.levels, ∀ id ∈ level.2, P level.1 id := by
  have hchains := mapM_ofDraft_eq_ok_iff.1 h
  calc (∀ f ∈ filters, ∀ level ∈ f.levels, ∀ id ∈ level.2, P level.1 id)
    _ ↔ ∀ chain ∈ filters.map (·.chain), ∀ level ∈ chain.levels, ∀ id ∈ level.2, P level.1 id := by
        rw [List.forall_mem_map]
        rfl
    _ ↔ ∀ chain ∈ drafts.map Draft.settled, ∀ level ∈ chain.levels, ∀ id ∈ level.2,
          P level.1 id := by
        rw [hchains]
    _ ↔ ∀ draft ∈ drafts, ∀ level ∈ draft.levels, ∀ id ∈ level.2, P level.1 id := by
        simp only [List.forall_mem_map, Draft.settled, Chain.levels_map, IdSet.mem_ofList]

theorem length_of_mapM_ofDraft {drafts : List Draft} {filters : List Filter}
    (h : drafts.mapM ofDraft = .ok filters) : filters.length = drafts.length := by
  simpa using congrArg List.length (mapM_ofDraft_eq_ok_iff.1 h)

end Filter

/-! ## Terms -/

namespace RuleContent

/-- What a content made from terms holds: all of them, with the name trimmed. -/
theorem fields_of_ofTerms {t : RuleTerms} {c : RuleContent} (h : ofTerms t = .ok c) :
    c.terms = { t with name := RuleName.trimmed t.name } ∧
      c.formattedName = RuleName.formatted t.name := by
  obtain ⟨_, hterms⟩ := ofTerms_eq_ok_iff.1 h
  refine ⟨hterms, ?_⟩
  -- a content has the formatted form of its own name, and trimming did not change that
  rw [c.formattedName_eq, show c.name = RuleName.trimmed t.name from congrArg RuleTerms.name hterms,
    RuleName.formatted_trimmed]

/-- Something is made of terms exactly if they are acceptable. -/
theorem exists_ofTerms_iff {t : RuleTerms} : (∃ c, ofTerms t = .ok c) ↔ t.Acceptable := by
  constructor
  · intro ⟨c, hc⟩
    exact (ofTerms_eq_ok_iff.1 hc).1
  · intro h
    cases hmade : ofTerms t with
    | ok c => exact ⟨c, rfl⟩
    -- what is refused has a fault, and acceptable terms have none
    | error fault =>
      rw [ofTerms_eq_error_iff, RuleTerms.check_eq_ok_iff.2 h] at hmade
      cases hmade

end RuleContent

/-- A replaced rule is what its new terms say, under the old id. -/
theorem Rule.replace_eq_ok_iff {r next : Rule} {t : RuleTerms} :
    r.replace t = .ok next ↔ ∃ c, RuleContent.ofTerms t = .ok c ∧ next = c.withId r.id := by
  unfold Rule.replace Rule.ofTerms
  cases RuleContent.ofTerms t <;> simp [Except.map, eq_comm]

/-- What a replaced rule holds: the new terms, with the name trimmed. -/
theorem Rule.fields_of_replace {r next : Rule} {t : RuleTerms} (h : r.replace t = .ok next) :
    next.terms = { t with name := RuleName.trimmed t.name } ∧
      next.formattedName = RuleName.formatted t.name := by
  obtain ⟨c, hc, rfl⟩ := replace_eq_ok_iff.1 h
  exact RuleContent.fields_of_ofTerms hc

theorem Rule.id_of_replace {r next : Rule} {t : RuleTerms} (h : r.replace t = .ok next) :
    next.id = r.id := by
  obtain ⟨c, _, rfl⟩ := replace_eq_ok_iff.1 h
  rfl

/-! ## Fields -/

namespace ChangeRequest

/-- The field of the request has this fault. -/
def Has (r : ChangeRequest) : FieldFault → Prop
  | .noFilters => r.filters = some []
  | .descriptionTooLong => ∃ text ∈ r.description, RuleTerms.maxDescriptionLength < text.length
  | .emptyName => r.name = some ""

/-- The fields are refused for the faults that they have. -/
theorem mem_fieldFaults_iff {r : ChangeRequest} {f : FieldFault} : f ∈ r.fieldFaults ↔ r.Has f := by
  obtain ⟨name, description, _, _, _, filters⟩ := r
  have hfilters : filters.any (·.isEmpty) ↔ filters = some [] := by
    cases filters <;> simp
  have hdescription : description.any (RuleTerms.maxDescriptionLength < ·.length) ↔
      ∃ text ∈ description, RuleTerms.maxDescriptionLength < text.length := by
    cases description <;> simp
  have hname : name.any (· = "") ↔ name = some "" := by
    cases name <;> simp
  -- each of the three lists holds one fault at most, and no two of them the same
  simp only [fieldFaults, hfilters, hdescription, hname]
  cases f with
  | noFilters => simp [Has]
  | descriptionTooLong => simp [Has]
  | emptyName => simp [Has]

/-- No field is refused exactly if there is a filter, the description is not too long and the name
    not empty, as far as they are set. -/
theorem fieldFaults_eq_nil_iff {r : ChangeRequest} :
    r.fieldFaults = [] ↔ (∀ drafts ∈ r.filters, drafts ≠ []) ∧
      (∀ text ∈ r.description, text.length ≤ RuleTerms.maxDescriptionLength) ∧
        ∀ name ∈ r.name, name ≠ "" := by
  simp only [List.eq_nil_iff_forall_not_mem, mem_fieldFaults_iff]
  constructor
  · intro hnone
    refine ⟨?_, fun text htext => ?_, ?_⟩
    · rintro _ hdrafts rfl
      exact hnone .noFilters hdrafts
    · exact Nat.le_of_not_lt fun hlong => hnone .descriptionTooLong ⟨text, htext, hlong⟩
    · rintro _ hname rfl
      exact hnone .emptyName hname
  · intro ⟨hfilters, hdescription, hname⟩ f hf
    cases f with
    | noFilters => exact hfilters [] hf rfl
    | descriptionTooLong =>
      obtain ⟨text, htext, hlong⟩ := hf
      exact absurd hlong (Nat.not_lt.2 (hdescription text htext))
    | emptyName => exact hname "" hf rfl

end ChangeRequest

theorem requireFields_eq_ok_iff {faults : List FieldFault} {u : Unit} :
    requireFields faults = .ok u ↔ faults = [] := by
  cases faults <;> simp [requireFields]

/-! ## Requests that set every field -/

/-- What a request asks for, with its drafts as filters. -/
theorem RuleRequest.toTerms_eq_ok_iff {r : RuleRequest} {t : RuleTerms} :
    r.toTerms = .ok t ↔ r.filters.mapM Filter.ofDraft = .ok t.filters ∧
      t = ⟨r.name, r.description, r.isEnabled, .ofList r.contacts, .ofList r.contactGroups,
        t.filters⟩ := by
  unfold RuleRequest.toTerms
  rw [bind_eq_ok_iff]
  constructor
  · intro ⟨filters, hfilters, ht⟩
    cases ht
    exact ⟨hfilters, rfl⟩
  · intro ⟨hfilters, ht⟩
    exact ⟨t.filters, hfilters, congrArg Except.ok ht.symm⟩

theorem RuleRequest.name_of_toTerms {r : RuleRequest} {t : RuleTerms} (h : r.toTerms = .ok t) :
    t.name = r.name := by
  rw [(toTerms_eq_ok_iff.1 h).2]

/-- A request has terms exactly if every draft passes its check. -/
theorem RuleRequest.exists_toTerms_iff {r : RuleRequest} :
    (∃ t, r.toTerms = .ok t) ↔ ∀ draft ∈ r.filters, draft.check = .ok () := by
  rw [← Filter.exists_mapM_ofDraft_iff]
  simp only [toTerms, bind_eq_ok_iff]
  exact ⟨fun ⟨_, filters, h, _⟩ => ⟨filters, h⟩, fun ⟨filters, h⟩ => ⟨_, filters, h, rfl⟩⟩

/-- The terms of a request pass exactly if no field is refused and its drafts become filters. -/
theorem RuleRequest.checkedTerms_eq_ok_iff {r : RuleRequest} {t : RuleTerms} :
    r.checkedTerms = .ok t ↔ r.fieldFaults = [] ∧ r.toTerms = .ok t := by
  simp only [checkedTerms, bind_eq_ok_iff, mapError_eq_ok_iff, requireFields_eq_ok_iff]
  exact ⟨fun ⟨_, hfields, ht⟩ => ⟨hfields, ht⟩, fun ⟨hfields, ht⟩ => ⟨(), hfields, ht⟩⟩

/-- A request becomes the content of a rule exactly if no field is refused, its drafts become
    filters, and its terms are accepted. -/
theorem RuleRequest.toContent_eq_ok_iff {r : RuleRequest} {c : RuleContent} :
    r.toContent = .ok c ↔
      r.fieldFaults = [] ∧ ∃ t, r.toTerms = .ok t ∧ RuleContent.ofTerms t = .ok c := by
  simp only [toContent, bind_eq_ok_iff, mapError_eq_ok_iff, checkedTerms_eq_ok_iff]
  exact ⟨fun ⟨t, ⟨hfields, ht⟩, hc⟩ => ⟨hfields, t, ht, hc⟩,
    fun ⟨hfields, t, ht, hc⟩ => ⟨t, ⟨hfields, ht⟩, hc⟩⟩

/-- A rule is replaced exactly if its request becomes a content, which it then holds. -/
theorem Rule.replaced_eq_ok_iff {current next : Rule} {r : RuleRequest} :
    current.replaced r = .ok next ↔
      r.fieldFaults = [] ∧ ∃ t, r.toTerms = .ok t ∧ current.replace t = .ok next := by
  simp only [replaced, bind_eq_ok_iff, mapError_eq_ok_iff, RuleRequest.checkedTerms_eq_ok_iff]
  exact ⟨fun ⟨t, ⟨hfields, ht⟩, hc⟩ => ⟨hfields, t, ht, hc⟩,
    fun ⟨hfields, t, ht, hc⟩ => ⟨t, ⟨hfields, ht⟩, hc⟩⟩

/-- A rule is replaced under its own id. -/
theorem Rule.id_of_replaced {current next : Rule} {r : RuleRequest}
    (h : current.replaced r = .ok next) : next.id = current.id := by
  obtain ⟨_, t, _, hreplace⟩ := replaced_eq_ok_iff.1 h
  exact id_of_replace hreplace

/-! ## Requests that set some fields -/

/-- What an edit sets, with the drafts of the request as filters. -/
theorem ChangeRequest.toChanges_eq_ok_iff {r : ChangeRequest} {c : RuleChanges} :
    r.toChanges = .ok c ↔ r.filters.mapM (·.mapM Filter.ofDraft) = .ok c.filters ∧
      c = ⟨r.name, r.description, r.isEnabled, r.contacts.map .ofList, r.contactGroups.map .ofList,
        c.filters⟩ := by
  unfold ChangeRequest.toChanges
  rw [bind_eq_ok_iff]
  constructor
  · intro ⟨filters, hfilters, hc⟩
    cases hc
    exact ⟨hfilters, rfl⟩
  · intro ⟨hfilters, hc⟩
    exact ⟨c.filters, hfilters, congrArg Except.ok hc.symm⟩

theorem ChangeRequest.name_of_toChanges {r : ChangeRequest} {c : RuleChanges}
    (h : r.toChanges = .ok c) : c.name = r.name := by
  rw [(toChanges_eq_ok_iff.1 h).2]

/-- A request sets something exactly if every draft that it has passes its check. -/
theorem ChangeRequest.exists_toChanges_iff {r : ChangeRequest} :
    (∃ c, r.toChanges = .ok c) ↔ ∀ drafts ∈ r.filters, ∀ draft ∈ drafts, draft.check = .ok () := by
  have hdrafts : (∃ filters, r.filters.mapM (·.mapM Filter.ofDraft) = .ok filters) ↔
      ∀ drafts ∈ r.filters, ∀ draft ∈ drafts, draft.check = .ok () := by
    cases r.filters with
    -- without drafts there is nothing that could be refused
    | none => simp [pure, Except.pure]
    | some drafts =>
      simp only [Option.mem_some_iff, forall_eq', ← Filter.exists_mapM_ofDraft_iff,
        Option.mapM_some, map_eq_ok_iff]
      exact ⟨fun ⟨_, filters, h, _⟩ => ⟨filters, h⟩, fun ⟨filters, h⟩ => ⟨_, filters, h, rfl⟩⟩
  rw [← hdrafts]
  simp only [toChanges, bind_eq_ok_iff]
  exact ⟨fun ⟨_, filters, h, _⟩ => ⟨filters, h⟩, fun ⟨filters, h⟩ => ⟨_, filters, h, rfl⟩⟩

/-- The filters that an edit sets, if it sets any, are those of the drafts. -/
theorem ChangeRequest.filters_of_toChanges {r : ChangeRequest} {c : RuleChanges}
    (h : r.toChanges = .ok c) :
    r.filters = none ∧ c.filters = none ∨ ∃ drafts filters, r.filters = some drafts ∧
      c.filters = some filters ∧ drafts.mapM Filter.ofDraft = .ok filters := by
  have hfilters := (toChanges_eq_ok_iff.1 h).1
  cases hr : r.filters with
  | none =>
    rw [hr] at hfilters
    exact .inl ⟨rfl, (Except.ok.inj hfilters).symm⟩
  | some drafts =>
    rw [hr, Option.mapM_some, map_eq_ok_iff] at hfilters
    obtain ⟨filters, hdrafts, heq⟩ := hfilters
    exact .inr ⟨drafts, filters, rfl, heq.symm, hdrafts⟩

/-- A rule is edited exactly if no field is refused, the drafts become filters, and the rule can be
    merged with the edit. -/
theorem Rule.edited_eq_ok_iff {current merged : Rule} {r : ChangeRequest} {c : RuleChanges} :
    current.edited r = .ok (merged, c) ↔
      r.fieldFaults = [] ∧ r.toChanges = .ok c ∧ current.merge c = .ok merged := by
  simp only [edited, ChangeRequest.checkedChanges, bind_eq_ok_iff, mapError_eq_ok_iff,
    requireFields_eq_ok_iff]
  constructor
  · intro ⟨changes, ⟨_, hfields, hchanges⟩, rule, hmerge, heq⟩
    cases heq
    exact ⟨hfields, hchanges, hmerge⟩
  · intro ⟨hfields, hchanges, hmerge⟩
    exact ⟨c, ⟨(), hfields, hchanges⟩, merged, hmerge, rfl⟩

theorem Rule.id_of_edited {current merged : Rule} {r : ChangeRequest} {c : RuleChanges}
    (h : current.edited r = .ok (merged, c)) : merged.id = current.id := by
  obtain ⟨_, _, hmerge⟩ := edited_eq_ok_iff.1 h
  exact id_of_replace hmerge

/-! ## What a request makes of a rule -/

/-- What a request makes of the terms of a rule: a field that it sets is as it says, with the name
    trimmed, the ids as sets and the drafts as filters, and a field that it does not set is as it
    was. -/
structure ChangeRequest.Makes (r : ChangeRequest) (before after : RuleTerms) : Prop where
  name : after.name = (r.name.map RuleName.trimmed).getD before.name
  description : after.description = r.description.getD before.description
  isEnabled : after.isEnabled = r.isEnabled.getD before.isEnabled
  contacts : after.contacts = (r.contacts.map .ofList).getD before.contacts
  contactGroups : after.contactGroups = (r.contactGroups.map .ofList).getD before.contactGroups
  filters_set : ∀ drafts ∈ r.filters, after.filters.map (·.chain) = drafts.map Draft.settled
  filters_unset : r.filters = none → after.filters = before.filters

/-- Trimmed terms of a request are what it makes of anything, since it sets every field. -/
theorem RuleRequest.makes_of_toTerms {request : RuleRequest} {t after : RuleTerms}
    (ht : request.toTerms = .ok t) (hafter : after = { t with name := RuleName.trimmed t.name })
    (before : RuleTerms) : request.toChangeRequest.Makes before after := by
  obtain ⟨hfilters, hterms⟩ := toTerms_eq_ok_iff.1 ht
  rw [hterms] at hafter
  subst hafter
  -- nothing of the terms before is left, so the last case cannot arise
  refine ⟨rfl, rfl, rfl, rfl, rfl, fun drafts hdrafts => ?_, nofun⟩
  cases hdrafts
  exact Filter.mapM_ofDraft_eq_ok_iff.1 hfilters

/-- What a merged rule holds, field by field. -/
theorem ChangeRequest.makes_of_merge {request : ChangeRequest} {changes : RuleChanges}
    {current merged : Rule} (hchanges : request.toChanges = .ok changes)
    (hmerge : current.merge changes = .ok merged) :
    request.Makes current.terms merged.terms := by
  obtain ⟨_, heq⟩ := toChanges_eq_ok_iff.1 hchanges
  obtain ⟨hterms, _⟩ := Rule.fields_of_replace hmerge
  have hname : changes.name = request.name := by rw [heq]
  rw [hterms]
  constructor
  · -- a name that stays is trimmed already
    simp only [RuleChanges.applyTo, hname]
    cases request.name with
    | none => exact current.name_trimmed
    | some name => rfl
  · rw [heq]
    rfl
  · rw [heq]
    rfl
  · rw [heq]
    rfl
  · rw [heq]
    rfl
  · intro drafts hdrafts
    obtain ⟨hnone, _⟩ | ⟨_, filters, hsome, hfilters, hmap⟩ := filters_of_toChanges hchanges
    · rw [hnone] at hdrafts
      cases hdrafts
    · rw [hsome] at hdrafts
      cases hdrafts
      -- what is set are the filters that the drafts became
      simpa [RuleChanges.applyTo, hfilters] using Filter.mapM_ofDraft_eq_ok_iff.1 hmap
  · -- without drafts there are no filters to set
    intro hunset
    obtain ⟨_, hnone⟩ | ⟨_, _, hsome, _⟩ := filters_of_toChanges hchanges
    · simp [RuleChanges.applyTo, hnone]
    · rw [hunset] at hsome
      cases hsome

/-! ## Refusals -/

theorem kind_of_requireFields {faults : List FieldFault} {f : Failure}
    (h : requireFields faults = .error f) : f.kind = .validation := by
  cases faults with
  | nil => cases h
  | cons => cases h; rfl

theorem RuleRequest.kind_of_checkedTerms {r : RuleRequest} {f : Failure}
    (h : r.checkedTerms = .error f) : f.kind = .validation := by
  obtain hfields | ⟨_, _, hfilter⟩ := bind_eq_error_iff.1 h
  · exact kind_of_requireFields hfields
  · obtain ⟨_, _, rfl⟩ := mapError_eq_error_iff.1 hfilter
    rfl

/-- A request that is not taken in is refused as invalid. -/
theorem RuleRequest.kind_of_toContent {r : RuleRequest} {f : Failure} (h : r.toContent = .error f) :
    f.kind = .validation := by
  obtain hterms | ⟨_, _, hrule⟩ := bind_eq_error_iff.1 h
  · exact kind_of_checkedTerms hterms
  · obtain ⟨_, _, rfl⟩ := mapError_eq_error_iff.1 hrule
    rfl

theorem Rule.kind_of_replaced {current : Rule} {r : RuleRequest} {f : Failure}
    (h : current.replaced r = .error f) : f.kind = .validation := by
  obtain hterms | ⟨_, _, hrule⟩ := bind_eq_error_iff.1 h
  · exact RuleRequest.kind_of_checkedTerms hterms
  · obtain ⟨_, _, rfl⟩ := mapError_eq_error_iff.1 hrule
    rfl

theorem Rule.kind_of_edited {current : Rule} {r : ChangeRequest} {f : Failure}
    (h : current.edited r = .error f) : f.kind = .validation := by
  obtain hchanges | ⟨_, _, hmerge⟩ := bind_eq_error_iff.1 h
  · obtain hfields | ⟨_, _, hfilter⟩ := bind_eq_error_iff.1 hchanges
    · exact kind_of_requireFields hfields
    · obtain ⟨_, _, rfl⟩ := mapError_eq_error_iff.1 hfilter
      rfl
  · obtain hrule | ⟨_, _, hpure⟩ := bind_eq_error_iff.1 hmerge
    · obtain ⟨_, _, rfl⟩ := mapError_eq_error_iff.1 hrule
      rfl
    · cases hpure

end AccessScope
