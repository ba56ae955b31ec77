import AccessScope.Proofs.EditLaws
import AccessScope.Proofs.TermFaults
import AccessScope.Proofs.Words

/-!
# Fields and terms

Names and descriptions are checked twice: the fields of a request as they were sent, and the terms
of the rule with the name as it will be compared. The two do not measure the same thing. A field is
refused for having no characters at all, white space counting as one, while the terms are refused
for what is left of the name in its formatted form. This file shows that the checks of the fields
never go beyond those of the terms, but for the one thing that only they look at: whether there are
filters. And since the checks of the fields set no limit to the length of a name, white space around
it cannot make a request fail.

## Key results

- `ChangeRequest.eq_noFilters_of_acceptable`: where terms are acceptable, only missing filters are
- `RuleRequest.toContent_of_pads`, `Rule.fst_edited_of_pads`: white space around a name makes no
  difference
- `RuleRequest.not_blamesName`, `Rule.not_blamesName`: a name within the limit is never to blame
- `fields_agree_with_terms`: all of this, for both kinds of requests
-/

namespace AccessScope

/-! ## Padded names -/

namespace RuleName

/-- The first text is the second with white space around it. -/
def Pads (padded name : String) : Prop :=
  ∃ before after : String, (∀ c ∈ before.toList, Text.isBlank c) ∧
    (∀ c ∈ after.toList, Text.isBlank c) ∧ padded = before ++ name ++ after

/-- What is left of the name in its formatted form is neither nothing nor too long. -/
def WithinLimit (name : String) : Prop :=
  1 ≤ (formatted name).length ∧ (formatted name).length ≤ 255

variable {padded name : String}

theorem Pads.trimmed_eq (h : Pads padded name) : trimmed padded = trimmed name := by
  obtain ⟨before, after, hbefore, hafter, rfl⟩ := h
  rw [trimmed, String.toList_append, String.toList_append, Text.trim_pad hbefore hafter]
  rfl

theorem Pads.formatted_eq (h : Pads padded name) : formatted padded = formatted name := by
  rw [← formatted_trimmed, h.trimmed_eq, formatted_trimmed]

theorem Pads.withinLimit (h : Pads padded name) (hname : WithinLimit name) :
    WithinLimit padded := by
  rwa [WithinLimit, h.formatted_eq]

theorem WithinLimit.ne_empty (h : WithinLimit name) : name ≠ "" := by
  rintro rfl
  exact absurd h.1 (by decide)

end RuleName

/-! ## Refused fields -/

namespace ChangeRequest

/-- Which name is set makes no difference to the fields that are refused, unless it is empty. -/
theorem fieldFaults_rename {r : ChangeRequest} {name other : String} (hname : r.name = some name)
    (hne : name ≠ "") (hother : other ≠ "") :
    fieldFaults { r with name := some other } = r.fieldFaults := by
  simp [fieldFaults, hname, hne, hother]

/-- Where the terms are acceptable after an edit, none of the fields that it sets is refused but for
    having no filters. -/
theorem eq_noFilters_of_acceptable {r : ChangeRequest} {c : RuleChanges} {t : RuleTerms}
    {f : FieldFault} (hchanges : r.toChanges = .ok c) (h : (c.applyTo t).Acceptable)
    (hf : f ∈ r.fieldFaults) : f = .noFilters := by
  obtain ⟨_, heq⟩ := toChanges_eq_ok_iff.1 hchanges
  have hhas := mem_fieldFaults_iff.1 hf
  cases f with
  | noFilters => rfl
  | descriptionTooLong =>
    -- both limits are the same number of characters
    obtain ⟨text, htext, hlong⟩ := hhas
    have hset : (c.applyTo t).description = text := by
      rw [heq, RuleChanges.applyTo, Option.mem_def.1 htext]
      rfl
    have hle := h.description_length_le
    rw [hset] at hle
    omega
  | emptyName =>
    -- nothing is left of an empty name when it is formatted
    have hset : (c.applyTo t).name = "" := by
      rw [heq, RuleChanges.applyTo, show r.name = some "" from hhas]
      rfl
    have hne := h.name_ne_empty
    rw [hset] at hne
    exact absurd (by decide) hne

/-- So a field is refused exactly if no filters are set. -/
theorem fieldFaults_ne_nil_iff_of_acceptable {r : ChangeRequest} {c : RuleChanges} {t : RuleTerms}
    (hchanges : r.toChanges = .ok c) (h : (c.applyTo t).Acceptable) :
    r.fieldFaults ≠ [] ↔ r.filters = some [] := by
  constructor
  · intro hne
    obtain ⟨f, hf⟩ := List.exists_mem_of_ne_nil _ hne
    obtain rfl := eq_noFilters_of_acceptable hchanges h hf
    exact mem_fieldFaults_iff.1 hf
  · intro hnone
    exact List.ne_nil_of_mem (mem_fieldFaults_iff (f := .noFilters).2 hnone)

/-- And an edit is not acceptable if a name or a description is refused. -/
theorem not_acceptable_of_text {r : ChangeRequest} {c : RuleChanges} (t : RuleTerms)
    (hchanges : r.toChanges = .ok c)
    (h : ∃ f ∈ r.fieldFaults, f.field ∈ ["name", "description"]) :
    ¬ (c.applyTo t).Acceptable := by
  obtain ⟨f, hf, hfield⟩ := h
  intro hacceptable
  obtain rfl := eq_noFilters_of_acceptable hchanges hacceptable hf
  exact absurd hfield (by decide)

end ChangeRequest

/-! ## Requests with padded names -/

/-- Padding a name makes no difference to the content that terms become. -/
theorem RuleContent.ofTerms_of_pads {t : RuleTerms} {padded : String}
    (hpads : RuleName.Pads padded t.name) (hlimit : RuleName.WithinLimit t.name) :
    ofTerms { t with name := padded } = ofTerms t := by
  -- both are the content of the trimmed terms, which a name within the limit may be replaced by
  have htrimmed := ofTerms_trimmed (t := { t with name := padded }) (hpads.withinLimit hlimit).2
  rw [← htrimmed, ← ofTerms_trimmed (t := t) hlimit.2]
  simp only [hpads.trimmed_eq]

/-- The terms of a request are an edit that sets every term. -/
theorem RuleRequest.toChanges_of_toTerms (r : RuleRequest) {t : RuleTerms} (h : r.toTerms = .ok t) :
    r.toChangeRequest.toChanges = .ok t.toChanges := by
  rw [toChanges_toChangeRequest, h]
  rfl

theorem RuleRequest.toTerms_rename (r : RuleRequest) (name : String) :
    toTerms { r with name } = (fun t => { t with name }) <$> r.toTerms := by
  unfold toTerms
  cases r.filters.mapM Filter.ofDraft <;> rfl

/-- Nor does it make one to what is made of a request. -/
theorem RuleRequest.toContent_of_pads {r : RuleRequest} {padded : String}
    (hpads : RuleName.Pads padded r.name) (hlimit : RuleName.WithinLimit r.name) :
    toContent { r with name := padded } = r.toContent := by
  have hfields : fieldFaults { r with name := padded } = r.fieldFaults :=
    ChangeRequest.fieldFaults_rename (r := r.toChangeRequest) rfl hlimit.ne_empty
      (hpads.withinLimit hlimit).ne_empty
  -- up to the check of the terms nothing but the fields is looked at
  unfold toContent checkedTerms
  rw [hfields, toTerms_rename]
  cases requireFields r.fieldFaults with
  | error failure => rfl
  | ok _ =>
    cases ht : r.toTerms with
    | error fault => rfl
    | ok t =>
      rw [← name_of_toTerms ht] at hpads hlimit
      have hsame := RuleContent.ofTerms_of_pads hpads hlimit
      simp only [bind, Except.bind, Functor.map, Except.map, Except.mapError, hsame]

theorem ChangeRequest.toChanges_rename (r : ChangeRequest) (name : Option String) :
    toChanges { r with name } = (fun c => { c with name }) <$> r.toChanges := by
  unfold toChanges
  cases r.filters.mapM (·.mapM Filter.ofDraft) <;> rfl

/-- Padding the name that an edit sets makes no difference to the rule. -/
theorem Rule.merge_of_pads {current : Rule} {c : RuleChanges} {name padded : String}
    (hname : c.name = some name) (hpads : RuleName.Pads padded name)
    (hlimit : RuleName.WithinLimit name) :
    current.merge { c with name := some padded } = current.merge c := by
  have hset : (c.applyTo current.terms).name = name := by
    rw [RuleChanges.applyTo, hname]
    rfl
  have hterms : RuleChanges.applyTo { c with name := some padded } current.terms =
      { c.applyTo current.terms with name := padded } := rfl
  rw [← hset] at hpads hlimit
  rw [merge, merge, replace, replace, ofTerms, ofTerms, hterms,
    RuleContent.ofTerms_of_pads hpads hlimit]

/-- Nor to what is made of the request. -/
theorem Rule.fst_edited_of_pads {current : Rule} {r : ChangeRequest} {name padded : String}
    (hname : r.name = some name) (hpads : RuleName.Pads padded name)
    (hlimit : RuleName.WithinLimit name) :
    Prod.fst <$> current.edited { r with name := some padded } =
      Prod.fst <$> current.edited r := by
  have hfields : ChangeRequest.fieldFaults { r with name := some padded } = r.fieldFaults :=
    ChangeRequest.fieldFaults_rename hname hlimit.ne_empty (hpads.withinLimit hlimit).ne_empty
  unfold edited ChangeRequest.checkedChanges
  rw [hfields, ChangeRequest.toChanges_rename]
  cases requireFields r.fieldFaults with
  | error failure => rfl
  | ok _ =>
    cases hc : r.toChanges with
    | error fault => rfl
    | ok c =>
      rw [← ChangeRequest.name_of_toChanges hc] at hname
      have hsame : current.merge { c with name := some padded } = current.merge c :=
        merge_of_pads hname hpads hlimit
      simp only [bind, Except.bind, Functor.map, Except.map, Except.mapError, hsame]
      cases current.merge c <;> rfl

/-- To replace a rule by what a request asks for is to give its id to the content made of that. -/
theorem Rule.replaced_eq_map (current : Rule) (r : RuleRequest) :
    current.replaced r = (·.withId current.id) <$> r.toContent := by
  unfold replaced RuleRequest.toContent
  cases r.checkedTerms with
  | error failure => rfl
  | ok t =>
    simp only [bind, Except.bind, replace, ofTerms]
    cases RuleContent.ofTerms t <;> rfl

/-- So padding the name makes no difference to that either. -/
theorem Rule.replaced_of_pads {current : Rule} {r : RuleRequest} {padded : String}
    (hpads : RuleName.Pads padded r.name) (hlimit : RuleName.WithinLimit r.name) :
    current.replaced { r with name := padded } = current.replaced r := by
  rw [replaced_eq_map, replaced_eq_map, RuleRequest.toContent_of_pads hpads hlimit]

/-- A request that is refused before it becomes the content of a rule replaces none. -/
theorem Rule.replaced_of_error (current : Rule) {r : RuleRequest} {failure : Failure}
    (h : r.toContent = .error failure) : current.replaced r = .error failure := by
  rw [replaced_eq_map, h]
  rfl

theorem Rule.replace_eq_error_iff {r : Rule} {t : RuleTerms} {fault : RuleFault} :
    r.replace t = .error fault ↔ t.check = .error fault := by
  rw [← RuleContent.ofTerms_eq_error_iff, replace, ofTerms]
  cases RuleContent.ofTerms t <;> simp [Except.map]

/-! ## Failures that blame a name -/

/-- The failure says that the name of a request is to blame. -/
def Failure.BlamesName : Failure → Prop
  | badFields faults => .emptyName ∈ faults
  | badRule .emptyName | badRule (.nameTooLong _) => True
  | _ => False

/-- Terms whose name is within the limit are not refused for it. -/
theorem RuleTerms.not_blamesName {t : RuleTerms} {fault : RuleFault}
    (hlimit : RuleName.WithinLimit t.name) (h : t.check = .error fault) :
    ¬ (Failure.badRule fault).BlamesName := by
  have hhas := (check_eq_error_iff.1 h).1
  obtain ⟨hpos, hle⟩ := hlimit
  cases fault with
  | emptyName =>
    have : (RuleName.formatted t.name).length = 0 := hhas
    omega
  | nameTooLong name =>
    have : 255 < (RuleName.formatted t.name).length := hhas.2
    omega
  | _ => exact not_false

/-- Nor are the fields of a request. -/
theorem ChangeRequest.not_blamesName {r : ChangeRequest} {failure : Failure}
    (hlimit : ∀ name ∈ r.name, RuleName.WithinLimit name)
    (h : requireFields r.fieldFaults = .error failure) : ¬ failure.BlamesName := by
  cases hfaults : r.fieldFaults with
  | nil => simp [hfaults, requireFields] at h
  | cons f faults =>
    rw [hfaults] at h
    cases h
    intro hblames
    have hempty : r.name = some "" := mem_fieldFaults_iff (f := .emptyName).1 (hfaults ▸ hblames)
    exact (hlimit "" hempty).ne_empty rfl

/-- So an edit that sets a name within the limit may fail, but not for the name. -/
theorem Rule.not_blamesName {current : Rule} {r : ChangeRequest} {failure : Failure} {name : String}
    (hname : r.name = some name) (hlimit : RuleName.WithinLimit name)
    (h : current.edited r = .error failure) : ¬ failure.BlamesName := by
  obtain hchanges | ⟨c, hchanges, hmerged⟩ := bind_eq_error_iff.1 h
  · obtain hfields | ⟨_, _, hdrafts⟩ := bind_eq_error_iff.1 hchanges
    · refine ChangeRequest.not_blamesName (fun set hset => ?_) hfields
      rw [hname] at hset
      cases hset
      exact hlimit
    · obtain ⟨_, _, rfl⟩ := mapError_eq_error_iff.1 hdrafts
      exact not_false
  · obtain hrule | ⟨_, _, hpure⟩ := bind_eq_error_iff.1 hmerged
    · obtain ⟨fault, hfault, rfl⟩ := mapError_eq_error_iff.1 hrule
      -- the terms after the edit have the name that it sets
      have hset : (c.applyTo current.terms).name = name := by
        obtain ⟨_, _, hmade⟩ := bind_eq_ok_iff.1 hchanges
        rw [RuleChanges.applyTo,
          ChangeRequest.name_of_toChanges (mapError_eq_ok_iff.1 hmade), hname]
        rfl
      exact RuleTerms.not_blamesName (hset ▸ hlimit) (replace_eq_error_iff.1 hfault)
    · cases hpure

/-- Nor does a request that sets every field. -/
theorem RuleRequest.not_blamesName {current : Rule} {r : RuleRequest} {failure : Failure}
    (hlimit : RuleName.WithinLimit r.name) (h : current.replaced r = .error failure) :
    ¬ failure.BlamesName := by
  rw [← Rule.fst_edited_toChangeRequest, map_eq_error_iff] at h
  exact Rule.not_blamesName rfl hlimit h

/-! ## Both kinds of requests -/

/-- The checks of the fields agree with those of the terms. Where terms are made of a request and
    accepted, a field is refused exactly if the request has no filters, and where an edit is merged
    into a rule, exactly if it sets no filters. So where a name or a description is refused, the
    terms are refused as well. And a name that is within the limit in its formatted form may have
    any white space around it: the same is made of the request, and if it fails, it is not for its
    name. -/
theorem fields_agree_with_terms (request : RuleRequest) (edit : ChangeRequest) (current : Rule) :
    (∀ terms content, request.toTerms = .ok terms → RuleContent.ofTerms terms = .ok content →
        (request.fieldFaults ≠ [] ↔ request.filters = [])) ∧
      (∀ changes merged, edit.toChanges = .ok changes → current.merge changes = .ok merged →
        (edit.fieldFaults ≠ [] ↔ edit.filters = some [])) ∧
      (∀ terms, request.toTerms = .ok terms →
        (∃ f ∈ request.fieldFaults, f.field ∈ ["name", "description"]) →
          ∃ fault, RuleContent.ofTerms terms = .error fault) ∧
      (∀ changes, edit.toChanges = .ok changes →
        (∃ f ∈ edit.fieldFaults, f.field ∈ ["name", "description"]) →
          ∃ fault, current.merge changes = .error fault) ∧
      (∀ padded, RuleName.Pads padded request.name → RuleName.WithinLimit request.name →
        let sent := { request with name := padded }
        sent.toContent = request.toContent ∧ current.replaced sent = current.replaced request ∧
          ∀ failure, sent.toContent = .error failure ∨ current.replaced sent = .error failure →
            ¬ failure.BlamesName) ∧
      ∀ name padded, edit.name = some name → RuleName.Pads padded name →
        RuleName.WithinLimit name →
          let sent := { edit with name := some padded }
          Prod.fst <$> current.edited sent = Prod.fst <$> current.edited edit ∧
            ∀ failure, current.edited sent = .error failure → ¬ failure.BlamesName := by
  refine ⟨fun terms content hterms hcontent => ?_, fun changes merged hchanges hmerged => ?_,
    fun terms hterms hrefused => ?_, fun changes hchanges hrefused => ?_,
    fun padded hpads hlimit => ?_, fun name padded hname hpads hlimit => ?_⟩
  · -- a request is an edit of every field, whatever the terms were before
    have hacceptable := RuleContent.exists_ofTerms_iff.1 ⟨content, hcontent⟩
    have hchanges := request.toChanges_of_toTerms hterms
    rw [RuleRequest.fieldFaults,
      ChangeRequest.fieldFaults_ne_nil_iff_of_acceptable (t := terms) hchanges hacceptable]
    simp [RuleRequest.toChangeRequest]
  · exact ChangeRequest.fieldFaults_ne_nil_iff_of_acceptable hchanges
      (Rule.exists_merge_iff.1 ⟨merged, hmerged⟩)
  · have hchanges := request.toChanges_of_toTerms hterms
    have hbad := ChangeRequest.not_acceptable_of_text terms hchanges hrefused
    exact exists_eq_error_of_not RuleContent.exists_ofTerms_iff hbad
  · have hbad := ChangeRequest.not_acceptable_of_text current.terms hchanges hrefused
    exact exists_eq_error_of_not Rule.exists_merge_iff hbad
  · intro sent
    have hsent : RuleName.WithinLimit sent.name := hpads.withinLimit hlimit
    refine ⟨RuleRequest.toContent_of_pads hpads hlimit, Rule.replaced_of_pads hpads hlimit,
      fun failure hfailed => ?_⟩
    have hreplaced : current.replaced sent = .error failure :=
      hfailed.elim (current.replaced_of_error ·) id
    exact RuleRequest.not_blamesName hsent hreplaced
  · intro sent
    have hsent : sent.name = some padded := rfl
    exact ⟨Rule.fst_edited_of_pads hname hpads hlimit, fun failure hfailed =>
      Rule.not_blamesName hsent (hpads.withinLimit hlimit) hfailed⟩

/-- A rule may have no filters, but no request may ask for that. An edit that takes away the name is
    refused by the rule as well, and white space around a new name makes no difference. -/
theorem fields_agree_with_terms_bare_and_padded :
    let bare : RuleRequest := { hostRequest "Ops" 7 with filters := [] }
    let clear : ChangeRequest := { noEdit with filters := some [] }
    let unname : ChangeRequest := { noEdit with name := some "" }
    let rename : ChangeRequest := { noEdit with name := some "Dev" }
    ∃ terms content current, bare.toTerms = .ok terms ∧ RuleContent.ofTerms terms = .ok content ∧
      current = content.withId 1 ∧ bare.fieldFaults ≠ [] ∧ clear.fieldFaults ≠ [] ∧
        (∃ changes fault, unname.toChanges = .ok changes ∧ current.merge changes = .error fault) ∧
          RuleRequest.toContent { bare with name := "\u2003Ops\n" } = bare.toContent ∧
            Prod.fst <$> current.edited { rename with name := some " Dev\t" } =
              Prod.fst <$> current.edited rename := by
  intro bare clear unname rename
  let terms : RuleTerms := ⟨"Ops", "", true, .ofList [root.id], ∅, []⟩
  have hterms : bare.toTerms = .ok terms := rfl
  obtain ⟨content, hcontent⟩ := RuleContent.exists_ofTerms_iff.2
    (RuleTerms.check_eq_ok_iff.1 (show terms.check = .ok () by decide +kernel))
  let current := content.withId 1
  have hbare : bare.fieldFaults ≠ [] :=
    ((fields_agree_with_terms bare clear current).1 terms content hterms hcontent).2 rfl
  -- an edit that takes all filters away can be merged
  let cleared : RuleChanges := { RuleChanges.none with filters := some [] }
  have hcurrent : current.terms = terms :=
    (RuleContent.fields_of_ofTerms hcontent).1.trans (by decide +kernel)
  obtain ⟨merged, hmerged⟩ := (Rule.exists_merge_iff (r := current) (p := cleared)).2
    (RuleTerms.check_eq_ok_iff.1 (by rw [hcurrent]; decide +kernel))
  have hclear : clear.fieldFaults ≠ [] :=
    ((fields_agree_with_terms bare clear current).2.1 cleared merged rfl hmerged).2 rfl
  let renamed : RuleChanges := { RuleChanges.none with name := some "" }
  obtain ⟨fault, hunname⟩ := (fields_agree_with_terms bare unname current).2.2.2.1 renamed rfl
    ⟨.emptyName, by decide, by decide⟩
  obtain ⟨_, _, _, _, hpadded, hrenamed⟩ := fields_agree_with_terms bare rename current
  have hblank : Text.isBlank '\u2003' ∧ Text.isBlank '\n' ∧ Text.isBlank ' ' ∧
      Text.isBlank '\t' := by
    decide
  have hops : RuleName.Pads "\u2003Ops\n" "Ops" :=
    ⟨"\u2003", "\n", by simp [hblank], by simp [hblank], rfl⟩
  have hdev : RuleName.Pads " Dev\t" "Dev" := ⟨" ", "\t", by simp [hblank], by simp [hblank], rfl⟩
  have hlimits : RuleName.WithinLimit "Ops" ∧ RuleName.WithinLimit "Dev" := by
    unfold RuleName.WithinLimit
    decide +kernel
  exact ⟨terms, content, current, hterms, hcontent, rfl, hbare, hclear,
    ⟨renamed, fault, rfl, hunname⟩, (hpadded _ hops hlimits.1).1,
    (hrenamed _ _ rfl hdev hlimits.2).1⟩

end AccessScope
