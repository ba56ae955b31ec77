import AccessScope.Proofs.EntryChanges
import AccessScope.Proofs.Outcomes

/-!
# Replacing is editing every field

A rule can be replaced as a whole, or some of its fields can be edited. The two operations take
different steps: replacing makes new terms from the request, checks everything that these refer to
and always writes, while an edit is merged into the rule, checks what it sets and writes only if
something changed. This file shows that the second does all that the first can: an edit that sets
every field ends exactly like the replacement, whatever may go wrong on the way. So what is said of
edits holds for both, which a `Revision` puts under one name.

## Key results

- `Rule.fst_edited_toChangeRequest`: a request makes the same of a rule in both ways
- `run_tryPartialUpdate_toChangeRequest`: the steps of both operations end alike
- `Revision.passes_of_noContent`, `Revision.noContent_of_passes`, `Revision.conflict_of_taken`: how
  revisions are answered, and what they leave
- `update_eq_edit_of_every_field`: both operations, in every world that can be reached
-/

namespace AccessScope

/-! ## Edits that set every field -/

/-- The edit that sets every term to what it is here. -/
def RuleTerms.toChanges (t : RuleTerms) : RuleChanges :=
  ⟨t.name, t.description, t.isEnabled, t.contacts, t.contactGroups, t.filters⟩

theorem RuleRequest.toChanges_toChangeRequest (r : RuleRequest) :
    r.toChangeRequest.toChanges = RuleTerms.toChanges <$> r.toTerms := by
  simp only [ChangeRequest.toChanges, toTerms, toChangeRequest, Option.mapM_some]
  cases r.filters.mapM Filter.ofDraft <;> rfl

theorem RuleRequest.checkedChanges_toChangeRequest (r : RuleRequest) :
    r.toChangeRequest.checkedChanges = RuleTerms.toChanges <$> r.checkedTerms := by
  simp only [ChangeRequest.checkedChanges, checkedTerms, toChanges_toChangeRequest, map_bind]
  refine bind_congr fun _ => ?_
  cases r.toTerms <;> rfl

namespace Rule

/-- A request makes the same of a rule, or is refused for the same reason, whether its fields
    replace the terms of the rule or are merged into them. -/
theorem fst_edited_toChangeRequest (current : Rule) (r : RuleRequest) :
    Prod.fst <$> current.edited r.toChangeRequest = current.replaced r := by
  simp only [edited, replaced, RuleRequest.checkedChanges_toChangeRequest, map_bind, map_pure,
    bind_map_left, bind_pure]
  rfl

/-- What such an edit sets are the terms of the request. -/
theorem edited_toChangeRequest_eq_ok_iff {current next : Rule} {r : RuleRequest}
    {changes : RuleChanges} :
    current.edited r.toChangeRequest = .ok (next, changes) ↔ r.fieldFaults = [] ∧
      ∃ t, r.toTerms = .ok t ∧ changes = t.toChanges ∧ current.replace t = .ok next := by
  rw [edited_eq_ok_iff, RuleRequest.toChanges_toChangeRequest, map_eq_ok_iff]
  constructor
  · rintro ⟨hfields, ⟨t, ht, rfl⟩, hmerge⟩
    exact ⟨hfields, t, ht, rfl, hmerge⟩
  · rintro ⟨hfields, t, ht, rfl, hreplace⟩
    exact ⟨hfields, ⟨t, ht, rfl⟩, hreplace⟩

end Rule

/-! ## The steps of both operations -/

/-- An edit that sets every term has all references checked. -/
theorem Manager.requireChangedReferences_toChanges {σ : Type} (m : Manager σ) (t : RuleTerms) :
    m.requireChangedReferences t.toChanges = m.requireReferences t := rfl

/-- The references of a replaced rule are those of its new terms, since only the name is trimmed. -/
theorem Manager.requireReferences_of_replace {σ : Type} (m : Manager σ) {current next : Rule}
    {t : RuleTerms} (h : current.replace t = .ok next) :
    m.requireReferences next.terms = m.requireReferences t := by
  rw [(Rule.fields_of_replace h).1]
  rfl

section

variable {w : World} (accessGroup : Option String) (caller : Contact) (id : Id)

/-- The steps of an edit that sets every field end like those of the replacement: with the same
    failure, or with the same rule written. -/
theorem run_tryPartialUpdate_toChangeRequest (request : RuleRequest)
    (hnames : w.store.NamesDiffer) :
    ((World.manager accessGroup).tryPartialUpdate caller id request.toChangeRequest).run.run w =
      ((World.manager accessGroup).tryUpdate caller id request).run.run w := by
  unfold Manager.tryPartialUpdate Manager.tryUpdate
  -- both take the same steps up to what is made of the rule, and stop at the same ones
  refine run_bind_congr (run_authorize ..) fun _ _ => ?_
  refine run_bind_congr (run_load ..) fun current hget => ?_
  have hcurrent := RuleStore.get_eq_ok_iff.1 hget
  have hreplaced := Rule.fst_edited_toChangeRequest current request
  cases hedited : current.edited request.toChangeRequest with
  | error failure =>
    rw [hedited] at hreplaced
    rw [← hreplaced]
    exact (run_bind_error (run_ofExcept ..)).trans (run_bind_error (run_ofExcept ..)).symm
  | ok edited =>
    obtain ⟨next, changes⟩ := edited
    rw [hedited] at hreplaced
    rw [← hreplaced]
    apply (run_bind_ok (run_ofExcept ..)).trans
    refine Eq.trans ?_ (run_bind_ok (run_ofExcept ..)).symm
    obtain ⟨_, t, _, rfl, hreplace⟩ := Rule.edited_toChangeRequest_eq_ok_iff.1 hedited
    obtain ⟨_, hrun, hfree⟩ :=
      (Checks.requireFreeNameFor accessGroup next hnames hcurrent).exists_run
    refine run_bind_congr hrun fun _ hpassed => ?_
    -- one checks the references that the edit sets, the other those of the new rule
    rw [Manager.requireChangedReferences_toChanges, Manager.requireReferences_of_replace _ hreplace]
    obtain ⟨_, hrun, _⟩ := (Checks.requireReferences accessGroup t w).exists_run
    refine run_bind_congr hrun fun _ _ => ?_
    -- only now they differ, and only if the rule comes out as it went in
    have hid := (Rule.id_of_edited hedited).trans (RuleStore.find?_eq_some_iff.1 hcurrent).2
    exact run_updateRule_unless (hid ▸ hcurrent) (hid ▸ hfree _ hpassed)

end

/-! ## Revisions -/

/-- The two ways to ask for a change of the rule under an id. -/
inductive Revision where
  /-- Every field is replaced. -/
  | replace (request : RuleRequest)
  /-- Some fields are edited. -/
  | edit (request : ChangeRequest)

/-- Two worlds with the same stored rules, last id, resources and directory. Their counts may
    differ. -/
structure World.SameState (w v : World) : Prop where
  store_eq : v.store = w.store
  directory_eq : v.directory = w.directory

namespace Revision

/-- Asks for the change of the rule under an id. -/
def perform {σ : Type} (m : Manager σ) (caller : Contact) (id : Id) :
    Revision → StateM σ (Response Unit)
  | replace request => m.update caller id request
  | edit request => m.partialUpdate caller id request

/-- The fields that are set, and to what. -/
def toChangeRequest : Revision → ChangeRequest
  | replace request => request.toChangeRequest
  | edit request => request

/-- The written name of the operation. -/
def label : Revision → String
  | replace _ => Operation.update.label
  | edit _ => Operation.partialUpdate.label

variable {w : World} (accessGroup : Option String) (caller : Contact) (id : Id) (u : Revision)

/-- A revision ends as is planned for the edit with its fields. -/
theorem exists_ends (hnames : w.store.NamesDiffer) :
    ∃ outcome, (w.partialUpdatePlan accessGroup caller id u.toChangeRequest).Ends w outcome ∧
      ((u.perform (World.manager accessGroup) caller id).run w).1 = .ofDone u.label outcome.1 ∧
        outcome.2.SameState ((u.perform (World.manager accessGroup) caller id).run w).2 := by
  cases u with
  | edit request =>
    exact ⟨_, ends_tryPartialUpdate accessGroup caller id request hnames, rfl, rfl, rfl⟩
  | replace request =>
    have hends := ends_tryPartialUpdate accessGroup caller id request.toChangeRequest hnames
    -- the plan is that of the edit, and the steps of the replacement end like it
    rw [run_tryPartialUpdate_toChangeRequest accessGroup caller id request hnames] at hends
    exact ⟨_, hends, rfl, rfl, rfl⟩

variable {accessGroup caller id u}

/-- A revision that is done passed every stage, and its rule is stored. -/
theorem passes_of_noContent (hnames : w.store.NamesDiffer)
    (h : ((u.perform (World.manager accessGroup) caller id).run w).1 = .noContent) :
    ∃ current next changes,
      (w.partialUpdatePlan accessGroup caller id u.toChangeRequest).Passes
          (current, next, changes) ∧
        ((u.perform (World.manager accessGroup) caller id).run w).2.store = w.store.store next ∧
          ((u.perform (World.manager accessGroup) caller id).run w).2.directory = w.directory := by
  obtain ⟨outcome, hends, hresponse, hstate⟩ := u.exists_ends accessGroup caller id hnames
  rw [hresponse] at h
  obtain ⟨⟨current, next, changes⟩, hpasses, _, hafter⟩ :=
    hends.done_of_ok (Response.ok_of_ofDone h)
  rw [hstate.store_eq, hstate.directory_eq, hafter]
  exact ⟨current, next, changes, hpasses, rfl, rfl⟩

/-- The other way round, a revision for which every stage passes is done. -/
theorem noContent_of_passes (hnames : w.store.NamesDiffer) {current next : Rule}
    {changes : RuleChanges}
    (h : (w.partialUpdatePlan accessGroup caller id u.toChangeRequest).Passes
      (current, next, changes)) :
    ((u.perform (World.manager accessGroup) caller id).run w).1 = .noContent ∧
      ((u.perform (World.manager accessGroup) caller id).run w).2.store = w.store.store next ∧
        ((u.perform (World.manager accessGroup) caller id).run w).2.directory = w.directory := by
  obtain ⟨outcome, hends, hresponse, hstate⟩ := u.exists_ends accessGroup caller id hnames
  rw [hresponse, hstate.store_eq, hstate.directory_eq, hends.eq_done h]
  exact ⟨rfl, rfl, rfl⟩

/-- A revision to a name that another rule has is a conflict, and changes nothing. -/
theorem conflict_of_taken (hnames : w.store.NamesDiffer) {current next : Rule}
    {changes : RuleChanges} (hallowed : w.directory.Permits accessGroup caller .edit)
    (hsubject : w.store.getWith id (·.edited u.toChangeRequest) = .ok (current, next, changes))
    (htaken : ¬ ∀ r ∈ w.store.rules, r.id ≠ id → r.formattedName ≠ next.formattedName) :
    (∃ text, ((u.perform (World.manager accessGroup) caller id).run w).1 = .conflict text) ∧
      w.SameState ((u.perform (World.manager accessGroup) caller id).run w).2 := by
  obtain ⟨outcome, hends, hresponse, hstate⟩ := u.exists_ends accessGroup caller id hnames
  obtain ⟨failure, hkind, rfl⟩ := hends.eq_nameTaken hallowed hsubject htaken
  refine ⟨⟨failure.text, ?_⟩, hstate⟩
  rw [hresponse, Response.ofDone, Response.ofFailure, hkind]

end Revision

/-! ## Both operations -/

/-- The name of the operation is told only with internal failures. -/
theorem Response.ofDone_congr_label {first second : String} {result : Except Failure Unit}
    (h : (ofDone first result : Response Unit).status ≠ "error") :
    (ofDone second result : Response Unit) = ofDone first result := by
  cases result with
  | ok => rfl
  | error failure =>
    simp only [ofDone, ofFailure] at h ⊢
    cases hkind : failure.kind with
    | internal => simp [hkind, status] at h
    | _ => rfl

/-- Replacing a rule and editing it with a request that sets all six fields to the same values are
    answered alike, in the same words, and leave the same rules, last id, resources and directory:
    in every world that can be reached, for every caller, id and request, and whatever the answer
    is. -/
theorem update_eq_edit_of_every_field {accessGroup : Option String} {w : World}
    (h : w.Reachable accessGroup) (caller : Contact) (id : Id) (request : RuleRequest) :
    let replaced := ((World.manager accessGroup).update caller id request).run w
    let edited :=
      ((World.manager accessGroup).partialUpdate caller id request.toChangeRequest).run w
    edited.1 = replaced.1 ∧ edited.2.store = replaced.2.store ∧
      edited.2.directory = replaced.2.directory := by
  intro replaced edited
  have hnames := h.namesDiffer
  have hrun := run_tryPartialUpdate_toChangeRequest accessGroup caller id request hnames
  -- only internal failures name the operation, and there are none in a world that can be reached
  have hstatus := (UseCase.update id request).status_ne accessGroup caller hnames
  have hresponse : edited.1 =
      .ofDone Operation.partialUpdate.label
        (((World.manager accessGroup).tryUpdate caller id request).run.run w).1 :=
    congrArg (fun outcome : Except Failure Unit × World => Response.ofDone _ outcome.1) hrun
  refine ⟨hresponse.trans (Response.ofDone_congr_label hstatus), ?_, ?_⟩
  · exact congrArg (·.2.store) hrun
  · exact congrArg (·.2.directory) hrun

/-- A name that another rule has is refused in the same words, and before the host that does not
    exist is looked for. A new host and the name in other letters are written to the same rule. -/
theorem update_eq_edit_of_every_field_two_rules :
    let m := World.manager none
    let refused := (m.update root 2 (hostRequest " oPS " 9)).run pairWorld
    let refusedEdit :=
      (m.partialUpdate root 2 (hostRequest " oPS " 9).toChangeRequest).run pairWorld
    let done := (m.update root 2 (hostRequest "DEV" 7)).run pairWorld
    let doneEdit := (m.partialUpdate root 2 (hostRequest "DEV" 7).toChangeRequest).run pairWorld
    pairWorld.Reachable none ∧
      refused.1 = .conflict "Name 'oPS' (formatted as 'ops') is already used by another rule" ∧
      refusedEdit.1 = refused.1 ∧ refusedEdit.2.store = refused.2.store ∧
      done.1 = .noContent ∧ doneEdit.1 = done.1 ∧ doneEdit.2.store = done.2.store := by
  intro m refused refusedEdit done doneEdit
  have hrefused : refused.1 =
      .conflict "Name 'oPS' (formatted as 'ops') is already used by another rule" := by
    decide +kernel
  have hdone : done.1 = .noContent := by decide +kernel
  obtain ⟨hsameRefusal, hunchanged, _⟩ :=
    update_eq_edit_of_every_field reachable_pairWorld root 2 (hostRequest " oPS " 9)
  obtain ⟨hsame, hstore, _⟩ :=
    update_eq_edit_of_every_field reachable_pairWorld root 2 (hostRequest "DEV" 7)
  exact ⟨reachable_pairWorld, hrefused, hsameRefusal, hunchanged, hdone, hsame, hstore⟩

end AccessScope
