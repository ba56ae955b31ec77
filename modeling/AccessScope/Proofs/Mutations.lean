import AccessScope.Proofs.Requests
import AccessScope.Proofs.StoreRuns
import AccessScope.Proofs.WorldSteps

/-!
# How mutations end

The four operations that change rules go through the same stages: the caller, what is to be written,
its name, its references, and the write. A `MutationPlan` says for one of them what each stage
depends on, in terms of the world before; `MutationPlan.Ends` lists the ways in which it can end.
Where the names of the stored rules differ, the check of the operation and the check of the store
agree, so a write is never refused once it is attempted.

## Key results

- `Checks.requireFreeNameFor`: a rule may take a name exactly if no other rule has it
- `MutationPlan.ends_of_stages`: operations made of the five stages end in one of these ways
- `MutationPlan.Ends.failed_or_done`: a mutation fails and changes nothing, or does what is planned
- `ends_tryCreate`, `ends_tryUpdate`, `ends_tryPartialUpdate`, `ends_tryDelete`: the four operations
-/

namespace AccessScope

/-! ## Names -/

/-- A name is accepted for a new rule exactly if no stored rule has its formatted form. -/
theorem Checks.requireFreeName (name : String) (w : World) :
    Checks .conflict (World.collaborators.requireFreeName name) w
      (∀ r ∈ w.store.rules, r.formattedName ≠ RuleName.formatted name) := by
  have hrun := run_requireFreeName name w
  by_cases htaken : ∃ r ∈ w.store.rules, r.formattedName = RuleName.formatted name
  · rw [if_pos htaken] at hrun
    exact .inr ⟨by simpa using htaken, _, rfl, hrun⟩
  · rw [if_neg htaken] at hrun
    exact .inl ⟨by simpa using htaken, hrun⟩

/-- The rule under an id may take a name exactly if no other rule has it. The rule's own name is not
    looked for, since it would be found. -/
theorem Checks.requireFreeNameFor {w : World} {id : Id} {current : Rule}
    (accessGroup : Option String) (next : Rule) (hnames : w.store.NamesDiffer)
    (hcurrent : w.store.find? id = some current) :
    Checks .conflict ((World.manager accessGroup).requireFreeNameFor current next) w
      (∀ r ∈ w.store.rules, r.id ≠ id → r.formattedName ≠ next.formattedName) := by
  obtain ⟨hstored, rfl⟩ := RuleStore.find?_eq_some_iff.1 hcurrent
  unfold Manager.requireFreeNameFor
  by_cases hsame : next.formattedName = current.formattedName
  · -- the name stays, and no other rule has it already
    rw [if_pos hsame, hsame]
    exact .pure fun r hr hid hname => hid (congrArg _ (hnames r hr current hstored hname))
  · rw [if_neg hsame]
    apply (Checks.requireFreeName next.name w).congr
    rw [← next.formattedName_eq]
    refine ⟨fun h r hr _ => h r hr, fun h r hr hname => ?_⟩
    by_cases hid : r.id = current.id
    · -- the rule itself is the only one that the wider check could find and this one may not
      have hrc : r = current := w.store.ascending.eq_of_key hr hstored hid
      exact hsame (hrc ▸ hname.symm)
    · exact h r hr hid hname

/-! ## Plans -/

/-- What the stages of a mutation depend on. -/
structure MutationPlan (α β : Type) where
  /-- What the caller wants to do with rules. -/
  action : RuleAction
  /-- The caller may do so. -/
  allowed : Prop
  /-- What is to be written, or why the request is refused. -/
  subject : Except Failure α
  /-- No other rule has the name. -/
  nameFree : α → Prop
  /-- Everything that is newly referred to exists. -/
  known : α → Prop
  /-- The answer and the rules after the write. -/
  effect : α → β × RuleStore

namespace MutationPlan

variable {α β : Type}

/-- Every stage passes, with this to be written. -/
structure Passes (p : MutationPlan α β) (a : α) : Prop where
  allowed : p.allowed
  subject_eq : p.subject = .ok a
  nameFree : p.nameFree a
  known : p.known a

/-- The ways in which a mutation can end: the first stage that does not pass decides. -/
inductive Ends (p : MutationPlan α β) (w : World) : Except Failure β × World → Prop where
  | notAllowed (h : ¬ p.allowed) : Ends p w (.error (.notAllowed p.action), w)
  | refused {failure : Failure} (ha : p.allowed) (hs : p.subject = .error failure) :
    Ends p w (.error failure, w)
  | nameTaken {a : α} {failure : Failure} (ha : p.allowed) (hs : p.subject = .ok a)
    (hf : ¬ p.nameFree a) (hkind : failure.kind = .conflict) : Ends p w (.error failure, w)
  | unknown {a : α} {failure : Failure} (ha : p.allowed) (hs : p.subject = .ok a)
    (hf : p.nameFree a) (hk : ¬ p.known a) (hkind : failure.kind = .badRequest) :
    Ends p w (.error failure, w)
  | done {a : α} (ha : p.allowed) (hs : p.subject = .ok a) (hf : p.nameFree a) (hk : p.known a) :
    Ends p w (.ok (p.effect a).1, { w with store := (p.effect a).2 })

/-- An operation made of the five stages ends in one of these ways. -/
theorem ends_of_stages (p : MutationPlan α β) {_ : Decidable p.allowed} {w : World}
    {authorize : Action World Unit} {subject : Action World α}
    {name references : α → Action World Unit} {write : α → Action World β}
    (hauthorize : authorize.run.run w =
      (if p.allowed then .ok () else .error (.notAllowed p.action), w))
    (hsubject : subject.run.run w = (p.subject, w))
    (hname : ∀ a, p.subject = .ok a → Checks .conflict (name a) w (p.nameFree a))
    (hreferences : ∀ a, Checks .badRequest (references a) w (p.known a))
    (hwrite : ∀ a, p.subject = .ok a → p.nameFree a →
      (write a).run.run w = (.ok (p.effect a).1, { w with store := (p.effect a).2 })) :
    p.Ends w ((do authorize; let a ← subject; name a; references a; write a).run.run w) := by
  by_cases ha : p.allowed
  · rw [if_pos ha] at hauthorize
    -- each stage that passes leaves the world as it was to the next one
    rw [run_bind_ok hauthorize]
    cases hs : p.subject with
    | error failure =>
      rw [hs] at hsubject
      rw [run_bind_error hsubject]
      exact .refused ha hs
    | ok a =>
      rw [hs] at hsubject
      rw [run_bind_ok hsubject]
      -- a check says which of the two happens, and what that means for the plan
      obtain ⟨hf, hrun⟩ | ⟨hf, failure, hkind, hrun⟩ := hname a hs
      · rw [run_bind_ok hrun]
        obtain ⟨hk, hrun⟩ | ⟨hk, failure, hkind, hrun⟩ := hreferences a
        · rw [run_bind_ok hrun, hwrite a hs hf]
          exact .done ha hs hf hk
        · rw [run_bind_error hrun]
          exact .unknown ha hs hf hk hkind
      · rw [run_bind_error hrun]
        exact .nameTaken ha hs hf hkind
  · rw [if_neg ha] at hauthorize
    rw [run_bind_error hauthorize]
    exact .notAllowed ha

namespace Ends

variable {p : MutationPlan α β} {w : World} {outcome : Except Failure β × World}

/-- A mutation fails and leaves the world as it was, or every stage passed and it does what is
    planned. -/
theorem failed_or_done (h : p.Ends w outcome) :
    (∃ failure, outcome = (.error failure, w)) ∨
      ∃ a, p.Passes a ∧ outcome = (.ok (p.effect a).1, { w with store := (p.effect a).2 }) := by
  cases h with
  | notAllowed => exact .inl ⟨_, rfl⟩
  | refused => exact .inl ⟨_, rfl⟩
  | nameTaken => exact .inl ⟨_, rfl⟩
  | unknown => exact .inl ⟨_, rfl⟩
  | done ha hs hf hk => exact .inr ⟨_, ⟨ha, hs, hf, hk⟩, rfl⟩

theorem same_of_failed (h : p.Ends w outcome) (hfailed : ∀ b, outcome.1 ≠ .ok b) :
    outcome.2.store = w.store ∧ outcome.2.directory = w.directory := by
  obtain ⟨failure, hout⟩ | ⟨a, _, hout⟩ := h.failed_or_done
  · rw [hout]
    exact ⟨rfl, rfl⟩
  · exact absurd (congrArg (·.1) hout) (hfailed _)

theorem done_of_ok (h : p.Ends w outcome) {b : β} (hok : outcome.1 = .ok b) :
    ∃ a, p.Passes a ∧ b = (p.effect a).1 ∧ outcome.2 = { w with store := (p.effect a).2 } := by
  obtain ⟨failure, hout⟩ | ⟨a, hpasses, hout⟩ := h.failed_or_done
  · rw [hout] at hok
    cases hok
  · rw [hout] at hok
    cases hok
    exact ⟨a, hpasses, rfl, by rw [hout]⟩

/-- Where every stage passes, the mutation does what is planned. -/
theorem eq_done (h : p.Ends w outcome) {a : α} (hpasses : p.Passes a) :
    outcome = (.ok (p.effect a).1, { w with store := (p.effect a).2 }) := by
  cases h with
  | notAllowed hnot => exact absurd hpasses.allowed hnot
  | refused _ hs => cases hpasses.subject_eq.symm.trans hs
  | nameTaken _ hs hnot =>
    cases hpasses.subject_eq.symm.trans hs
    exact absurd hpasses.nameFree hnot
  | unknown _ hs _ hnot =>
    cases hpasses.subject_eq.symm.trans hs
    exact absurd hpasses.known hnot
  | done _ hs =>
    cases hpasses.subject_eq.symm.trans hs
    rfl

/-- Where nothing can be made of the request, the mutation fails for that reason. -/
theorem eq_refused (h : p.Ends w outcome) (ha : p.allowed) {failure : Failure}
    (hs : p.subject = .error failure) : outcome = (.error failure, w) := by
  cases h with
  | notAllowed hnot => exact absurd ha hnot
  | refused _ hs' =>
    cases hs.symm.trans hs'
    rfl
  | nameTaken _ hs' => cases hs.symm.trans hs'
  | unknown _ hs' => cases hs.symm.trans hs'
  | done _ hs' => cases hs.symm.trans hs'

/-- Where the name is not free the mutation fails for that, whatever else is missing. -/
theorem eq_nameTaken (h : p.Ends w outcome) (ha : p.allowed) {a : α} (hs : p.subject = .ok a)
    (hf : ¬ p.nameFree a) :
    ∃ failure, failure.kind = .conflict ∧ outcome = (.error failure, w) := by
  cases h with
  | notAllowed hnot => exact absurd ha hnot
  | refused _ hs' => cases hs.symm.trans hs'
  | @nameTaken _ failure _ _ _ hkind => exact ⟨failure, hkind, rfl⟩
  | unknown _ hs' hfree =>
    cases hs.symm.trans hs'
    exact absurd hfree hf
  | done _ hs' hfree =>
    cases hs.symm.trans hs'
    exact absurd hfree hf

end Ends

end MutationPlan

/-! ## The four mutations -/

/-- The rule under an id, with what becomes of it. -/
def RuleStore.getWith {β : Type} (s : RuleStore) (id : Id) (f : Rule → Except Failure β) :
    Except Failure (Rule × β) := do
  let current ← s.get id
  let b ← f current
  return (current, b)

/-- The store with a new rule. -/
def RuleStore.added (s : RuleStore) (content : RuleContent) : RuleStore :=
  { s.store (content.withId s.nextId) with lastId := s.nextId }

namespace World

variable (w : World) (accessGroup : Option String) (caller : Contact)

/-- Making a new rule: the answer is the rule as it is stored. -/
def createPlan (request : RuleRequest) : MutationPlan RuleContent Rule where
  action := .create
  allowed := w.directory.Permits accessGroup caller .create
  subject := request.toContent
  nameFree content := ∀ r ∈ w.store.rules, r.formattedName ≠ content.formattedName
  known content := w.Knows content.terms
  effect content := (content.withId w.store.nextId, w.store.added content)

/-- Replacing the terms of a rule: the rule before and the rule after. -/
def updatePlan (id : Id) (request : RuleRequest) : MutationPlan (Rule × Rule) Unit where
  action := .edit
  allowed := w.directory.Permits accessGroup caller .edit
  subject := w.store.getWith id (·.replaced request)
  nameFree := fun (_, next) => ∀ r ∈ w.store.rules, r.id ≠ id → r.formattedName ≠ next.formattedName
  known := fun (_, next) => w.Knows next.terms
  effect := fun (_, next) => ((), w.store.store next)

/-- Changing some terms of a rule: the rule before, the rule after and the edit. -/
def partialUpdatePlan (id : Id) (request : ChangeRequest) :
    MutationPlan (Rule × Rule × RuleChanges) Unit where
  action := .edit
  allowed := w.directory.Permits accessGroup caller .edit
  subject := w.store.getWith id (·.edited request)
  nameFree := fun (_, merged, _) =>
    ∀ r ∈ w.store.rules, r.id ≠ id → r.formattedName ≠ merged.formattedName
  known := fun (_, _, changes) => w.KnowsChanges changes
  effect := fun (_, merged, _) => ((), w.store.store merged)

/-- Removing a rule, which has no name or references to check. -/
def deletePlan (id : Id) : MutationPlan Rule Unit where
  action := .delete
  allowed := w.directory.Permits accessGroup caller .delete
  subject := w.store.get id
  nameFree _ := True
  known _ := True
  effect _ := ((), w.store.remove id)

end World

namespace RuleStore

variable {s : RuleStore} {id : Id} {current : Rule}

theorem getWith_eq_ok_iff {β : Type} {f : Rule → Except Failure β} {b : β} :
    s.getWith id f = .ok (current, b) ↔ s.find? id = some current ∧ f current = .ok b := by
  simp only [getWith, bind_eq_ok_iff, get_eq_ok_iff]
  constructor
  · intro ⟨_, hfind, _, hb, heq⟩
    cases heq
    exact ⟨hfind, hb⟩
  · intro ⟨hfind, hb⟩
    exact ⟨current, hfind, b, hb, rfl⟩

/-- An edit leaves a rule with the id that was asked for. -/
theorem id_of_getWith_edited {request : ChangeRequest} {next : Rule} {changes : RuleChanges}
    (h : s.getWith id (·.edited request) = .ok (current, next, changes)) : next.id = id := by
  obtain ⟨hfind, hedit⟩ := getWith_eq_ok_iff.1 h
  exact (Rule.id_of_edited hedit).trans (find?_eq_some_iff.1 hfind).2

theorem getWith_eq_error_iff {β : Type} {f : Rule → Except Failure β} {failure : Failure} :
    s.getWith id f = .error failure ↔
      s.find? id = none ∧ failure = .noRule ∨
        ∃ current, s.find? id = some current ∧ f current = .error failure := by
  simp only [getWith, bind_eq_error_iff, get_eq_error_iff, get_eq_ok_iff]
  simp [pure, Except.pure]

/-- The store refuses a new rule because of its name. -/
theorem kind_of_add {content : RuleContent} {failure : Failure}
    (h : s.add content = .error failure) : failure.kind = .conflict := by
  unfold add at h
  split at h
  · cases h
    rfl
  · cases h

/-- It refuses a rule in the place of another because there is none, or because of its name. -/
theorem kind_of_update {next : Rule} {failure : Failure} (h : s.update next = .error failure) :
    failure.kind = .notFound ∨ failure.kind = .conflict := by
  unfold update at h
  split at h
  · cases h
    exact .inl rfl
  · split at h
    · cases h
      exact .inr rfl
    · cases h

theorem kind_of_delete {failure : Failure} (h : s.delete id = .error failure) :
    failure.kind = .notFound := by
  unfold delete at h
  split at h
  · cases h
    rfl
  · cases h

/-- A rule whose name no other has can be stored in the place of the one with its id. -/
theorem update_of_free {next : Rule} (hcurrent : s.find? next.id = some current)
    (hfree : ∀ r ∈ s.rules, r.id ≠ next.id → r.formattedName ≠ next.formattedName) :
    s.update next = .ok (s.store next) := by
  refine update_eq_ok_iff.2 ⟨by simp [hcurrent], fun owner howner => ?_, rfl⟩
  obtain ⟨r, hfind, rfl⟩ := Option.map_eq_some_iff.1 howner
  have hname : r.formattedName = next.formattedName := by simpa using List.find?_some hfind
  have hr : r ∈ s.rules := List.mem_of_find?_eq_some hfind
  by_cases hid : r.id = next.id
  · exact hid
  · exact absurd hname (hfree r hr hid)

/-- A content whose name no rule has can be added. -/
theorem add_of_free {content : RuleContent}
    (hfree : ∀ r ∈ s.rules, r.formattedName ≠ content.formattedName) :
    s.add content = .ok (s.added content, s.nextId) :=
  add_eq_ok_iff.2 ⟨nameOwner?_eq_none_iff.2 hfree, rfl, rfl⟩

/-- A rule that was added is found under the id that it got. -/
theorem find?_added (s : RuleStore) (content : RuleContent) :
    (s.added content).find? s.nextId = some (content.withId s.nextId) :=
  find?_eq_some_iff.2 ⟨mem_store.2 (.inl rfl), rfl⟩

end RuleStore

/-- Storing the rule of an edit that passed leaves the names different. -/
theorem World.namesDiffer_of_passes {w : World} {accessGroup : Option String} {caller : Contact}
    {id : Id} {request : ChangeRequest} {current next : Rule} {changes : RuleChanges}
    (hnames : w.store.NamesDiffer)
    (h : (w.partialUpdatePlan accessGroup caller id request).Passes (current, next, changes)) :
    (w.store.store next).NamesDiffer := by
  have hid : next.id = id := RuleStore.id_of_getWith_edited h.subject_eq
  refine hnames.store fun r hr hname => ?_
  by_cases hne : r.id = id
  · exact hne.trans hid.symm
  · exact absurd hname (h.nameFree r hr hne)

/-! ## How the operations end -/

section Ends

variable {w : World} (accessGroup : Option String) (caller : Contact)

/-- Adding a content whose name no rule has is not refused. -/
theorem run_addRule {content : RuleContent}
    (hfree : ∀ r ∈ w.store.rules, r.formattedName ≠ content.formattedName) :
    (World.collaborators.addRule content).run.run w =
      (.ok w.store.nextId, { w with store := w.store.added content }) := by
  simp only [World.collaborators, World.run_write, RuleStore.add_of_free hfree]

theorem run_updateRule {current next : Rule} (hcurrent : w.store.find? next.id = some current)
    (hfree : ∀ r ∈ w.store.rules, r.id ≠ next.id → r.formattedName ≠ next.formattedName) :
    (World.collaborators.updateRule next).run.run w =
      (.ok (), { w with store := w.store.store next }) := by
  simp only [World.collaborators, World.run_write, RuleStore.update_of_free hcurrent hfree]
  rfl

/-- Leaving a write out that would change nothing makes no difference. -/
theorem run_updateRule_unless {current next : Rule}
    (hcurrent : w.store.find? next.id = some current)
    (hfree : ∀ r ∈ w.store.rules, r.id ≠ next.id → r.formattedName ≠ next.formattedName) :
    (unless next = current do World.collaborators.updateRule next).run.run w =
      (World.collaborators.updateRule next).run.run w := by
  rw [run_updateRule hcurrent hfree]
  by_cases hsame : next = current
  · -- what is not written is what is stored already
    have hstored := (RuleStore.find?_eq_some_iff.1 hcurrent).1
    rw [if_pos hsame, RuleStore.store_of_mem (hsame ▸ hstored)]
    rfl
  · rw [if_neg hsame, run_updateRule hcurrent hfree]

theorem run_deleteRule {id : Id} {current : Rule} (hcurrent : w.store.find? id = some current) :
    (World.collaborators.deleteRule id).run.run w =
      (.ok (), { w with store := w.store.remove id }) := by
  have hdelete : w.store.delete id = .ok (w.store.remove id) :=
    RuleStore.delete_eq_ok_iff.2 ⟨by simp [hcurrent], rfl⟩
  simp only [World.collaborators, World.run_write, hdelete]
  rfl

/-- Creating a rule ends as planned. What was added is found again. -/
theorem ends_tryCreate (request : RuleRequest) :
    (w.createPlan accessGroup caller request).Ends w
      (((World.manager accessGroup).tryCreate caller request).run.run w) := by
  let p := w.createPlan accessGroup caller request
  have hname (content : RuleContent) (_ : p.subject = .ok content) :
      Checks .conflict (World.collaborators.requireFreeName content.name) w
        (p.nameFree content) := by
    have hcheck := Checks.requireFreeName content.name w
    rwa [← content.formattedName_eq] at hcheck
  have hreferences (content : RuleContent) :=
    Checks.requireReferences accessGroup content.terms w
  apply MutationPlan.ends_of_stages p (run_authorize ..) (run_ofExcept ..) hname hreferences
  intro content _ hfree
  -- the rule is added first, and then read back from the store after that
  let after : World := { w with store := w.store.added content }
  apply (run_bind_ok (run_addRule hfree)).trans
  apply (run_bind_ok (x := after.store.find? w.store.nextId) rfl).trans
  rw [RuleStore.find?_added]
  rfl

/-- Loading a rule, and a pure check of what becomes of it. -/
theorem run_loadWith {β : Type} (id : Id) (f : Rule → Except Failure β) :
    (do
      let current ← (World.manager accessGroup).load id
      let b ← Action.ofExcept (f current)
      return (current, b)).run.run w = (w.store.getWith id f, w) := by
  have hload := run_load accessGroup id w
  rw [RuleStore.getWith]
  -- the run and the result are followed side by side, first through the look-up
  cases hget : w.store.get id with
  | error failure =>
    rw [hget] at hload
    exact run_bind_error hload
  | ok current =>
    rw [hget] at hload
    apply (run_bind_ok hload).trans
    show _ = (f current >>= fun b => pure (current, b), w)
    cases f current with
    | error failure => exact run_bind_error (run_ofExcept ..)
    | ok b => exact run_bind_ok (run_ofExcept ..)

theorem ends_tryUpdate (id : Id) (request : RuleRequest) (hnames : w.store.NamesDiffer) :
    (w.updatePlan accessGroup caller id request).Ends w
      (((World.manager accessGroup).tryUpdate caller id request).run.run w) := by
  have hstages : (World.manager accessGroup).tryUpdate caller id request = (do
      (World.manager accessGroup).authorize caller .edit
      let a ← (do
        let current ← (World.manager accessGroup).load id
        let next ← Action.ofExcept (current.replaced request)
        return (current, next))
      (World.manager accessGroup).requireFreeNameFor a.1 a.2
      (World.manager accessGroup).requireReferences a.2.terms
      World.collaborators.updateRule a.2) := by
    simp only [Manager.tryUpdate, bind_assoc, pure_bind]
    rfl
  rw [hstages]
  let p := w.updatePlan accessGroup caller id request
  have hname (a : Rule × Rule) (hs : p.subject = .ok a) :
      Checks .conflict ((World.manager accessGroup).requireFreeNameFor a.1 a.2) w
        (p.nameFree a) :=
    Checks.requireFreeNameFor accessGroup a.2 hnames (RuleStore.getWith_eq_ok_iff.1 hs).1
  have hreferences (a : Rule × Rule) := Checks.requireReferences accessGroup a.2.terms w
  apply MutationPlan.ends_of_stages p (run_authorize ..) (run_loadWith ..) hname hreferences
  intro a hs hfree
  obtain ⟨hfind, hnext⟩ := RuleStore.getWith_eq_ok_iff.1 hs
  obtain ⟨_, hid⟩ := RuleStore.find?_eq_some_iff.1 hfind
  have hsame : a.2.id = id := (Rule.id_of_replaced hnext).trans hid
  exact run_updateRule (hsame ▸ hfind) (hsame ▸ hfree)

/-- Editing a rule ends as planned, also if nothing is written because the edit changes nothing. -/
theorem ends_tryPartialUpdate (id : Id) (request : ChangeRequest) (hnames : w.store.NamesDiffer) :
    (w.partialUpdatePlan accessGroup caller id request).Ends w
      (((World.manager accessGroup).tryPartialUpdate caller id request).run.run w) := by
  have hstages : (World.manager accessGroup).tryPartialUpdate caller id request = (do
      (World.manager accessGroup).authorize caller .edit
      let a ← (do
        let current ← (World.manager accessGroup).load id
        let edited ← Action.ofExcept (current.edited request)
        return (current, edited))
      (World.manager accessGroup).requireFreeNameFor a.1 a.2.1
      (World.manager accessGroup).requireChangedReferences a.2.2
      unless a.2.1 = a.1 do
        World.collaborators.updateRule a.2.1) := by
    simp only [Manager.tryPartialUpdate, bind_assoc, pure_bind]
    rfl
  rw [hstages]
  let p := w.partialUpdatePlan accessGroup caller id request
  have hname (a : Rule × Rule × RuleChanges) (hs : p.subject = .ok a) :
      Checks .conflict ((World.manager accessGroup).requireFreeNameFor a.1 a.2.1) w
        (p.nameFree a) :=
    Checks.requireFreeNameFor accessGroup a.2.1 hnames (RuleStore.getWith_eq_ok_iff.1 hs).1
  have hreferences (a : Rule × Rule × RuleChanges) :=
    Checks.requireChangedReferences accessGroup a.2.2 w
  apply MutationPlan.ends_of_stages p (run_authorize ..) (run_loadWith ..) hname hreferences
  intro a hs hfree
  obtain ⟨hfind, _⟩ := RuleStore.getWith_eq_ok_iff.1 hs
  have hsame : a.2.1.id = id := RuleStore.id_of_getWith_edited hs
  exact (run_updateRule_unless (hsame ▸ hfind) (hsame ▸ hfree)).trans
    (run_updateRule (hsame ▸ hfind) (hsame ▸ hfree))

theorem ends_tryDelete (id : Id) :
    (w.deletePlan accessGroup caller id).Ends w
      (((World.manager accessGroup).tryDelete caller id).run.run w) := by
  -- no check stands between finding the rule and removing it
  let noCheck (_ : Rule) : Action World Unit := pure ()
  have hstages : (World.manager accessGroup).tryDelete caller id = (do
      (World.manager accessGroup).authorize caller .delete
      let current ← (World.manager accessGroup).load id
      noCheck current
      noCheck current
      World.collaborators.deleteRule id) := by
    rfl
  rw [hstages]
  let p := w.deletePlan accessGroup caller id
  have hname (current : Rule) (_ : p.subject = .ok current) :
      Checks .conflict (noCheck current) w (p.nameFree current) := .pure trivial
  have hreferences (current : Rule) : Checks .badRequest (noCheck current) w (p.known current) :=
    .pure trivial
  apply MutationPlan.ends_of_stages p (run_authorize ..) (run_load ..) hname hreferences
  intro current hs _
  exact run_deleteRule (RuleStore.get_eq_ok_iff.1 hs)

end Ends

end AccessScope
