import AccessScope.Proofs.Mutations
import AccessScope.Proofs.Reach
import AccessScope.Proofs.Refusals
import AccessScope.Proofs.Words
import AccessScope.Settings

/-!
# Who is permitted what, from the environment

One variable of the environment names the access group whose members may manage rules. Unset it
stands for the default group, blank it asks for no group at all, and else the white space around the
name does not count. This file says in these terms whom an operation turns away, and that being
given more never makes it turn a caller away.

## Key results

- `Settings.permits_iff_allows`: what the settings permit, in terms of the variable
- `FailsOnly.write`, `FailsOnly.bind`: the failures of a run are those of its steps
- `Operation.turnsAway_iff`: an operation turns away exactly the callers who are not permitted
- `Widens.allows`: whoever has more is permitted as much
- `permissions_from_environment`: the decision, for every environment, world and caller
-/

namespace AccessScope

/-! ## The variable -/

/-- The variable that names the access group whose members may manage rules. -/
def Settings.accessGroupVariable : String := "RESOURCE_ACCESS_AUTHORIZED_ACL_GROUP"

/-- The contact has a role for this: both roles are for looking at rules, but only one of them is
    for changing rules. -/
def Contact.HasRoleFor (c : Contact) : RuleAction → Prop
  | .view => Role.readRules ∈ c.roles ∨ Role.writeRules ∈ c.roles
  | .create | .edit | .delete => Role.writeRules ∈ c.roles

namespace Directory

variable (d : Directory) (lookup : String → Option String)

/-- One of the access groups of the contact has this name. -/
def HasAccessGroup (contact : Id) (name : String) : Prop :=
  ∃ group ∈ d.accessGroupsOf contact, group.name = name

/-- The contact is in the access group that the variable asks for, if it asks for one. -/
def MeetsVariable (contact : Id) : Prop :=
  match lookup Settings.accessGroupVariable with
  | none => d.HasAccessGroup contact defaultAccessGroup
  | some value =>
    (∀ c ∈ value.toList, Text.isBlank c) ∨ d.HasAccessGroup contact (trimmedValue value)

/-- The caller may do this with rules: it is an admin, or it has a role for it and is in the access
    group. -/
def Allows (caller : Contact) (action : RuleAction) : Prop :=
  caller.isAdmin ∨ caller.HasRoleFor action ∧ d.MeetsVariable lookup caller.id

end Directory

/-- Nothing is left of a value exactly if all of it is white space. -/
theorem trimmedValue_eq_empty_iff {value : String} :
    trimmedValue value = "" ↔ ∀ c ∈ value.toList, Text.isBlank c := by
  rw [trimmedValue, ← String.toList_inj, String.toList_ofList, String.toList_empty,
    Text.trim_eq_nil_iff]

namespace Settings

variable {lookup : String → Option String} {settings : Settings}

theorem accessGroup_of_ofVariables (h : ofVariables lookup = .ok settings) :
    settings.accessGroup = readAccessGroup (lookup accessGroupVariable) := by
  unfold ofVariables at h
  dsimp only at h
  split at h
  · -- the other variables can only make the reading fail
    obtain ⟨_, _, hpure⟩ := bind_eq_ok_iff.1 h
    cases hpure
    rfl
  · cases h

/-- The settings permit what the variable allows. -/
theorem permits_iff_allows (h : ofVariables lookup = .ok settings) {d : Directory}
    {caller : Contact} {action : RuleAction} :
    d.Permits settings.accessGroup caller action ↔ d.Allows lookup caller action := by
  have hroles : (∃ role ∈ action.roles, role ∈ caller.roles) ↔ caller.HasRoleFor action := by
    cases action <;> simp [RuleAction.roles, viewRoles, changeRoles, Contact.HasRoleFor]
  have hgroup : (∀ required ∈ settings.accessGroup, d.HasAccessGroup caller.id required) ↔
      d.MeetsVariable lookup caller.id := by
    rw [accessGroup_of_ofVariables h, Directory.MeetsVariable]
    cases lookup accessGroupVariable with
    | none => simp [readAccessGroup]
    | some value =>
      -- blank, it asks for no group; otherwise nothing but the trimmed value can be meant
      simp only [readAccessGroup, ← trimmedValue_eq_empty_iff]
      by_cases hblank : trimmedValue value = "" <;> simp [hblank]
  rw [Directory.Permits, Directory.Allows, hroles, ← hgroup, and_comm]
  rfl

end Settings

/-! ## Failures of steps -/

/-- A step whose failures all have the property, whatever world it runs in. -/
def FailsOnly (P : Failure → Prop) {α : Type} (step : Action World α) : Prop :=
  ∀ w failure, (step.run.run w).1 = .error failure → P failure

namespace FailsOnly

variable {P : Failure → Prop} {α β : Type}

protected theorem pure (a : α) : FailsOnly P (pure a) :=
  nofun

protected theorem throw {failure : Failure} (h : P failure) :
    FailsOnly P (throw failure : Action World α) := by
  intro w f hf
  cases hf
  exact h

/-- A sequence fails like one of its steps. -/
theorem bind {a : Action World α} {b : α → Action World β} (ha : FailsOnly P a)
    (hb : ∀ x, FailsOnly P (b x)) : FailsOnly P (a >>= b) := by
  intro w failure h
  obtain ⟨f, hf, hrun⟩ | ⟨x, hrun⟩ := run_bind_cases a b w
  · rw [hrun] at h
    cases h
    exact ha w _ hf
  · rw [hrun] at h
    exact hb x _ failure h

theorem look (f : World → α) : FailsOnly P (World.look f) :=
  nofun

/-- A write fails if the store refuses it. -/
theorem write {f : RuleStore → Except Failure (RuleStore × α)}
    (h : ∀ s failure, f s = .error failure → P failure) : FailsOnly P (World.write f) := by
  intro w failure hfailed
  rw [World.run_write] at hfailed
  cases hresult : f w.store with
  | error g =>
    rw [hresult] at hfailed
    cases hfailed
    exact h _ _ hresult
  | ok => simp [hresult] at hfailed

theorem ofExcept {result : Except Failure α} (h : ∀ failure, result = .error failure → P failure) :
    FailsOnly P (Action.ofExcept result) := by
  intro w failure hfailed
  rw [run_ofExcept] at hfailed
  exact h failure hfailed

/-- A check fails with a failure of its kind. -/
theorem of_checks {kind : FailureKind} {step : Action World Unit} {p : World → Prop}
    (h : ∀ w, Checks kind step w (p w)) (hkind : ∀ failure, failure.kind = kind → P failure) :
    FailsOnly P step := by
  intro w failure hfailed
  obtain ⟨_, hrun⟩ | ⟨_, f, hf, hrun⟩ := h w
  · rw [hrun] at hfailed
    cases hfailed
  · rw [hrun] at hfailed
    cases hfailed
    exact hkind _ hf

end FailsOnly

/-! ## Operations behind the first check -/

/-- A failure that does not say that the caller may not do this with rules at all. -/
def Failure.IsLater (f : Failure) : Prop := f.kind = .forbidden → f = .outOfScope

theorem Failure.IsLater.of_kind {f : Failure} {kind : FailureKind} (hkind : f.kind = kind)
    (hne : kind ≠ .forbidden) : f.IsLater :=
  fun h => absurd (hkind.symm.trans h) hne

/-- Such a failure is not answered like a caller who is turned away. That a single rule is out of
    reach is said in other words. -/
theorem Response.ofFailure_ne_notAllowed {α : Type} {f : Failure} (h : f.IsLater) (label : String)
    (action : RuleAction) :
    (ofFailure label f : Response α) ≠ .forbidden (Failure.notAllowed action).text := by
  have hwords : Failure.outOfScope.text ≠ (Failure.notAllowed action).text := by
    cases action <;> decide
  intro heq
  unfold ofFailure at heq
  cases hkind : f.kind with
  | forbidden =>
    obtain rfl := h hkind
    -- what is left is the failure for a single rule, and its words are different
    exact hwords (Response.forbidden.inj heq)
  | _ => simp [hkind] at heq

namespace FailsOnly

variable (accessGroup : Option String) (caller : Contact)

/-- A check of another kind says nothing about the caller. -/
private theorem later_of_checks {kind : FailureKind} {step : Action World Unit} {p : World → Prop}
    (h : ∀ w, Checks kind step w (p w)) (hne : kind ≠ .forbidden) :
    FailsOnly Failure.IsLater step :=
  of_checks h fun _ hkind => .of_kind hkind hne

private theorem later_load (id : Id) :
    FailsOnly Failure.IsLater ((World.manager accessGroup).load id) := by
  intro w failure h
  rw [run_load] at h
  obtain ⟨_, rfl⟩ := RuleStore.get_eq_error_iff.1 h
  exact .of_kind rfl nofun

private theorem later_requireFreeNameFor (current next : Rule) :
    FailsOnly Failure.IsLater
      ((World.manager accessGroup).requireFreeNameFor current next) := by
  unfold Manager.requireFreeNameFor
  split
  · exact .pure _
  · exact later_of_checks (Checks.requireFreeName next.name) nofun

private theorem later_effectiveRules :
    FailsOnly Failure.IsLater (World.collaborators.effectiveRules caller) := by
  intro w failure h
  rw [run_effectiveRules] at h
  cases h

/-- The store refuses a write because a name is taken or a rule is not there. -/
private theorem later_addRule (content : RuleContent) :
    FailsOnly Failure.IsLater (World.collaborators.addRule content) := by
  exact write fun s failure h => .of_kind (RuleStore.kind_of_add h) nofun

private theorem later_updateRule (rule : Rule) :
    FailsOnly Failure.IsLater (World.collaborators.updateRule rule) := by
  refine write fun s failure h => ?_
  obtain hkind | hkind := RuleStore.kind_of_update (map_eq_error_iff.1 h)
  · exact .of_kind hkind nofun
  · exact .of_kind hkind nofun

private theorem later_deleteRule (id : Id) :
    FailsOnly Failure.IsLater (World.collaborators.deleteRule id) := by
  exact write fun s failure h => .of_kind (RuleStore.kind_of_delete (map_eq_error_iff.1 h)) nofun

/-- What is wrong with a request is not the caller's standing. -/
private theorem later_intake {α : Type} {result : Except Failure α}
    (hkind : ∀ {f}, result = .error f → f.kind = .validation) :
    FailsOnly Failure.IsLater (Action.ofExcept result) :=
  ofExcept fun _ h => .of_kind (hkind h) nofun

private theorem later_reaches (id : Id) :
    FailsOnly Failure.IsLater (World.collaborators.reaches caller id) := by
  unfold Collaborators.reaches
  split
  · exact .pure _
  · exact .bind (later_effectiveRules caller) fun _ => .pure _

end FailsOnly

/-! ## Operations of callers who are permitted -/

section

variable {accessGroup : Option String} {caller : Contact} {action : RuleAction} {w : World}

/-- Who is permitted gets past the first check, so only what comes behind it can fail. -/
private theorem later_of_permits {α : Type} {rest : Unit → Action World α}
    (hpermits : w.directory.Permits accessGroup caller action)
    (hrest : FailsOnly Failure.IsLater (rest ())) (failure : Failure)
    (h : (((World.manager accessGroup).authorize caller action >>= rest).run.run w).1 =
      .error failure) : failure.IsLater := by
  have hpassed := run_authorize accessGroup caller action w
  -- the check passes, and no other step says that the caller may not do this with rules
  rw [if_pos hpermits] at hpassed
  rw [run_bind_ok hpassed] at h
  exact hrest w failure h

-- each of the six operations, one line for each of its steps

private theorem later_tryCreate (request : RuleRequest)
    (hpermits : w.directory.Permits accessGroup caller .create) :
    ∀ failure, (((World.manager accessGroup).tryCreate caller request).run.run w).1 =
      .error failure → failure.IsLater := by
  refine later_of_permits hpermits ?_
  refine .bind (.later_intake RuleRequest.kind_of_toContent) fun content => ?_
  refine .bind (.later_of_checks (Checks.requireFreeName content.name) nofun) fun _ => ?_
  refine .bind (.later_of_checks (Checks.requireReferences accessGroup _) nofun) fun _ => ?_
  refine .bind (.later_addRule content) fun id => .bind (.look _) fun found => ?_
  cases found with
  | some rule => exact .pure rule
  | none => exact .throw (.of_kind rfl nofun)

private theorem later_tryFind (id : Id) (hpermits : w.directory.Permits accessGroup caller .view) :
    ∀ failure, (((World.manager accessGroup).tryFind caller id).run.run w).1 = .error failure →
      failure.IsLater := by
  refine later_of_permits hpermits ?_
  refine .bind (.later_load accessGroup id) fun rule => ?_
  refine .bind (.later_reaches caller id) fun reached => ?_
  cases reached with
  | true => exact .pure _
  | false => exact .bind (.throw fun _ => rfl) fun _ => .pure _

private theorem later_tryList (hpermits : w.directory.Permits accessGroup caller .view) :
    ∀ failure, (((World.manager accessGroup).tryList caller).run.run w).1 = .error failure →
      failure.IsLater :=
  later_of_permits hpermits (.later_effectiveRules caller)

private theorem later_tryUpdate (id : Id) (request : RuleRequest)
    (hpermits : w.directory.Permits accessGroup caller .edit) :
    ∀ failure, (((World.manager accessGroup).tryUpdate caller id request).run.run w).1 =
      .error failure → failure.IsLater := by
  refine later_of_permits hpermits ?_
  refine .bind (.later_load accessGroup id) fun current => ?_
  refine .bind (.later_intake Rule.kind_of_replaced) fun next => ?_
  refine .bind (.later_requireFreeNameFor accessGroup current next) fun _ => ?_
  refine .bind (.later_of_checks (Checks.requireReferences accessGroup _) nofun) fun _ => ?_
  exact .later_updateRule next

private theorem later_tryPartialUpdate (id : Id) (request : ChangeRequest)
    (hpermits : w.directory.Permits accessGroup caller .edit) :
    ∀ failure, (((World.manager accessGroup).tryPartialUpdate caller id request).run.run w).1 =
      .error failure → failure.IsLater := by
  refine later_of_permits hpermits ?_
  refine .bind (.later_load accessGroup id) fun current => ?_
  refine .bind (.later_intake Rule.kind_of_edited) fun (merged, changes) => ?_
  refine .bind (.later_requireFreeNameFor accessGroup current merged) fun _ => ?_
  refine .bind (.later_of_checks (Checks.requireChangedReferences accessGroup _) nofun)
    fun _ => ?_
  by_cases hsame : merged = current
  · rw [if_pos hsame]
    exact .pure _
  · rw [if_neg hsame]
    exact .later_updateRule merged

private theorem later_tryDelete (id : Id)
    (hpermits : w.directory.Permits accessGroup caller .delete) :
    ∀ failure, (((World.manager accessGroup).tryDelete caller id).run.run w).1 = .error failure →
      failure.IsLater :=
  later_of_permits hpermits (.bind (.later_load accessGroup id) fun _ => .later_deleteRule id)

end

/-- An operation whose steps go wrong only later, if at all, does not turn the caller away. -/
theorem Manager.answer_ne_notAllowed {α : Type} {m : Manager World} {steps : Action World α}
    {w : World} (h : ∀ failure, (steps.run.run w).1 = .error failure → failure.IsLater)
    (o : Operation) (action : RuleAction) :
    ((m.answer o steps).run w).1 ≠ .forbidden (Failure.notAllowed action).text := by
  have hanswer : ((m.answer o steps).run w).1 = .ofResult o.label (steps.run.run w).1 := rfl
  rw [hanswer]
  cases hresult : (steps.run.run w).1 with
  | error failure => exact Response.ofFailure_ne_notAllowed (h _ hresult) o.label action
  | ok => exact nofun

/-- The same of an operation that gives nothing. -/
theorem Manager.answerDone_ne_notAllowed {m : Manager World} {steps : Action World Unit}
    {w : World} (h : ∀ failure, (steps.run.run w).1 = .error failure → failure.IsLater)
    (o : Operation) (action : RuleAction) :
    ((m.answerDone o steps).run w).1 ≠ .forbidden (Failure.notAllowed action).text := by
  have hanswer : ((m.answerDone o steps).run w).1 = .ofDone o.label (steps.run.run w).1 := rfl
  rw [hanswer]
  cases hresult : (steps.run.run w).1 with
  | error failure => exact Response.ofFailure_ne_notAllowed (h _ hresult) o.label action
  | ok => exact nofun

namespace Operation

/-- The operation answers that the caller may not do this with rules. -/
def TurnsAway (o : Operation) (m : Manager World) (caller : Contact) (x : o.Input) (w : World) :
    Prop :=
  ∃ action ∈ o.action?,
    ((o.perform m caller x).run w).1 = .forbidden (Failure.notAllowed action).text

variable {accessGroup : Option String} {caller : Contact} {action : RuleAction} {w : World}

/-- A caller who is permitted gets past the first check, and what goes wrong after that is not put
    down to the caller. -/
theorem perform_ne_notAllowed_of_permits {o : Operation} (ho : o.action? = some action)
    (hpermits : w.directory.Permits accessGroup caller action) (x : o.Input) :
    ((o.perform (World.manager accessGroup) caller x).run w).1 ≠
      .forbidden (Failure.notAllowed action).text := by
  cases o with
  | create =>
    cases ho
    exact Manager.answer_ne_notAllowed (later_tryCreate x hpermits) .create .create
  | find =>
    cases ho
    exact Manager.answer_ne_notAllowed (later_tryFind x hpermits) .find .view
  | list =>
    cases ho
    exact Manager.answer_ne_notAllowed (later_tryList hpermits) .list .view
  | update =>
    cases ho
    exact Manager.answerDone_ne_notAllowed (later_tryUpdate _ _ hpermits) .update .edit
  | partialUpdate =>
    cases ho
    exact Manager.answerDone_ne_notAllowed (later_tryPartialUpdate _ _ hpermits) .partialUpdate
      .edit
  | delete =>
    cases ho
    exact Manager.answerDone_ne_notAllowed (later_tryDelete x hpermits) .delete .delete
  | findEffective => cases ho

/-- An operation turns away exactly the callers who are not permitted, whatever they ask for. -/
theorem turnsAway_iff {o : Operation} (ho : o.action? = some action) (x : o.Input) :
    o.TurnsAway (World.manager accessGroup) caller x w ↔
      ¬ w.directory.Permits accessGroup caller action := by
  simp only [TurnsAway, ho, Option.mem_some_iff, exists_eq_left']
  constructor
  · intro h hpermits
    exact perform_ne_notAllowed_of_permits ho hpermits x h
  · intro hpermits
    have hrefused := run_authorize accessGroup caller action w
    rw [if_neg hpermits] at hrefused
    rw [run_perform_of_refused ho hrefused x]

end Operation

/-! ## Having more -/

/-- Something that a caller can be given. -/
inductive Grant where
  | admin
  | role (name : String)
  | accessGroup (group : AccessGroup)

/-- The directory and the caller after the caller was given something. -/
def Grant.give (d : Directory) (caller : Contact) : Grant → Directory × Contact
  | admin => (d, { caller with isAdmin := true })
  | role name => (d, { caller with roles := caller.roles ++ [name] })
  | accessGroup group => (d.withAccessGroup caller.id group, caller)

/-- The directory and the caller after the caller was given some things, one after the other. -/
def Grant.giveAll (d : Directory) (caller : Contact) (grants : List Grant) : Directory × Contact :=
  grants.foldl (fun given grant => grant.give given.1 given.2) (d, caller)

/-- One caller has in one directory all that another one has in another: it is an admin if that one
    is, and has all its roles and access groups. -/
structure Widens (before after : Directory × Contact) : Prop where
  admin : before.2.isAdmin → after.2.isAdmin
  roles : ∀ role ∈ before.2.roles, role ∈ after.2.roles
  accessGroups : ∀ group ∈ before.1.accessGroupsOf before.2.id,
    group ∈ after.1.accessGroupsOf after.2.id

namespace Widens

theorem refl (given : Directory × Contact) : Widens given given :=
  ⟨id, fun _ => id, fun _ => id⟩

theorem trans {a b c : Directory × Contact} (hab : Widens a b) (hbc : Widens b c) : Widens a c :=
  ⟨fun h => hbc.admin (hab.admin h), fun _ h => hbc.roles _ (hab.roles _ h),
    fun _ h => hbc.accessGroups _ (hab.accessGroups _ h)⟩

/-- Giving something takes nothing away. -/
theorem give (d : Directory) (caller : Contact) (grant : Grant) :
    Widens (d, caller) (grant.give d caller) := by
  cases grant with
  | admin => exact ⟨fun _ => rfl, fun _ => id, fun _ => id⟩
  | role name => exact ⟨id, fun _ h => List.mem_append_left _ h, fun _ => id⟩
  | accessGroup group =>
    refine ⟨id, fun _ => id, fun other hother => ?_⟩
    simp only [Grant.give, Directory.accessGroupsOf, Directory.withAccessGroup, List.filter_append,
      List.map_append] at hother ⊢
    exact List.mem_append_left _ hother

theorem giveAll (d : Directory) (caller : Contact) (grants : List Grant) :
    Widens (d, caller) (Grant.giveAll d caller grants) := by
  unfold Grant.giveAll
  -- each thing is given to the caller, and in the directory, that the ones before it have left
  induction grants generalizing d caller with
  | nil => exact refl _
  | cons grant grants ih => exact (give d caller grant).trans (ih ..)

variable {lookup : String → Option String} {d e : Directory} {caller other : Contact}

/-- Whoever has more is permitted as much. -/
theorem allows (h : Widens (d, caller) (e, other)) {action : RuleAction}
    (hallows : d.Allows lookup caller action) : e.Allows lookup other action := by
  have hnamed (name : String) (hname : d.HasAccessGroup caller.id name) :
      e.HasAccessGroup other.id name := by
    obtain ⟨group, hgroup, heq⟩ := hname
    exact ⟨group, h.accessGroups group hgroup, heq⟩
  obtain hadmin | ⟨hrole, hvariable⟩ := hallows
  · exact .inl (h.admin hadmin)
  · refine .inr ⟨?_, ?_⟩
    · -- the roles that an action asks for do not depend on who asks
      cases action with
      | view => exact hrole.imp (h.roles _) (h.roles _)
      | create => exact h.roles _ hrole
      | edit => exact h.roles _ hrole
      | delete => exact h.roles _ hrole
    · unfold Directory.MeetsVariable at hvariable ⊢
      cases hvalue : lookup Settings.accessGroupVariable with
      | none =>
        rw [hvalue] at hvariable
        exact hnamed _ hvariable
      | some value =>
        rw [hvalue] at hvariable
        exact hvariable.imp_right (hnamed _)

end Widens

/-- Whoever may do anything with rules may look at them. -/
theorem Directory.Allows.view {d : Directory} {lookup : String → Option String} {caller : Contact}
    {action : RuleAction} (h : d.Allows lookup caller action) : d.Allows lookup caller .view := by
  refine h.imp_right fun ⟨hrole, hvariable⟩ => ⟨?_, hvariable⟩
  cases action with
  | view => exact hrole
  | create => exact .inr hrole
  | edit => exact .inr hrole
  | delete => exact .inr hrole

/-! ## The decision -/

/-- Who is permitted what, for every environment that the settings can be read from, every world and
    every caller. The caller gets past the first check of an operation, and is not turned away
    whatever it asks for, exactly if it is an admin, or has a role for the operation and is in the
    access group that the variable asks for. So a caller who is not turned away when it changes
    rules is not turned away when it lists them either. And a caller who was given more since is not
    turned away where it was not before, whatever has become of the rules meanwhile. -/
theorem permissions_from_environment {lookup : String → Option String} {settings : Settings}
    (hsettings : Settings.ofVariables lookup = .ok settings) :
    let manager := World.manager settings.accessGroup
    (∀ (w : World) (caller : Contact) (o : Operation) (action : RuleAction),
      o.action? = some action →
        (((manager.authorize caller action).run.run w).1 = .ok () ↔
          w.directory.Allows lookup caller action) ∧
        ∀ x : o.Input, ¬ o.TurnsAway manager caller x w ↔
          w.directory.Allows lookup caller action) ∧
    (∀ (w : World) (caller : Contact) (o : Operation) (x : o.Input), o.action?.isSome →
      ¬ o.TurnsAway manager caller x w → ¬ Operation.list.TurnsAway manager caller () w) ∧
    ∀ (w v : World) (caller other : Contact) (grants : List Grant) (o : Operation)
      (x y : o.Input), (v.directory, other) = Grant.giveAll w.directory caller grants →
        ¬ o.TurnsAway manager caller x w → ¬ o.TurnsAway manager other y v := by
  intro manager
  have hdecision {w : World} {caller : Contact} {o : Operation} {action : RuleAction}
      (ho : o.action? = some action) (x : o.Input) :
      ¬ o.TurnsAway manager caller x w ↔ w.directory.Allows lookup caller action := by
    rw [Operation.turnsAway_iff ho, not_not, Settings.permits_iff_allows hsettings]
  refine ⟨fun w caller o action ho => ⟨?_, hdecision ho⟩, fun w caller o x hsome h => ?_,
    fun w v caller other grants o x y hgiven h => ?_⟩
  · rw [← Settings.permits_iff_allows hsettings, run_authorize]
    by_cases hpermits : w.directory.Permits settings.accessGroup caller action <;> simp [hpermits]
  · obtain ⟨action, ho⟩ := Option.isSome_iff_exists.1 hsome
    have hlist : Operation.list.action? = some .view := rfl
    exact (hdecision hlist ()).2 ((hdecision ho x).1 h).view
  · cases ho : o.action? with
    | none => simp [Operation.TurnsAway, ho]
    | some action =>
      have hwidens : Widens (w.directory, caller) (v.directory, other) := by
        rw [hgiven]
        exact .giveAll w.directory caller grants
      exact (hdecision ho y).2 (hwidens.allows ((hdecision ho x).1 h))

/-- White space around the name of the group does not count. A guest with the write role is turned
    away from a removal until it is given the group, and from then on it may list the rules too. -/
theorem permissions_from_environment_padded :
    let lookup (name : String) : Option String :=
      if name = Settings.accessGroupVariable then some " ops " else none
    let settings : Settings := { Settings.default with accessGroup := some "ops" }
    let manager := World.manager settings.accessGroup
    let guest : Contact := ⟨2, "guest", false, [Role.writeRules]⟩
    let ops : AccessGroup := ⟨1, "ops"⟩
    let after := { opsWorld with directory := opsWorld.directory.withAccessGroup guest.id ops }
    Settings.ofVariables lookup = .ok settings ∧
      Operation.delete.TurnsAway manager guest (1 : Id) opsWorld ∧
      ¬ Operation.delete.TurnsAway manager guest (1 : Id) after ∧
      ¬ Operation.list.TurnsAway manager guest () after ∧
      ¬ Operation.list.TurnsAway manager { guest with isAdmin := true } () after := by
  intro lookup settings manager guest ops after
  have hsettings : Settings.ofVariables lookup = .ok settings := by decide
  obtain ⟨hdecision, hlist, hmore⟩ := permissions_from_environment hsettings
  have hdelete : Operation.delete.action? = some .delete := rfl
  -- in the directory of the small world the guest is in no group
  have hrefused : ¬ opsWorld.directory.Allows lookup guest .delete := by
    rintro (hadmin | ⟨_, hblank | ⟨group, hgroup, _⟩⟩)
    · cases hadmin
    · exact absurd (hblank 'o' (by decide)) (by decide)
    · cases hgroup
  have hallowed : after.directory.Allows lookup guest .delete := by
    refine .inr ⟨List.mem_singleton_self _, .inr ⟨ops, ?_, ?_⟩⟩
    · exact List.mem_singleton_self _
    · decide
  have hturned : ¬ ¬ Operation.delete.TurnsAway manager guest (1 : Id) opsWorld := fun h =>
    hrefused (((hdecision _ _ _ _ hdelete).2 (1 : Id)).1 h)
  have hpassed := ((hdecision after guest _ _ hdelete).2 (1 : Id)).2 hallowed
  have hlisted := hlist _ _ _ _ rfl hpassed
  refine ⟨hsettings, not_not.1 hturned, hpassed, hlisted, ?_⟩
  exact hmore after after guest _ [.admin] .list () () rfl hlisted

end AccessScope
