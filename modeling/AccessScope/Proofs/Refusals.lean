import AccessScope.Proofs.WorldRuns

/-!
# Callers who are turned away

Every operation that manages rules asks first whether the caller may do so, and asks nothing else
before that. A caller who may not is turned away with a text that depends on the operation alone:
whatever rules there are, whoever else is in the directory and whatever the request says, nothing of
it can be seen in the answer. The rules and the directory stay as they are; only the refusal is
counted. `Operation.perform` gathers the operations under one name, so that this is said once.

## Key results

- `Manager.run_authorize_of_refused`: only the caller's own access groups are looked up
- `Operation.run_perform_of_refused`: a caller who is turned away gets one answer, whatever the
  collaborators do
- `refused_callers_learn_nothing`: two calls of one operation by such a caller, in any two worlds
-/

namespace AccessScope

/-! ## Operations -/

namespace Operation

/-- What a caller asks for with an operation. -/
def Input : Operation → Type
  | create => RuleRequest
  | find | delete => Id
  | list | findEffective => Unit
  | update => Id × RuleRequest
  | partialUpdate => Id × ChangeRequest

/-- What an operation gives when it is done. -/
def Payload : Operation → Type
  | create | find => Rule
  | list | findEffective => List Rule
  | update | partialUpdate | delete => Unit

/-- What the caller must be permitted to do. Everyone may ask for the rules that reach them. -/
def action? : Operation → Option RuleAction
  | create => some .create
  | find | list => some .view
  | update | partialUpdate => some .edit
  | delete => some .delete
  | findEffective => none

/-- Runs an operation on behalf of a caller. -/
def perform {σ : Type} (m : Manager σ) (caller : Contact) :
    (o : Operation) → o.Input → StateM σ (Response o.Payload)
  | create, request => m.create caller request
  | find, id => m.find caller id
  | list, () => m.list caller
  | update, (id, request) => m.update caller id request
  | partialUpdate, (id, request) => m.partialUpdate caller id request
  | delete, id => m.delete caller id
  | findEffective, () => m.findEffective caller

end Operation

/-! ## Being turned away -/

section

variable {σ : Type} {m : Manager σ} {caller : Contact} {action : RuleAction} {w v : σ}

/-- A caller who is no admin and lacks the access group or the role is turned away. Of the
    collaborators, only the one that knows the caller's access groups is asked. -/
theorem Manager.run_authorize_of_refused {groups : List AccessGroup} (hadmin : ¬ caller.isAdmin)
    (hgroups : (m.collaborators.accessGroupsOf caller.id).run.run w = (.ok groups, w))
    (hlacks : (∃ required ∈ m.accessGroup, ∀ group ∈ groups, group.name ≠ required) ∨
      ∀ role ∈ action.roles, role ∉ caller.roles) :
    (m.authorize caller action).run.run w = (.error (.notAllowed action), w) := by
  have hthrow : (throw (.notAllowed action) : Action σ Unit).run.run w =
      (.error (.notAllowed action), w) := rfl
  have hroles (h : ∀ role ∈ action.roles, role ∉ caller.roles) :
      caller.hasAnyRole action.roles = false := by
    simpa [Contact.hasAnyRole] using h
  unfold Manager.authorize
  rw [if_neg hadmin]
  cases hrequired : m.accessGroup with
  | none =>
    obtain ⟨required, hmem, _⟩ | hnone := hlacks
    · rw [hrequired] at hmem
      cases hmem
    · simpa [hroles hnone] using hthrow
  | some required =>
    dsimp only
    rw [run_bind_ok hgroups]
    by_cases hmember : groups.any (·.name = required)
    · obtain ⟨other, hmem, hnone⟩ | hnone := hlacks
      · -- the caller is in the group, so it cannot be the group that is missing
        rw [hrequired] at hmem
        cases hmem
        obtain ⟨group, hgroup, hname⟩ := List.any_eq_true.1 hmember
        exact absurd (of_decide_eq_true hname) (hnone group hgroup)
      · simpa [hmember, hroles hnone] using hthrow
    · rw [if_neg hmember]
      exact run_bind_error hthrow

/-- An operation whose steps fail answers with the failure and counts that. -/
theorem Manager.run_answer_of_error {α : Type} (m : Manager σ) (o : Operation)
    {steps : Action σ α} {failure : Failure} (h : steps.run.run w = (.error failure, v)) :
    (m.answer o steps).run w =
      (.ofFailure o.label failure,
        ((m.collaborators.count (.operation o.label failure.kind.label)).run v).2) := by
  simp only [Manager.answer, StateT.run_bind, h]
  rfl

/-- The same of an operation that gives nothing. -/
theorem Manager.run_answerDone_of_error (m : Manager σ) (o : Operation) {steps : Action σ Unit}
    {failure : Failure} (h : steps.run.run w = (.error failure, v)) :
    (m.answerDone o steps).run w =
      (.ofFailure o.label failure,
        ((m.collaborators.count (.operation o.label failure.kind.label)).run v).2) := by
  simp only [Manager.answerDone, StateT.run_bind, h]
  rfl

/-- A caller who is turned away gets the same answer to whatever it asks for with an operation, and
    nothing is done but to count that. -/
theorem Operation.run_perform_of_refused {o : Operation} (ho : o.action? = some action)
    (hrefused : (m.authorize caller action).run.run w = (.error (.notAllowed action), v))
    (x : o.Input) :
    (o.perform m caller x).run w =
      (.forbidden (Failure.notAllowed action).text,
        ((m.collaborators.count (.operation o.label FailureKind.forbidden.label)).run v).2) := by
  -- every operation starts with the check of the caller, so the rest of its steps does not matter
  have hsteps {β : Type} (rest : Unit → Action σ β) :
      (m.authorize caller action >>= rest).run.run w = (.error (.notAllowed action), v) :=
    run_bind_error hrefused
  cases o with
  | create => cases ho; exact m.run_answer_of_error .create (hsteps _)
  | find => cases ho; exact m.run_answer_of_error .find (hsteps _)
  | list => cases ho; exact m.run_answer_of_error .list (hsteps _)
  | update => cases ho; exact m.run_answerDone_of_error .update (hsteps _)
  | partialUpdate => cases ho; exact m.run_answerDone_of_error .partialUpdate (hsteps _)
  | delete => cases ho; exact m.run_answerDone_of_error .delete (hsteps _)
  | findEffective => cases ho

end

/-! ## Two calls -/

/-- A caller who is turned away learns nothing. Two calls of one operation by a caller who is no
    admin, and lacks the required access group or every role that the operation needs, are answered
    with the same words: whatever rules, resources and counts the two worlds hold, whatever their
    directories say besides the caller's own access groups, and whatever rule and input the calls
    name. Neither call changes anything but the count of refusals. -/
theorem refused_callers_learn_nothing {accessGroup : Option String} {caller : Contact}
    {groups : List AccessGroup} {action : RuleAction} {w v : World} (o : Operation)
    (ho : o.action? = some action) (hadmin : ¬ caller.isAdmin)
    (hlacks : (∃ required ∈ accessGroup, ∀ group ∈ groups, group.name ≠ required) ∨
      ∀ role ∈ action.roles, role ∉ caller.roles)
    (hw : w.directory.accessGroupsOf caller.id = groups)
    (hv : v.directory.accessGroupsOf caller.id = groups) (x y : o.Input) :
    let first := (o.perform (World.manager accessGroup) caller x).run w
    let second := (o.perform (World.manager accessGroup) caller y).run v
    let refusal := Series.operation o.label FailureKind.forbidden.label
    first.1 = .forbidden (Failure.notAllowed action).text ∧ second.1 = first.1 ∧
      first.2 = { w with counters := w.counters.increment refusal } ∧
        second.2 = { v with counters := v.counters.increment refusal } := by
  intro first second refusal
  have hrefused (u : World) (hu : u.directory.accessGroupsOf caller.id = groups) :
      ((World.manager accessGroup).authorize caller action).run.run u =
        (.error (.notAllowed action), u) := by
    refine Manager.run_authorize_of_refused hadmin ?_ hlacks
    -- the groups are all that the check asks for, and the two worlds have the same
    rw [← hu]
    rfl
  have hfirst : first = (_, { w with counters := w.counters.increment refusal }) :=
    Operation.run_perform_of_refused ho (hrefused w hw) x
  have hsecond : second = (_, { v with counters := v.counters.increment refusal }) :=
    Operation.run_perform_of_refused ho (hrefused v hv) y
  rw [hfirst, hsecond]
  exact ⟨rfl, rfl, rfl, rfl⟩

/-- Who may only see rules is refused an edit in the same words, whether the rule exists and the
    edit is possible or neither. -/
theorem refused_callers_learn_nothing_of_edits :
    let guest : Contact := ⟨2, "guest", false, [Role.readRules]⟩
    let ops : AccessGroup := ⟨1, "ops"⟩
    let withGuest (u : World) := { u with directory := u.directory.withAccessGroup guest.id ops }
    let first := ((World.manager (some ops.name)).partialUpdate guest 1
      { noEdit with name := some "Web" }).run (withGuest opsWorld)
    let second := ((World.manager (some ops.name)).partialUpdate guest 9
      { noEdit with name := some "", filters := some [] }).run (withGuest .empty)
    guest.isAdmin = false ∧ (∀ role ∈ RuleAction.edit.roles, role ∉ guest.roles) ∧
      (withGuest opsWorld).directory.accessGroupsOf guest.id = [ops] ∧
      (withGuest .empty).directory.accessGroupsOf guest.id = [ops] ∧
      first.1 = .forbidden "You are not allowed to edit resource access rules" ∧
        second.1 = first.1 ∧ first.2.store = (withGuest opsWorld).store ∧
          second.2.store = (withGuest .empty).store := by
  intro guest ops withGuest first second
  have hlacks : ∀ role ∈ RuleAction.edit.roles, role ∉ guest.roles := by decide
  have hopsGroups : (withGuest opsWorld).directory.accessGroupsOf guest.id = [ops] := by rfl
  have hemptyGroups : (withGuest .empty).directory.accessGroupsOf guest.id = [ops] := by rfl
  -- the guest is in the required access group and lacks the roles only
  have hlacksEither : (∃ required ∈ some ops.name, ∀ group ∈ [ops], group.name ≠ required) ∨
      ∀ role ∈ RuleAction.edit.roles, role ∉ guest.roles := .inr hlacks
  obtain ⟨htext, hsame, hfirst, hsecond⟩ :=
    refused_callers_learn_nothing .partialUpdate rfl (by decide) hlacksEither hopsGroups
      hemptyGroups (1, { noEdit with name := some "Web" })
      (9, { noEdit with name := some "", filters := some [] })
  have hfirstStore := congrArg World.store hfirst
  have hsecondStore := congrArg World.store hsecond
  exact ⟨rfl, hlacks, hopsGroups, hemptyGroups, htext, hsame, hfirstStore, hsecondStore⟩

end AccessScope
