import AccessScope.Proofs.CountedSteps
import AccessScope.Proofs.Views
import Mathlib.Algebra.BigOperators.Group.Finset.Piecewise

/-!
# What calls count

Every call is counted once under its operation, with an outcome that fits the response. Every
look-up of the rules that reach the caller is counted as well, by the kind of caller: always when
the rules are asked for, when they are listed if the caller may, and when one rule is found if the
caller may, there is one, and the caller is no admin. This file follows the counters through runs of
any length and shows that they account for every call.

## Key results

- `UseCase.run_perform_recounted`: what one call counts, whatever was counted before
- `UseCase.countedAs`: the outcome that is counted fits the response
- `World.after_recounted`: what a run counts
- `counters_account_for_calls`: the counts after every run
-/

namespace AccessScope

/-! ## Outcomes -/

/-- The statuses of responses, and the outcomes as which they are counted. -/
inductive CountedAs : String → String → Prop where
  | same {status : String}
    (h : status ∈ ["success", "no_content", "forbidden", "not_found", "conflict"]) :
    CountedAs status status
  | validation : CountedAs "invalid_argument" "validation"
  | badRequest : CountedAs "invalid_argument" "bad_request"

/-- All outcomes as which responses are counted. -/
def countedOutcomes : Finset String :=
  {"success", "no_content", "forbidden", "not_found", "conflict", "validation", "bad_request"}

theorem CountedAs.mem_countedOutcomes {status outcome : String} (h : CountedAs status outcome) :
    outcome ∈ countedOutcomes := by
  cases h with
  | same h =>
    simp only [List.mem_cons, List.not_mem_nil, or_false] at h
    obtain rfl | rfl | rfl | rfl | rfl := h <;> decide
  | validation => decide
  | badRequest => decide

/-- A failure that is not internal is counted as its kind. -/
theorem countedAs_ofFailure {α : Type} {label : String} {failure : Failure}
    (h : failure.kind ≠ .internal) :
    CountedAs (Response.ofFailure label failure : Response α).status failure.kind.label := by
  unfold Response.ofFailure
  cases hkind : failure.kind with
  | internal => exact absurd hkind h
  | validation => exact .validation
  | badRequest => exact .badRequest
  | forbidden => exact .same (by simp [Response.status])
  | notFound => exact .same (by simp [Response.status])
  | conflict => exact .same (by simp [Response.status])

namespace Counts

variable {α : Type} {added : World → List Series}

/-- The outcome of steps that give a value fits the response. -/
theorem countedAs_ofResult {steps : Action World α} (h : Counts steps added) (w : World)
    (label : String) :
    CountedAs (Response.ofResult label (steps.run.run w).1).status
      (outcomeLabel "success" (steps.run.run w).1) := by
  cases hresult : (steps.run.run w).1 with
  | ok a => exact .same (by simp [Response.ofResult, Response.status])
  | error failure => exact countedAs_ofFailure (h.failsOnly w failure hresult)

/-- So does that of steps that give nothing. -/
theorem countedAs_ofDone {steps : Action World Unit} (h : Counts steps added) (w : World)
    (label : String) :
    CountedAs (Response.ofDone label (steps.run.run w).1 : Response Unit).status
      (outcomeLabel "no_content" (steps.run.run w).1) := by
  cases hresult : (steps.run.run w).1 with
  | ok a => exact .same (by simp [Response.ofDone, Response.status])
  | error failure => exact countedAs_ofFailure (h.failsOnly w failure hresult)

/-- A program that counts the outcome of its steps counts that after what the steps count. -/
private theorem run_outcome_recounted {steps : Action World α} (h : Counts steps added)
    (respond : Except Failure α → String) (series : Except Failure α → Series) (w : World)
    (c : Counters) :
    let program : StateM World String := do
      let result ← steps.run
      World.collaborators.count (series result)
      return respond result
    program.run (w.recounted c) = ((program.run w).1,
      (program.run w).2.recounted
        (c.incrementAll (added w ++ [series (steps.run.run w).1]))) := by
  intro program
  have hprogram (v : World) : program.run v = (respond (steps.run.run v).1,
      (steps.run.run v).2.recounted
        ((steps.run.run v).2.counters.increment (series (steps.run.run v).1))) := rfl
  rw [hprogram, hprogram, h.run_recounted, Counters.incrementAll_append]
  rfl

variable (accessGroup : Option String) (o : Operation) (w : World) (c : Counters)

/-- An operation that gives a value counts what its steps count, and then their outcome. -/
theorem run_answer_recounted {steps : Action World α} (h : Counts steps added) :
    let program := Response.status <$> (World.manager accessGroup).answer o steps
    program.run (w.recounted c) = ((program.run w).1,
      (program.run w).2.recounted (c.incrementAll
        (added w ++ [.operation o.label (outcomeLabel "success" (steps.run.run w).1)]))) :=
  h.run_outcome_recounted (fun result => (Response.ofResult o.label result).status)
    (fun result => .operation o.label (outcomeLabel "success" result)) w c

/-- So does one that gives nothing. -/
theorem run_answerDone_recounted {steps : Action World Unit} (h : Counts steps added) :
    let program := Response.status <$> (World.manager accessGroup).answerDone o steps
    program.run (w.recounted c) = ((program.run w).1,
      (program.run w).2.recounted (c.incrementAll
        (added w ++ [.operation o.label (outcomeLabel "no_content" (steps.run.run w).1)]))) :=
  h.run_outcome_recounted (fun result => (Response.ofDone o.label result : Response Unit).status)
    (fun result => .operation o.label (outcomeLabel "no_content" result)) w c

end Counts

/-! ## Calls -/

theorem Operation.label_injective : Function.Injective label := by
  intro o p
  cases o <;> cases p <;> decide

namespace UseCase

/-- The operation that a use case is. -/
def operation : UseCase → Operation
  | create _ => .create
  | find _ => .find
  | list => .list
  | update _ _ => .update
  | partialUpdate _ _ => .partialUpdate
  | delete _ => .delete
  | findEffective => .findEffective

/-- The outcome as which a use case is counted. -/
def outcome (m : Manager World) (caller : Contact) (w : World) : UseCase → String
  | create request => outcomeLabel "success" ((m.tryCreate caller request).run.run w).1
  | find id => outcomeLabel "success" ((m.tryFind caller id).run.run w).1
  | list => outcomeLabel "success" ((m.tryList caller).run.run w).1
  | update id request => outcomeLabel "no_content" ((m.tryUpdate caller id request).run.run w).1
  | partialUpdate id request =>
    outcomeLabel "no_content" ((m.tryPartialUpdate caller id request).run.run w).1
  | delete id => outcomeLabel "no_content" ((m.tryDelete caller id).run.run w).1
  | findEffective =>
    outcomeLabel "success" ((m.collaborators.effectiveRules caller).run.run w).1

/-- The look-ups that a use case counts. -/
def lookups (accessGroup : Option String) (caller : Contact) (w : World) : UseCase → List Series
  | findEffective => [.effectiveRules caller.isAdmin]
  | list =>
    if w.directory.Permits accessGroup caller .view then [.effectiveRules caller.isAdmin] else []
  | find id =>
    if w.directory.Permits accessGroup caller .view ∧ (w.store.find? id).isSome ∧
      caller.isAdmin = false then [.effectiveRules false] else []
  | _ => []

/-- All that a use case counts: look-ups, and at the end its outcome. -/
def counted (accessGroup : Option String) (caller : Contact) (w : World) (u : UseCase) :
    List Series :=
  u.lookups accessGroup caller w ++
    [.operation u.operation.label (u.outcome (World.manager accessGroup) caller w)]

variable (accessGroup : Option String) (caller : Contact) (u : UseCase) (w : World)

/-- What a use case does, besides counting, does not depend on what was counted before. -/
theorem run_perform_recounted (c : Counters) :
    (u.perform (World.manager accessGroup) caller).run (w.recounted c) =
      (((u.perform (World.manager accessGroup) caller).run w).1,
        ((u.perform (World.manager accessGroup) caller).run w).2.recounted
          (c.incrementAll (u.counted accessGroup caller w))) := by
  cases u with
  | create request =>
    exact (uncounted_tryCreate accessGroup caller request).run_answer_recounted accessGroup _ w c
  | find id => exact (counts_tryFind accessGroup caller id).run_answer_recounted accessGroup _ w c
  | list => exact (counts_tryList accessGroup caller).run_answer_recounted accessGroup _ w c
  | update id request =>
    exact (uncounted_tryUpdate accessGroup caller id request).run_answerDone_recounted
      accessGroup _ w c
  | partialUpdate id request =>
    exact (uncounted_tryPartialUpdate accessGroup caller id request).run_answerDone_recounted
      accessGroup _ w c
  | delete id =>
    exact (uncounted_tryDelete accessGroup caller id).run_answerDone_recounted accessGroup _ w c
  | findEffective => exact (counts_effectiveRules caller).run_answer_recounted accessGroup _ w c

/-- The outcome that is counted fits the response. -/
theorem countedAs :
    CountedAs ((u.perform (World.manager accessGroup) caller).run w).1
      (u.outcome (World.manager accessGroup) caller w) := by
  cases u with
  | create request => exact (uncounted_tryCreate accessGroup caller request).countedAs_ofResult w _
  | find id => exact (counts_tryFind accessGroup caller id).countedAs_ofResult w _
  | list => exact (counts_tryList accessGroup caller).countedAs_ofResult w _
  | update id request =>
    exact (uncounted_tryUpdate accessGroup caller id request).countedAs_ofDone w _
  | partialUpdate id request =>
    exact (uncounted_tryPartialUpdate accessGroup caller id request).countedAs_ofDone w _
  | delete id => exact (uncounted_tryDelete accessGroup caller id).countedAs_ofDone w _
  | findEffective => exact (counts_effectiveRules caller).countedAs_ofResult w _

/-- No look-up is counted as a call. -/
theorem count_operation_lookups (name label : String) :
    (u.lookups accessGroup caller w).count (.operation name label) = 0 := by
  rw [List.count_eq_zero]
  intro h
  cases u with
  | findEffective => simp [lookups] at h
  | list => simp [lookups] at h
  | find id => simp [lookups] at h
  | _ => cases h

/-- A call is counted once, under its operation and its outcome. -/
theorem count_operation_counted (name label : String) :
    (u.counted accessGroup caller w).count (.operation name label) =
      if u.operation.label = name ∧ u.outcome (World.manager accessGroup) caller w = label then 1
      else 0 := by
  rw [counted, List.count_append, count_operation_lookups, List.count_singleton]
  simp only [beq_iff_eq, Series.operation.injEq, zero_add]

/-- So a call raises the count of its operation and its outcome by one, and no other count of an
    operation. -/
theorem count_operation_perform (name label : String) :
    ((u.perform (World.manager accessGroup) caller).run w).2.counters.count
        (.operation name label) =
      w.counters.count (.operation name label) +
        if u.operation.label = name ∧ u.outcome (World.manager accessGroup) caller w = label then 1
        else 0 := by
  have hrun := u.run_perform_recounted accessGroup caller w w.counters
  rw [show w.recounted w.counters = w from rfl] at hrun
  have hcounters : ((u.perform (World.manager accessGroup) caller).run w).2.counters =
      w.counters.incrementAll (u.counted accessGroup caller w) := congrArg (·.2.counters) hrun
  rw [hcounters, Counters.count_incrementAll, count_operation_counted]

/-- Over all outcomes, a call counts once for its operation and for no other. -/
theorem sum_count_counted (o : Operation) :
    ∑ outcome ∈ countedOutcomes,
      (u.counted accessGroup caller w).count (.operation o.label outcome) =
        if u.operation = o then 1 else 0 := by
  have hlabel : u.operation.label = o.label ↔ u.operation = o := Operation.label_injective.eq_iff
  -- exactly one term of the sum is not zero, that of the outcome which the call has
  have hmem := (u.countedAs accessGroup caller w).mem_countedOutcomes
  simp only [count_operation_counted, hlabel]
  by_cases ho : u.operation = o
  · simp only [ho, true_and, if_true, Finset.sum_ite_eq, hmem]
  · simp [ho]

end UseCase

/-! ## Runs -/

/-- The operation that an event is a call of, if it is a call. -/
def Event.operation? : Event → Option Operation
  | call _ useCase => some useCase.operation
  | join _ _ => none

/-- A call, with the world in which it is made. -/
structure Call where
  world : World
  caller : Contact
  useCase : UseCase

namespace Call

variable (accessGroup : Option String) (c : Call)

/-- The call passes the check of who may see rules. -/
def MayView : Prop := c.world.directory.Permits accessGroup c.caller .view

instance : Decidable (c.MayView accessGroup) :=
  inferInstanceAs (Decidable (Directory.Permits ..))

/-- The call is for one rule, and there is a rule under the id. -/
def FindsRule : Prop :=
  match c.useCase with
  | .find id => (c.world.store.find? id).isSome
  | _ => False

instance : Decidable c.FindsRule := by
  unfold FindsRule
  split <;> infer_instance

/-- All that the call counts. -/
def counted : List Series := c.useCase.counted accessGroup c.caller c.world

/-- How often a call looks up the rules that reach the caller, for callers of one kind. -/
theorem count_effectiveRules_counted (admin : Bool) :
    (c.counted accessGroup).count (.effectiveRules admin) =
      (if c.useCase.operation = .findEffective ∧ c.caller.isAdmin = admin then 1 else 0) +
        (if c.useCase.operation = .list ∧ c.MayView accessGroup ∧ c.caller.isAdmin = admin then 1
          else 0) +
        if admin = false ∧ c.FindsRule ∧ c.MayView accessGroup ∧ c.caller.isAdmin = false then 1
        else 0 := by
  have hcounted : (c.counted accessGroup).count (.effectiveRules admin) =
      (c.useCase.lookups accessGroup c.caller c.world).count (.effectiveRules admin) := by
    rw [counted, UseCase.counted, List.count_append]
    simp
  -- at most one of the three conditions is about the use case
  rw [hcounted]
  obtain ⟨w, caller, useCase⟩ := c
  cases useCase with
  | findEffective =>
    simp [UseCase.lookups, UseCase.operation, FindsRule, List.count_singleton]
  | list =>
    by_cases hmay : w.directory.Permits accessGroup caller .view
    · simp [UseCase.lookups, UseCase.operation, FindsRule, MayView, hmay, List.count_singleton]
    · simp [UseCase.lookups, UseCase.operation, FindsRule, MayView, hmay]
  | find id =>
    by_cases hlooked : w.directory.Permits accessGroup caller .view ∧
        (w.store.find? id).isSome ∧ caller.isAdmin = false
    · obtain ⟨hmay, hfound, hadmin⟩ := hlooked
      cases admin <;> simp [UseCase.lookups, UseCase.operation, FindsRule, MayView, hmay, hfound,
        hadmin]
    · have hnone : ¬ (admin = false ∧ (w.store.find? id).isSome ∧
          w.directory.Permits accessGroup caller .view ∧ caller.isAdmin = false) :=
        fun ⟨_, hfound, hmay, hadmin⟩ => hlooked ⟨hmay, hfound, hadmin⟩
      simp only [UseCase.lookups, UseCase.operation, FindsRule, MayView, if_neg hlooked,
        List.count_nil, reduceCtorEq, false_and, if_false, zero_add]
      exact (if_neg hnone).symm
  | _ => simp [UseCase.lookups, UseCase.operation, FindsRule]

end Call

/-- The calls of a run, each with the world that the events before it have left. -/
def World.calls (accessGroup : Option String) : World → List Event → List Call
  | _, [] => []
  | w, e :: events =>
    let rest := calls accessGroup (e.after accessGroup w) events
    match e with
    | .call caller useCase => ⟨w, caller, useCase⟩ :: rest
    | .join _ _ => rest

/-- What an event counts: something if it is a call. -/
def Event.counted (accessGroup : Option String) (w : World) : Event → List Series
  | call caller useCase => useCase.counted accessGroup caller w
  | join _ _ => []

/-- What an event does, besides counting, does not depend on what was counted before. -/
theorem Event.after_recounted (accessGroup : Option String) (w : World) (c : Counters) (e : Event) :
    e.after accessGroup (w.recounted c) =
      (e.after accessGroup w).recounted (c.incrementAll (e.counted accessGroup w)) := by
  cases e with
  | call caller useCase =>
    exact congrArg Prod.snd (useCase.run_perform_recounted accessGroup caller w c)
  | join contact group => rfl

namespace World

variable (accessGroup : Option String)

/-- All that the calls of a run count. -/
def countedBy (w : World) (events : List Event) : List Series :=
  (w.calls accessGroup events).flatMap (Call.counted accessGroup)

theorem countedBy_cons (w : World) (e : Event) (events : List Event) :
    w.countedBy accessGroup (e :: events) =
      e.counted accessGroup w ++ (e.after accessGroup w).countedBy accessGroup events := by
  cases e with
  | call caller useCase => exact List.flatMap_cons
  | join contact group => rfl

/-- A run counts what its calls count, and does not depend on what was counted before. -/
theorem after_recounted (w : World) (c : Counters) (events : List Event) :
    (w.recounted c).after accessGroup events =
      (w.after accessGroup events).recounted
        (c.incrementAll (w.countedBy accessGroup events)) := by
  -- every event changes the world and the counters that the rest of the run starts from
  induction events generalizing w c with
  | nil => rfl
  | cons e events ih =>
    have hstep (v : World) : v.after accessGroup (e :: events) =
        (e.after accessGroup v).after accessGroup events := rfl
    rw [hstep, hstep, e.after_recounted, ih, countedBy_cons, Counters.incrementAll_append]

/-- The count of a series after a run. -/
theorem count_after (w : World) (events : List Event) (s : Series) :
    (w.after accessGroup events).counters.count s =
      w.counters.count s + (w.countedBy accessGroup events).count s := by
  have hrun := w.after_recounted accessGroup w.counters events
  rw [show w.recounted w.counters = w from rfl] at hrun
  rw [hrun, recounted, Counters.count_incrementAll]

/-- Describing the counters before a run makes no difference to any count after it. -/
theorem count_after_describe (w : World) (events : List Event) (s : Series) :
    ((w.recounted w.counters.describe).after accessGroup events).counters.count s =
      (w.after accessGroup events).counters.count s := by
  rw [after_recounted, count_after, recounted, Counters.count_incrementAll,
    Counters.count_describe]

/-- Over all outcomes, an operation is counted as often as it was called. -/
theorem sum_count_countedBy (w : World) (events : List Event) (o : Operation) :
    ∑ outcome ∈ countedOutcomes, (w.countedBy accessGroup events).count (.operation o.label outcome)
      = events.countP (·.operation? = some o) := by
  induction events generalizing w with
  | nil => simp [countedBy, calls]
  | cons e events ih =>
    simp only [countedBy_cons, List.count_append, Finset.sum_add_distrib, ih, List.countP_cons]
    cases e with
    | call caller useCase =>
      simp only [Event.counted, UseCase.sum_count_counted, Event.operation?, Option.some.injEq,
        decide_eq_true_eq]
      omega
    | join contact group => simp [Event.counted, Event.operation?]

/-- No other outcome is counted. -/
theorem count_countedBy_of_not_mem (w : World) (events : List Event) (name : String)
    {outcome : String} (h : outcome ∉ countedOutcomes) :
    (w.countedBy accessGroup events).count (.operation name outcome) = 0 := by
  induction events generalizing w with
  | nil => rfl
  | cons e events ih =>
    rw [countedBy_cons, List.count_append, ih]
    cases e with
    | call caller useCase =>
      have hmem := (useCase.countedAs accessGroup caller w).mem_countedOutcomes
      rw [Event.counted, UseCase.count_operation_counted, if_neg]
      -- the call has an outcome that is listed, so it is not this one
      rintro ⟨_, rfl⟩
      exact h hmem
    | join contact group => rfl

/-- How often the rules that reach a contact are looked up. -/
theorem count_effectiveRules_countedBy (w : World) (events : List Event) (admin : Bool) :
    (w.countedBy accessGroup events).count (.effectiveRules admin) =
      (w.calls accessGroup events).countP
          (fun c => c.useCase.operation = .findEffective ∧ c.caller.isAdmin = admin) +
        (w.calls accessGroup events).countP
          (fun c => c.useCase.operation = .list ∧ c.MayView accessGroup ∧
            c.caller.isAdmin = admin) +
        (w.calls accessGroup events).countP
          (fun c => admin = false ∧ c.FindsRule ∧ c.MayView accessGroup ∧
            c.caller.isAdmin = false) := by
  unfold countedBy
  -- the worlds of the calls do not matter any more, so the induction is on the calls alone
  induction w.calls accessGroup events with
  | nil => rfl
  | cons call calls ih =>
    simp only [List.flatMap_cons, List.count_append, Call.count_effectiveRules_counted, ih,
      List.countP_cons, decide_eq_true_eq]
    omega

end World

/-- The counters account for every call. After every run that starts without counts, in whatever
    world, each operation was counted as often as it was called, over all outcomes; each call is
    counted under one outcome of its operation, which fits the response, and changes no other count
    of an operation. The rules that reach a contact were looked up as often as they were asked for,
    listed by a caller who may see rules, and, unless the caller is an admin, as often as a rule was
    asked for that was there by a caller who may see it. And describing the counters before makes no
    difference to any count. -/
theorem counters_account_for_calls (accessGroup : Option String) (store : RuleStore)
    (directory : Directory) (events : List Event) :
    let start : World := ⟨store, directory, .empty⟩
    let described : World := ⟨store, directory, Counters.empty.describe⟩
    let calls := start.calls accessGroup events
    let counters := (start.after accessGroup events).counters
    (∀ o : Operation,
        ∑ outcome ∈ countedOutcomes, counters.count (.operation o.label outcome) =
            events.countP (·.operation? = some o) ∧
          ∀ outcome ∉ countedOutcomes, counters.count (.operation o.label outcome) = 0) ∧
      (∀ (w : World) (caller : Contact) (useCase : UseCase),
        let result := (useCase.perform (World.manager accessGroup) caller).run w
        ∃ outcome, CountedAs result.1 outcome ∧ ∀ name label,
          result.2.counters.count (.operation name label) = w.counters.count (.operation name label)
            + if useCase.operation.label = name ∧ outcome = label then 1 else 0) ∧
      (∀ admin, counters.count (.effectiveRules admin) =
        calls.countP (fun c => c.useCase.operation = .findEffective ∧ c.caller.isAdmin = admin) +
          calls.countP (fun c => c.useCase.operation = .list ∧ c.MayView accessGroup ∧
            c.caller.isAdmin = admin) +
          calls.countP (fun c => admin = false ∧ c.FindsRule ∧ c.MayView accessGroup ∧
            c.caller.isAdmin = false)) ∧
      ∀ s, (described.after accessGroup events).counters.count s = counters.count s := by
  intro start described calls counters
  have hcount (s : Series) : counters.count s = (start.countedBy accessGroup events).count s :=
    (start.count_after accessGroup events s).trans (Nat.zero_add _)
  refine ⟨fun o => ⟨?_, fun outcome h => ?_⟩, fun w caller useCase => ?_, fun admin => ?_,
    fun s => ?_⟩
  · simp only [hcount]
    exact start.sum_count_countedBy accessGroup events o
  · rw [hcount]
    exact start.count_countedBy_of_not_mem accessGroup events o.label h
  · exact ⟨_, useCase.countedAs accessGroup caller w,
      useCase.count_operation_perform accessGroup caller w⟩
  · rw [hcount]
    exact start.count_effectiveRules_countedBy accessGroup events admin
  · exact start.count_after_describe accessGroup events s

/-- One rule is asked for four times, and listed and looked up once. An admin is not looked up, and
    a member of the group is not where there is no rule. -/
theorem counters_account_for_calls_group_member :
    let events : List Event := [.call root (.find 1), .call operator (.find 1),
      .call operator (.find 3), .call operator .list, .join operator.id 10,
      .call operator (.find 2), .call operator .findEffective]
    let start : World := ⟨groupWorld.store, groupWorld.directory, .empty⟩
    let counters := (start.after none events).counters
    ∑ outcome ∈ countedOutcomes, counters.count (.operation "find_rule" outcome) = 4 ∧
      counters.count (.effectiveRules true) = 0 ∧ counters.count (.effectiveRules false) = 4 := by
  intro events start counters
  obtain ⟨hoperations, _, hlookups, _⟩ :=
    counters_account_for_calls none groupWorld.store groupWorld.directory events
  have hcalls : events.countP (·.operation? = some .find) = 4 := by decide
  refine ⟨(hoperations .find).1.trans hcalls, (hlookups true).trans ?_, (hlookups false).trans ?_⟩
  · decide +kernel
  · decide +kernel

end AccessScope
