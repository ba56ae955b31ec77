import AccessScope.Proofs.Permissions
import AccessScope.Proofs.WorldRuns

/-!
# What steps count

The operations count in two places: the look-up of the rules that reach a contact, and the outcome
of the operation as a whole. No step reads what was counted before. So what a step counts can be
told apart from what else it does: run with other counters, it gives the same result and the same
rules, and adds the same series to these. This file says so of every step, and which series the
steps of each operation add.

## Key results

- `Counters.count_incrementAll`: counting several series
- `Counts.bind`: the series of a sequence are those of its steps
- `counts_tryFind`, `counts_tryList`, `counts_effectiveRules`: the steps that look rules up
- `uncounted_tryCreate`, `uncounted_tryUpdate`, `uncounted_tryPartialUpdate`, `uncounted_tryDelete`:
  the steps that change rules count nothing
-/

namespace AccessScope

/-! ## Several series -/

namespace Counters

/-- Counts the series one after the other. -/
def incrementAll (c : Counters) (added : List Series) : Counters :=
  added.foldl increment c

@[simp] theorem incrementAll_append (c : Counters) (first second : List Series) :
    c.incrementAll (first ++ second) = (c.incrementAll first).incrementAll second :=
  List.foldl_append

/-- Each series is counted as often as it is added. -/
theorem count_incrementAll (c : Counters) (added : List Series) (s : Series) :
    (c.incrementAll added).count s = c.count s + added.count s := by
  -- the counts to start from change with every series
  induction added generalizing c with
  | nil => rfl
  | cons t added ih =>
    rw [incrementAll, List.foldl_cons, ← incrementAll, ih, count_increment, List.count_cons]
    simp only [beq_iff_eq, eq_comm (a := s)]
    omega

end Counters

/-- The world with these counters in the place of its own. -/
def World.recounted (w : World) (c : Counters) : World :=
  { w with counters := c }

/-! ## Steps and what they count -/

/-- In every world the step counts these series and is otherwise not concerned with counters: with
    others it has the same result, leaves the same rules, and adds the same series. Besides, it does
    not fail for internal reasons. -/
structure Counts {α : Type} (step : Action World α) (added : World → List Series) : Prop where
  run_recounted (w : World) (c : Counters) : step.run.run (w.recounted c) =
    ((step.run.run w).1, (step.run.run w).2.recounted (c.incrementAll (added w)))
  failsOnly : FailsOnly (·.kind ≠ .internal) step

/-- The step counts nothing. -/
abbrev Uncounted {α : Type} (step : Action World α) : Prop := Counts step fun _ => []

namespace Counts

variable {α β : Type}

theorem congr {step : Action World α} {added added' : World → List Series} (h : Counts step added)
    (hadded : ∀ w, added w = added' w) : Counts step added' := by
  rwa [← funext hadded]

protected theorem pure (a : α) : Uncounted (pure a) :=
  ⟨fun _ _ => rfl, .pure a⟩

protected theorem throw {failure : Failure} (h : failure.kind ≠ .internal) :
    Uncounted (throw failure : Action World α) :=
  ⟨fun _ _ => rfl, .throw h⟩

/-- The series of a sequence are those of its first step and, unless this fails, those of the steps
    behind it. -/
theorem bind {a : Action World α} {b : α → Action World β} {first : World → List Series}
    {second : α → World → List Series} (ha : Counts a first) (hb : ∀ x, Counts (b x) (second x)) :
    Counts (a >>= b) fun w => first w ++
      match (a.run.run w).1 with
      | .ok x => second x (a.run.run w).2
      | .error _ => [] := by
  refine ⟨fun w c => ?_, ha.failsOnly.bind fun x => (hb x).failsOnly⟩
  -- the second step starts from the counters that the first one left, in both runs
  have hfirst := ha.run_recounted w c
  cases hrun : a.run.run w with
  | mk result v =>
    rw [hrun] at hfirst
    cases result with
    | error failure =>
      rw [run_bind_error hrun, run_bind_error hfirst, List.append_nil]
    | ok x =>
      rw [run_bind_ok hrun, run_bind_ok hfirst, (hb x).run_recounted, Counters.incrementAll_append]

/-- Steps that count nothing add nothing to the series of a sequence. -/
theorem seq {a : Action World α} {b : α → Action World β} {first : World → List Series}
    (ha : Counts a first) (hb : ∀ x, Uncounted (b x)) : Counts (a >>= b) first := by
  refine (ha.bind hb).congr fun w => ?_
  cases (a.run.run w).1 <;> exact List.append_nil _

/-- A step that leaves the world alone, with a result that does not depend on counters. -/
theorem of_run {step : Action World α} (result : World → Except Failure α)
    (hrun : ∀ w, step.run.run w = (result w, w)) (hsame : ∀ w c, result (w.recounted c) = result w)
    (hkind : FailsOnly (·.kind ≠ .internal) step) : Uncounted step :=
  ⟨fun w c => by rw [hrun, hrun, hsame]; rfl, hkind⟩

/-- A step that cannot be told from another one counts the same. -/
theorem of_run_eq {step other : Action World α} {added : World → List Series}
    (hrun : ∀ w, step.run.run w = other.run.run w) (h : Counts other added) : Counts step added :=
  ⟨fun w c => by rw [hrun, hrun, h.run_recounted],
    fun w failure hfailed => h.failsOnly w failure (hrun w ▸ hfailed)⟩

/-- Looking something up that is not a count. -/
theorem look {f : World → α} (hsame : ∀ w c, f (w.recounted c) = f w) :
    Uncounted (World.look f) :=
  of_run (fun w => .ok (f w)) (World.run_look f) (fun w c => by rw [hsame]) (.look f)

/-- Writing to the store. -/
theorem write {f : RuleStore → Except Failure (RuleStore × α)}
    (hkind : ∀ s failure, f s = .error failure → failure.kind ≠ .internal) :
    Uncounted (World.write f) := by
  refine ⟨fun w c => ?_, .write hkind⟩
  rw [World.run_write, World.run_write]
  -- both runs write to the same store
  have hstore : (w.recounted c).store = w.store := rfl
  rw [hstore]
  cases f w.store <;> rfl

theorem ofExcept {result : Except Failure α}
    (hkind : ∀ failure, result = .error failure → failure.kind ≠ .internal) :
    Uncounted (Action.ofExcept result) :=
  of_run (fun _ => result) (run_ofExcept result) (fun _ _ => rfl) (.ofExcept hkind)

/-- The same step for everything in a list. -/
theorem forM {l : List α} {f : α → Action World Unit} (h : ∀ x ∈ l, Uncounted (f x)) :
    Uncounted (l.forM f) := by
  induction l with
  | nil => exact .pure ()
  | cons x l ih =>
    exact .seq (h x List.mem_cons_self) fun _ => ih fun y hy => h y (List.mem_cons_of_mem _ hy)

/-- A step that is left out when there is nothing to do it for. -/
theorem ofOption (o : Option α) {f : α → Action World Unit} (h : ∀ x, Uncounted (f x)) :
    Uncounted (match o with | some x => f x | none => pure ()) := by
  cases o with
  | none => exact .pure ()
  | some x => exact h x

end Counts

/-! ## Checks -/

section Checks

variable (accessGroup : Option String) (caller : Contact)

theorem uncounted_authorize (action : RuleAction) :
    Uncounted ((World.manager accessGroup).authorize caller action) :=
  .of_run _ (run_authorize accessGroup caller action) (fun _ _ => rfl)
    (reads_authorize accessGroup caller action).kind_ne

theorem uncounted_load (id : Id) : Uncounted ((World.manager accessGroup).load id) :=
  .of_run _ (run_load accessGroup id) (fun _ _ => rfl) (reads_load accessGroup id).kind_ne

theorem uncounted_requireFreeName (name : String) :
    Uncounted (World.collaborators.requireFreeName name) :=
  .of_run _ (run_requireFreeName name) (fun _ _ => rfl)
    (.of_checks (Checks.requireFreeName name) fun _ hkind => by simp [hkind])

theorem uncounted_requireFreeNameFor (current next : Rule) :
    Uncounted ((World.manager accessGroup).requireFreeNameFor current next) := by
  unfold Manager.requireFreeNameFor
  split
  · exact .pure ()
  · exact uncounted_requireFreeName next.name

theorem uncounted_requireKnown (what : Reference) (ids : IdSet) (known : List Id) :
    Uncounted (Collaborators.requireKnown what ids known : Action World Unit) := by
  unfold Collaborators.requireKnown
  split
  · exact .pure ()
  · exact .throw (by simp [Failure.kind])

theorem uncounted_requireContacts (ids : IdSet) :
    Uncounted (World.collaborators.requireContacts ids) := by
  unfold Collaborators.requireContacts
  split
  · exact .pure ()
  · exact .seq (.look fun _ _ => rfl) (uncounted_requireKnown .contact ids)

theorem uncounted_requireContactGroups (ids : IdSet) :
    Uncounted (World.collaborators.requireContactGroups ids) := by
  unfold Collaborators.requireContactGroups
  split
  · exact .pure ()
  · exact .seq (.look fun _ _ => rfl) (uncounted_requireKnown .contactGroup ids)

theorem uncounted_requireResources (filters : List Filter) :
    Uncounted (World.collaborators.requireResources filters) :=
  .forM fun (category, ids) _ =>
    .seq (.look fun _ _ => rfl) (uncounted_requireKnown (.resource category) ids)

theorem uncounted_requireReferences (terms : RuleTerms) :
    Uncounted ((World.manager accessGroup).requireReferences terms) :=
  .seq (uncounted_requireContacts _) fun _ =>
    .seq (uncounted_requireContactGroups _) fun _ => uncounted_requireResources _

theorem uncounted_requireChangedReferences (changes : RuleChanges) :
    Uncounted ((World.manager accessGroup).requireChangedReferences changes) := by
  have hseq := Counts.seq (.ofOption changes.contacts uncounted_requireContacts) fun _ =>
    .seq (.ofOption changes.contactGroups uncounted_requireContactGroups) fun _ =>
      .ofOption changes.filters uncounted_requireResources
  obtain ⟨_, _, _, contacts, groups, filters⟩ := changes
  cases contacts <;> cases groups <;> cases filters <;> exact hseq

end Checks

/-! ## Steps that change rules -/

section Mutations

variable (accessGroup : Option String) (caller : Contact)

/-- What was added is found again, so both steps together are one write. -/
theorem run_addRule_findRule (content : RuleContent) (w : World) :
    (do
      let id ← World.collaborators.addRule content
      match ← World.collaborators.findRule id with
      | some rule => return rule
      | none => throw (Failure.vanished id) : Action World Rule).run.run w =
    (World.write fun s =>
      (s.add content).map fun (t, id) => (t, content.withId id)).run.run w := by
  have hwritten := World.run_write (·.add content) w
  rw [World.run_write]
  cases hadd : w.store.add content with
  | error failure =>
    rw [hadd] at hwritten
    exact run_bind_error hwritten
  | ok result =>
    obtain ⟨t, id⟩ := result
    obtain ⟨_, rfl, rfl⟩ := RuleStore.add_eq_ok_iff.1 hadd
    rw [hadd] at hwritten
    have hfound := w.store.find?_added content
    refine (run_bind_ok hwritten).trans ?_
    let after : World := { w with store := w.store.added content }
    refine (run_bind_ok (x := after.store.find? w.store.nextId) rfl).trans ?_
    rw [hfound]
    rfl

theorem uncounted_tryCreate (request : RuleRequest) :
    Uncounted ((World.manager accessGroup).tryCreate caller request) := by
  have hcontent (failure : Failure) (h : request.toContent = .error failure) :
      failure.kind ≠ .internal := by
    simp [RuleRequest.kind_of_toContent h]
  refine .seq (uncounted_authorize accessGroup caller .create) fun _ => ?_
  refine .seq (.ofExcept hcontent) fun content => ?_
  refine .seq (uncounted_requireFreeName content.name) fun _ => ?_
  refine .seq (uncounted_requireReferences accessGroup content.terms) fun _ => ?_
  refine .of_run_eq (run_addRule_findRule content) (.write fun s failure h => ?_)
  simp [RuleStore.kind_of_add (map_eq_error_iff.1 h)]

theorem uncounted_updateRule (rule : Rule) :
    Uncounted (World.collaborators.updateRule rule) := by
  show Uncounted (World.write fun s => (s.update rule).map (·, ()))
  refine .write fun s failure h => ?_
  obtain hkind | hkind := RuleStore.kind_of_update (map_eq_error_iff.1 h)
  · simp [hkind]
  · simp [hkind]

theorem uncounted_deleteRule (id : Id) : Uncounted (World.collaborators.deleteRule id) := by
  show Uncounted (World.write fun s => (s.delete id).map (·, ()))
  refine .write fun s failure h => ?_
  simp [RuleStore.kind_of_delete (map_eq_error_iff.1 h)]

theorem uncounted_tryUpdate (id : Id) (request : RuleRequest) :
    Uncounted ((World.manager accessGroup).tryUpdate caller id request) := by
  have hreplaced (current : Rule) (failure : Failure)
      (h : current.replaced request = .error failure) : failure.kind ≠ .internal := by
    simp [Rule.kind_of_replaced h]
  refine .seq (uncounted_authorize accessGroup caller .edit) fun _ => ?_
  refine .seq (uncounted_load accessGroup id) fun current => ?_
  refine .seq (.ofExcept (hreplaced current)) fun next => ?_
  refine .seq (uncounted_requireFreeNameFor accessGroup current next) fun _ => ?_
  refine .seq (uncounted_requireReferences accessGroup next.terms) fun _ => ?_
  exact uncounted_updateRule next

theorem uncounted_tryPartialUpdate (id : Id) (request : ChangeRequest) :
    Uncounted ((World.manager accessGroup).tryPartialUpdate caller id request) := by
  have hedited (current : Rule) (failure : Failure)
      (h : current.edited request = .error failure) : failure.kind ≠ .internal := by
    simp [Rule.kind_of_edited h]
  refine .seq (uncounted_authorize accessGroup caller .edit) fun _ => ?_
  refine .seq (uncounted_load accessGroup id) fun current => ?_
  refine .seq (.ofExcept (hedited current)) fun (merged, changes) => ?_
  refine .seq (uncounted_requireFreeNameFor accessGroup current merged) fun _ => ?_
  refine .seq (uncounted_requireChangedReferences accessGroup changes) fun _ => ?_
  by_cases hsame : merged = current
  · rw [if_pos hsame]
    exact .pure ()
  · rw [if_neg hsame]
    exact uncounted_updateRule merged

theorem uncounted_tryDelete (id : Id) :
    Uncounted ((World.manager accessGroup).tryDelete caller id) :=
  .seq (uncounted_authorize accessGroup caller .delete) fun _ =>
    .seq (uncounted_load accessGroup id) fun _ => uncounted_deleteRule id

end Mutations

/-! ## Steps that look rules up -/

section Lookups

variable (accessGroup : Option String) (caller : Contact)

/-- Looking up the rules that reach a contact is counted for its kind. -/
theorem counts_effectiveRules :
    Counts (World.collaborators.effectiveRules caller)
      fun _ => [.effectiveRules caller.isAdmin] := by
  refine ⟨fun w c => ?_, (reads_effectiveRules caller).kind_ne⟩
  rw [run_effectiveRules, run_effectiveRules]
  rfl

/-- Listing looks the rules up for every caller who is permitted to. -/
theorem counts_tryList :
    Counts ((World.manager accessGroup).tryList caller) fun w =>
      if w.directory.Permits accessGroup caller .view then [.effectiveRules caller.isAdmin]
      else [] := by
  refine ((uncounted_authorize accessGroup caller .view).bind fun _ =>
    counts_effectiveRules caller).congr fun w => ?_
  rw [run_authorize]
  by_cases hpermits : w.directory.Permits accessGroup caller .view
  · simp [hpermits]
  · simp [hpermits]

/-- Finding one rule looks the rules up as well, unless the caller is an admin, once it is clear
    that there is a rule. -/
theorem counts_tryFind (id : Id) :
    Counts ((World.manager accessGroup).tryFind caller id) fun w =>
      if w.directory.Permits accessGroup caller .view ∧ (w.store.find? id).isSome ∧
          caller.isAdmin = false then [.effectiveRules false]
      else [] := by
  -- admins are not looked up
  have hreaches : Counts (World.collaborators.reaches caller id) fun _ =>
      if caller.isAdmin then [] else [.effectiveRules false] := by
    unfold Collaborators.reaches
    cases hadmin : caller.isAdmin with
    | true => exact .pure true
    | false =>
      have hlooked := counts_effectiveRules caller
      rw [hadmin] at hlooked
      exact hlooked.seq fun rules => .pure (rules.any (·.id = id))
  have hscope (rule : Rule) (reached : Bool) : Uncounted (do
      unless reached do
        throw Failure.outOfScope
      return rule : Action World Rule) := by
    cases reached with
    | true => exact .pure rule
    | false => exact .seq (.throw (by simp [Failure.kind])) fun _ => .pure rule
  have hfound := (uncounted_load accessGroup id).bind fun rule => hreaches.seq (hscope rule)
  refine ((uncounted_authorize accessGroup caller .view).bind fun _ => hfound).congr fun w => ?_
  -- the look-up is reached by callers who may see rules, once the rule was loaded
  rw [run_authorize, run_load, RuleStore.get]
  by_cases hpermits : w.directory.Permits accessGroup caller .view
  · cases hfind : w.store.find? id with
    | none => simp [hpermits]
    | some rule => cases hadmin : caller.isAdmin <;> simp [hpermits]
  · simp [hpermits]

end Lookups

end AccessScope
