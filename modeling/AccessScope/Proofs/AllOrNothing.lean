import AccessScope.Proofs.Outcomes

/-!
# Calls are all or nothing

Every operation makes all its checks before its only write, and the store refuses nothing that
passed them. So a call that is not answered as done has changed nothing but the counters, and a call
that only asks never does. An edit that leaves a rule as it is writes nothing either.

## Key results

- `UseCase.unchanged`: a call that only asks or is not done leaves the store and the directory alone
- `partialUpdate_of_unchanged`: an edit that changes nothing is done without a trace
- `calls_all_or_nothing`: both, in every world that can be reached
-/

namespace AccessScope

/-! ## Calls that are not done -/

namespace Response

variable {α : Type} {label : String}

theorem failed_of_ofResult {result : Except Failure α}
    (h : (ofResult label result).status ≠ "success") (a : α) : result ≠ .ok a := by
  rintro rfl
  exact h rfl

theorem failed_of_ofDone {result : Except Failure Unit}
    (h : (ofDone label result : Response α).status ≠ "no_content") (u : Unit) :
    result ≠ .ok u := by
  rintro rfl
  exact h rfl

end Response

/-- The calls that ask for rules and do not want to change any. -/
def UseCase.onlyAsks : UseCase → Bool
  | find _ | list | findEffective => true
  | create _ | update _ _ | partialUpdate _ _ | delete _ => false

section

variable {w : World} (accessGroup : Option String) (caller : Contact)

theorem UseCase.unchanged (useCase : UseCase) (hnames : w.store.NamesDiffer) :
    let result := (useCase.perform (World.manager accessGroup) caller).run w
    useCase.onlyAsks ∨ result.1 ≠ "success" ∧ result.1 ≠ "no_content" →
      result.2.store = w.store ∧ result.2.directory = w.directory := by
  intro result h
  -- an operation counts its outcome after its steps, so only the steps matter
  cases useCase with
  | find id =>
    have hreads := reads_tryFind accessGroup caller id
    exact ⟨hreads.store_eq w, hreads.directory_eq w⟩
  | list =>
    have hreads := reads_tryList accessGroup caller
    exact ⟨hreads.store_eq w, hreads.directory_eq w⟩
  | findEffective =>
    have hreads := reads_effectiveRules caller
    exact ⟨hreads.store_eq w, hreads.directory_eq w⟩
  | create request =>
    obtain ⟨hsuccess, _⟩ := h.resolve_left (by simp [onlyAsks])
    exact (ends_tryCreate accessGroup caller request).same_of_failed
      (Response.failed_of_ofResult hsuccess)
  | update id request =>
    obtain ⟨_, hdone⟩ := h.resolve_left (by simp [onlyAsks])
    exact (ends_tryUpdate accessGroup caller id request hnames).same_of_failed
      (Response.failed_of_ofDone hdone)
  | partialUpdate id request =>
    obtain ⟨_, hdone⟩ := h.resolve_left (by simp [onlyAsks])
    exact (ends_tryPartialUpdate accessGroup caller id request hnames).same_of_failed
      (Response.failed_of_ofDone hdone)
  | delete id =>
    obtain ⟨_, hdone⟩ := h.resolve_left (by simp [onlyAsks])
    exact (ends_tryDelete accessGroup caller id).same_of_failed
      (Response.failed_of_ofDone hdone)

/-- An edit that leaves the rule as it is passes the check of names, and nothing is written. -/
theorem partialUpdate_of_unchanged {id : Id} {request : ChangeRequest} {current : Rule}
    {changes : RuleChanges} (hnames : w.store.NamesDiffer)
    (hallowed : w.directory.Permits accessGroup caller .edit)
    (hcurrent : w.store.find? id = some current)
    (hedit : current.edited request = .ok (current, changes)) (hregistered : w.Registers request) :
    let result := ((World.manager accessGroup).partialUpdate caller id request).run w
    result.1 = .noContent ∧ result.2.store = w.store ∧ result.2.directory = w.directory := by
  let p := w.partialUpdatePlan accessGroup caller id request
  obtain ⟨hstored, rfl⟩ := RuleStore.find?_eq_some_iff.1 hcurrent
  obtain ⟨_, hchanges, _⟩ := Rule.edited_eq_ok_iff.1 hedit
  have hsubject : p.subject = .ok (current, current, changes) :=
    RuleStore.getWith_eq_ok_iff.2 ⟨hcurrent, hedit⟩
  -- the rule keeps its name, which no other rule has
  have hfree : p.nameFree (current, current, changes) := fun r hr hid hname =>
    hid (congrArg _ (hnames r hr current hstored hname))
  have hknown : p.known (current, current, changes) :=
    (World.knowsChanges_iff_registers hchanges).2 hregistered
  have hout := (ends_tryPartialUpdate accessGroup caller current.id request hnames).eq_done
    ⟨hallowed, hsubject, hfree, hknown⟩
  -- the plan says that the rule is stored, and storing it again changes nothing
  have heffect : p.effect (current, current, changes) = ((), w.store) :=
    congrArg (Prod.mk ()) (RuleStore.store_of_mem hstored)
  rw [heffect] at hout
  have hresponse :=
    congrArg (fun out => Response.ofDone (α := Unit) Operation.partialUpdate.label out.1) hout
  exact ⟨hresponse, congrArg (·.2.store) hout, congrArg (·.2.directory) hout⟩

/-- In every world that can be reached and for every caller, a call is all or nothing: a mutation
    that is not answered as done leaves the stored rules, the last id, the resources and the
    directory as they were, and so does every call that only asks. An edit of a rule that comes out
    as it went in, and passes the checks, is done without a trace. -/
theorem calls_all_or_nothing (h : w.Reachable accessGroup) :
    (∀ useCase : UseCase,
      let result := (useCase.perform (World.manager accessGroup) caller).run w
      useCase.onlyAsks ∨ result.1 ≠ "success" ∧ result.1 ≠ "no_content" →
        result.2.store = w.store ∧ result.2.directory = w.directory) ∧
    ∀ id request current changes, w.directory.Permits accessGroup caller .edit →
      w.store.find? id = some current → current.edited request = .ok (current, changes) →
      w.Registers request →
      let result := ((World.manager accessGroup).partialUpdate caller id request).run w
      result.1 = .noContent ∧ result.2.store = w.store ∧ result.2.directory = w.directory := by
  have hnames := h.namesDiffer
  refine ⟨fun useCase => useCase.unchanged accessGroup caller hnames, ?_⟩
  intro id request current changes hallowed hcurrent hedit hregistered
  exact partialUpdate_of_unchanged accessGroup caller hnames hallowed hcurrent hedit hregistered

end

/-- An edit that sets the rule of `opsWorld` to what it says already. -/
def opsAgain : ChangeRequest :=
  { noEdit with name := some " Ops ", contacts := some [root.id, root.id] }

theorem opsWorld_registers_opsAgain : opsWorld.Registers opsAgain := by
  have hcontacts : opsWorld.directory.contacts = [root] := by rfl
  constructor
  · intro ids hids id hid
    cases hids
    have hroot : id = root.id := by simpa using hid
    exact ⟨root, by simp [hcontacts], hroot.symm⟩
  · exact nofun
  · exact nofun

/-- A rule with a name that is taken is not made, and setting a rule to what it is does nothing. -/
theorem calls_all_or_nothing_same_name :
    let refused :=
      ((UseCase.create (hostRequest " oPS " 8)).perform (World.manager none) root).run opsWorld
    let edited := ((World.manager none).partialUpdate root 1 opsAgain).run opsWorld
    opsWorld.Reachable none ∧ refused.1 = "conflict" ∧
      refused.2.store = opsWorld.store ∧ refused.2.directory = opsWorld.directory ∧
        edited.1 = .noContent ∧ edited.2.store = opsWorld.store ∧
          edited.2.directory = opsWorld.directory := by
  intro refused edited
  have hreachable : opsWorld.Reachable none := ⟨smallWorld, _, ⟨rfl, rfl⟩, rfl⟩
  have hrefused : refused.1 = "conflict" := by decide +kernel
  have hnotDone : refused.1 ≠ "success" ∧ refused.1 ≠ "no_content" := by
    rw [hrefused]
    decide
  have hedit : ∃ current changes, opsWorld.store.find? 1 = some current ∧
      current.edited opsAgain = .ok (current, changes) := ⟨_, _, rfl, rfl⟩
  obtain ⟨current, changes, hcurrent, hunchanged⟩ := hedit
  obtain ⟨hfailed, hsame⟩ := calls_all_or_nothing none root hreachable
  obtain ⟨hstore, hdirectory⟩ := hfailed (.create (hostRequest " oPS " 8)) (.inr hnotDone)
  exact ⟨hreachable, hrefused, hstore, hdirectory,
    hsame 1 opsAgain current changes (.inl rfl) hcurrent hunchanged opsWorld_registers_opsAgain⟩

end AccessScope
