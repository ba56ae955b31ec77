import AccessScope.Proofs.EditLaws

/-!
# Requests that are sent again

A caller who has not heard back may send a request a second time. Nothing is lost by that: a rule
that was replaced or edited comes out of the same request as it went in, a rule that was made stands
in the way of a second one with its name, and a rule that was removed is not there any more. For
the first, what the same edit does a second time is known from the laws of edits; what has to be
shown is that all stages pass again.

## Key results

- `World.passes_again`: an edit that was done passes every stage again
- `Revision.again`, `create_again`, `delete_again`: the second of two equal requests
- `replays_change_nothing`: these together, in every world that can be reached
-/

namespace AccessScope

/-! ## Edits that were made already -/

theorem Rule.edited_again {current next : Rule} {r : ChangeRequest} {c : RuleChanges}
    (h : current.edited r = .ok (next, c)) : next.edited r = .ok (next, c) := by
  obtain ⟨hfields, hchanges, hmerge⟩ := edited_eq_ok_iff.1 h
  exact edited_eq_ok_iff.2 ⟨hfields, hchanges, merge_again hmerge⟩

/-- After an edit was done every stage passes again, and the rule comes out as it is. -/
theorem World.passes_again {w v : World} {accessGroup : Option String} {caller : Contact} {id : Id}
    {request : ChangeRequest} {current next : Rule} {changes : RuleChanges}
    (h : (w.partialUpdatePlan accessGroup caller id request).Passes (current, next, changes))
    (hstore : v.store = w.store.store next) (hdirectory : v.directory = w.directory) :
    (v.partialUpdatePlan accessGroup caller id request).Passes (next, next, changes) := by
  have hid : next.id = id := RuleStore.id_of_getWith_edited h.subject_eq
  obtain ⟨hallowed, hsubject, hfree, hknown⟩ := h
  -- this time the rule that was stored is the one that is edited
  obtain ⟨_, hedit⟩ := RuleStore.getWith_eq_ok_iff.1 hsubject
  have hfound : v.store.find? id = some next := by
    rw [hstore, RuleStore.find?_store, if_pos hid.symm]
  refine ⟨?_, RuleStore.getWith_eq_ok_iff.2 ⟨hfound, Rule.edited_again hedit⟩, ?_, ?_⟩
  · show v.directory.Permits accessGroup caller .edit
    rw [hdirectory]
    exact hallowed
  · intro r hr hne
    rw [hstore] at hr
    -- the only rule that is new has the name, but it is the edited one itself
    obtain rfl | ⟨hold, _⟩ := RuleStore.mem_store.1 hr
    · exact absurd hid hne
    · exact hfree r hold hne
  · exact (SameReferents.of_store hstore hdirectory).knowsChanges hknown

/-! ## The second of two equal requests -/

section

variable {w : World} (accessGroup : Option String) (caller : Contact)

/-- A revision that was done is done again, and leaves everything as it is. -/
theorem Revision.again (id : Id) (u : Revision) (hnames : w.store.NamesDiffer) :
    let first := (u.perform (World.manager accessGroup) caller id).run w
    let second := (u.perform (World.manager accessGroup) caller id).run first.2
    first.1 = .noContent → second.1 = .noContent ∧ first.2.SameState second.2 := by
  intro first second hdone
  obtain ⟨current, next, changes, hpasses, hstore, hdirectory⟩ := passes_of_noContent hnames hdone
  have hagain := World.passes_again hpasses hstore hdirectory
  have hnamesAgain : first.2.store.NamesDiffer := by
    rw [hstore]
    exact World.namesDiffer_of_passes hnames hpasses
  obtain ⟨hsecond, hstoreAgain, hdirectoryAgain⟩ := noContent_of_passes hnamesAgain hagain
  -- what is stored again is there already
  have hstored : next ∈ first.2.store.rules := by
    rw [hstore]
    exact RuleStore.mem_store.2 (.inl rfl)
  exact ⟨hsecond, hstoreAgain.trans (RuleStore.store_of_mem hstored), hdirectoryAgain⟩

/-- An operation whose steps fail answers with the failure. It counts that, and changes nothing
    else. -/
theorem answer_of_error {α : Type} (operation : Operation) {steps : Action World α}
    {failure : Failure} {v : World} (h : steps.run.run w = (.error failure, v)) :
    let out := ((World.manager accessGroup).answer operation steps).run w
    out.1 = .ofFailure operation.label failure ∧ v.SameState out.2 := by
  intro out
  have hout : out = _ := (World.manager accessGroup).run_answer_of_error operation h
  rw [hout]
  exact ⟨rfl, rfl, rfl⟩

/-- The same of an operation that gives nothing. -/
theorem answerDone_of_error (operation : Operation) {steps : Action World Unit}
    {failure : Failure} {v : World} (h : steps.run.run w = (.error failure, v)) :
    let out := ((World.manager accessGroup).answerDone operation steps).run w
    out.1 = .ofFailure operation.label failure ∧ v.SameState out.2 := by
  intro out
  have hout : out = _ := (World.manager accessGroup).run_answerDone_of_error operation h
  rw [hout]
  exact ⟨rfl, rfl, rfl⟩

/-- Of two rules that are made by the same request, the first has the name. -/
theorem create_again (request : RuleRequest) {rule : Rule} :
    let first := ((World.manager accessGroup).create caller request).run w
    let second := ((World.manager accessGroup).create caller request).run first.2
    first.1 = .success rule → (∃ text, second.1 = .conflict text) ∧ first.2.SameState second.2 := by
  intro first second hsuccess
  obtain ⟨content, hpasses, _, hstore, hdirectory⟩ :=
    passes_of_created accessGroup caller request hsuccess
  have hallowed : first.2.directory.Permits accessGroup caller .create :=
    hdirectory ▸ hpasses.allowed
  -- the request is taken in as before, and now its own rule has the name
  have htaken : ¬ ∀ r ∈ first.2.store.rules, r.formattedName ≠ content.formattedName := by
    rw [hstore]
    exact fun hfree => hfree (content.withId w.store.nextId) (RuleStore.mem_store.2 (.inl rfl)) rfl
  have hendsAgain := ends_tryCreate (w := first.2) accessGroup caller request
  obtain ⟨failure, hkind, hout⟩ := hendsAgain.eq_nameTaken hallowed hpasses.subject_eq htaken
  obtain ⟨hresponse, hstate⟩ := answer_of_error accessGroup .create hout
  refine ⟨⟨failure.text, hresponse.trans ?_⟩, hstate⟩
  rw [Response.ofFailure, hkind]

/-- A rule that was removed cannot be removed again. -/
theorem delete_again (id : Id) :
    let first := ((World.manager accessGroup).delete caller id).run w
    let second := ((World.manager accessGroup).delete caller id).run first.2
    first.1 = .noContent → second.1 = .notFound "Rule" ∧ first.2.SameState second.2 := by
  intro first second hdone
  obtain ⟨_, hpasses, hstore, hdirectory⟩ := passes_of_deleted accessGroup caller id hdone
  have hallowed : first.2.directory.Permits accessGroup caller .delete :=
    hdirectory ▸ hpasses.allowed
  have hgone : first.2.store.get id = .error .noRule := by
    refine RuleStore.get_eq_error_iff.2 ⟨?_, rfl⟩
    rw [hstore]
    exact RuleStore.find?_remove.trans (if_pos rfl)
  have hout := (ends_tryDelete (w := first.2) accessGroup caller id).eq_refused hallowed hgone
  exact answerDone_of_error accessGroup .delete hout

/-- To send a request again does no harm, in every world that can be reached: a rule is replaced or
    edited again with the same outcome, a new rule is refused for its name, and a rule that was
    deleted is not found. In each case the second request leaves the rules, the last id, the
    resources and the directory as the first one left them. -/
theorem replays_change_nothing (h : w.Reachable accessGroup) :
    (∀ id request,
      let first := ((World.manager accessGroup).update caller id request).run w
      let second := ((World.manager accessGroup).update caller id request).run first.2
      first.1 = .noContent → second.1 = .noContent ∧ first.2.SameState second.2) ∧
    (∀ id request,
      let first := ((World.manager accessGroup).partialUpdate caller id request).run w
      let second := ((World.manager accessGroup).partialUpdate caller id request).run first.2
      first.1 = .noContent → second.1 = .noContent ∧ first.2.SameState second.2) ∧
    (∀ request rule,
      let first := ((World.manager accessGroup).create caller request).run w
      let second := ((World.manager accessGroup).create caller request).run first.2
      first.1 = .success rule →
        (∃ text, second.1 = .conflict text) ∧ first.2.SameState second.2) ∧
    ∀ id,
      let first := ((World.manager accessGroup).delete caller id).run w
      let second := ((World.manager accessGroup).delete caller id).run first.2
      first.1 = .noContent → second.1 = .notFound "Rule" ∧ first.2.SameState second.2 :=
  ⟨fun id request => Revision.again accessGroup caller id (.replace request) h.namesDiffer,
    fun id request => Revision.again accessGroup caller id (.edit request) h.namesDiffer,
    fun request _ => create_again accessGroup caller request,
    fun id => delete_again accessGroup caller id⟩

end

/-- The second time, the name that was trimmed before is the rule's own. A new rule stays, and the
    one that was deleted stays away. -/
theorem replays_change_nothing_two_rules :
    let m := World.manager none
    let updated := (m.update root 1 (hostRequest " Ops  2 " 7)).run pairWorld
    let edited := (m.partialUpdate root 2 { noEdit with name := some "\tDEV" }).run pairWorld
    let made := (m.create root (hostRequest "New " 8)).run pairWorld
    let deleted := (m.delete root 1).run pairWorld
    let updatedAgain := (m.update root 1 (hostRequest " Ops  2 " 7)).run updated.2
    let editedAgain := (m.partialUpdate root 2 { noEdit with name := some "\tDEV" }).run edited.2
    let madeAgain := (m.create root (hostRequest "New " 8)).run made.2
    let deletedAgain := (m.delete root 1).run deleted.2
    pairWorld.Reachable none ∧
      (updated.1 = .noContent ∧ updatedAgain.1 = .noContent ∧ updated.2.SameState updatedAgain.2) ∧
      (edited.1 = .noContent ∧ editedAgain.1 = .noContent ∧ edited.2.SameState editedAgain.2) ∧
      ((∃ rule, made.1 = .success rule) ∧ (∃ text, madeAgain.1 = .conflict text) ∧
        made.2.SameState madeAgain.2) ∧
      deleted.1 = .noContent ∧ deletedAgain.1 = .notFound "Rule" ∧
        deleted.2.SameState deletedAgain.2 := by
  intro m updated edited made deleted updatedAgain editedAgain madeAgain deletedAgain
  have hupdated : updated.1 = .noContent := by decide +kernel
  have hedited : edited.1 = .noContent := by decide +kernel
  obtain ⟨rule, hmade⟩ : ∃ rule, made.1 = .success rule := ⟨_, rfl⟩
  have hdeleted : deleted.1 = .noContent := by decide +kernel
  obtain ⟨hupdate, hpartial, hcreate, hdelete⟩ :=
    replays_change_nothing none root reachable_pairWorld
  exact ⟨reachable_pairWorld, ⟨hupdated, hupdate 1 _ hupdated⟩, ⟨hedited, hpartial 2 _ hedited⟩,
    ⟨⟨rule, hmade⟩, hcreate _ rule hmade⟩, hdeleted, hdelete 1 hdeleted⟩

end AccessScope
