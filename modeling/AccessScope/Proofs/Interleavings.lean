import AccessScope.Proofs.Revisions

/-!
# Revisions of different rules

Two callers may revise two rules at the same time, and either of them may come first. Who is second
finds the rule, the permissions and the references as before, but for the name of the other rule:
the check that the name is free reads what the first caller wrote. That is all that can come between
them. A name that was free before the first revision and is taken after it is the name that the
first one gave, so two revisions that are each possible alone fail together only if both want the
same name.

## Key results

- `World.nameFree_beside_iff`: the one thing that a revision of another rule can take away
- `World.passes_beside`: as long as that is not taken, every stage passes as before
- `Revision.beside`: a revision after another rule was revised
- `revisions_commute_or_conflict`: both orders, in every world that can be reached
-/

namespace AccessScope

/-! ## Edits beside another rule -/

/-- What becomes of a rule does not depend on the rules under other ids. -/
theorem RuleStore.getWith_store_of_ne {β : Type} {s : RuleStore} {id : Id} {q : Rule}
    (h : q.id ≠ id) (f : Rule → Except Failure β) :
    (s.store q).getWith id f = s.getWith id f := by
  simp only [getWith, get, find?_store, if_neg h.symm]

namespace World

variable {w v : World} {accessGroup : Option String} {caller : Contact} {id : Id}
  {request : ChangeRequest} {current next q : Rule} {changes : RuleChanges}

/-- After another rule was stored, the name of an edit that passed before is free unless that rule
    has it now. -/
theorem nameFree_beside_iff
    (h : (w.partialUpdatePlan accessGroup caller id request).Passes (current, next, changes))
    (hstore : v.store = w.store.store q) (hother : q.id ≠ id) :
    (∀ r ∈ v.store.rules, r.id ≠ id → r.formattedName ≠ next.formattedName) ↔
      q.formattedName ≠ next.formattedName := by
  rw [hstore]
  constructor
  · exact fun hfree => hfree q (RuleStore.mem_store.2 (.inl rfl)) hother
  · intro hname r hr hid
    -- of the rules that are there now, only `q` was not there when the name was free
    obtain rfl | ⟨hold, _⟩ := RuleStore.mem_store.1 hr
    · exact hname
    · exact h.nameFree r hold hid

/-- What the edit makes of its own rule is as before. -/
theorem subject_beside
    (h : (w.partialUpdatePlan accessGroup caller id request).Passes (current, next, changes))
    (hstore : v.store = w.store.store q) (hother : q.id ≠ id) :
    v.store.getWith id (·.edited request) = .ok (current, next, changes) := by
  rw [hstore, RuleStore.getWith_store_of_ne hother]
  exact h.subject_eq

/-- If the name is still free, every stage of the edit passes as before. -/
theorem passes_beside
    (h : (w.partialUpdatePlan accessGroup caller id request).Passes (current, next, changes))
    (hstore : v.store = w.store.store q) (hdirectory : v.directory = w.directory)
    (hother : q.id ≠ id) (hname : q.formattedName ≠ next.formattedName) :
    (v.partialUpdatePlan accessGroup caller id request).Passes (current, next, changes) where
  allowed := by
    show v.directory.Permits accessGroup caller .edit
    rw [hdirectory]
    exact h.allowed
  subject_eq := subject_beside h hstore hother
  nameFree := (nameFree_beside_iff h hstore hother).2 hname
  known := (SameReferents.of_store hstore hdirectory).knowsChanges h.known

end World

/-! ## Revisions in either order -/

section

variable {w v : World} {accessGroup : Option String}

/-- A revision that passes alone, after another rule was stored: it is done as before, unless that
    rule has its name now. Then it is a conflict, and changes nothing. -/
theorem Revision.beside {caller : Contact} {id : Id} {u : Revision} {current next q : Rule}
    {changes : RuleChanges}
    (h : (w.partialUpdatePlan accessGroup caller id u.toChangeRequest).Passes
      (current, next, changes))
    (hstore : v.store = w.store.store q) (hdirectory : v.directory = w.directory)
    (hnames : v.store.NamesDiffer) (hother : q.id ≠ id) :
    let out := (u.perform (World.manager accessGroup) caller id).run v
    (q.formattedName ≠ next.formattedName →
      out.1 = .noContent ∧ out.2.store = v.store.store next ∧ out.2.directory = v.directory) ∧
    (q.formattedName = next.formattedName →
      (∃ text, out.1 = .conflict text) ∧ v.SameState out.2) := by
  intro out
  constructor
  · intro hname
    exact noContent_of_passes hnames (World.passes_beside h hstore hdirectory hother hname)
  · intro hname
    have hallowed : v.directory.Permits accessGroup caller .edit := hdirectory ▸ h.allowed
    have hsubject := World.subject_beside h hstore hother
    -- all that comes before the check of the name passes as it did, so that is where it stops
    have htaken : ¬ ∀ r ∈ v.store.rules, r.id ≠ id → r.formattedName ≠ next.formattedName :=
      fun hfree => (World.nameFree_beside_iff h hstore hother).1 hfree hname
    exact conflict_of_taken hnames hallowed hsubject htaken

/-- Two revisions of different rules that would each be done alone: if the rules that they leave
    have different names, both are done in either order, and both orders end in the same state. If
    the names are the same, then in either order the first is done, and the second is a conflict and
    leaves everything as the first left it. This holds in every world that can be reached, for
    replacing and editing, for any two callers. -/
theorem revisions_commute_or_conflict (h : w.Reachable accessGroup) {i j : Id} (hij : i ≠ j)
    (a b : Contact) (first second : Revision) :
    let m := World.manager accessGroup
    let afterFirst := (first.perform m a i).run w
    let afterSecond := (second.perform m b j).run w
    let inOrder := (second.perform m b j).run afterFirst.2
    let turned := (first.perform m a i).run afterSecond.2
    afterFirst.1 = .noContent → afterSecond.1 = .noContent →
      ∃ r q, afterFirst.2.store.find? i = some r ∧ afterSecond.2.store.find? j = some q ∧
        (r.formattedName ≠ q.formattedName →
          inOrder.1 = .noContent ∧ turned.1 = .noContent ∧ inOrder.2.SameState turned.2) ∧
        (r.formattedName = q.formattedName →
          ((∃ text, inOrder.1 = .conflict text) ∧ afterFirst.2.SameState inOrder.2) ∧
            (∃ text, turned.1 = .conflict text) ∧ afterSecond.2.SameState turned.2) := by
  intro m afterFirst afterSecond inOrder turned hfirst hsecond
  have hnames := h.namesDiffer
  obtain ⟨_, r, _, hpassesFirst, hstoreFirst, hdirectoryFirst⟩ :=
    Revision.passes_of_noContent hnames hfirst
  obtain ⟨_, q, _, hpassesSecond, hstoreSecond, hdirectorySecond⟩ :=
    Revision.passes_of_noContent hnames hsecond
  -- a revised rule keeps its id, so the two that are stored are still under different ones
  obtain rfl : r.id = i := RuleStore.id_of_getWith_edited hpassesFirst.subject_eq
  obtain rfl : q.id = j := RuleStore.id_of_getWith_edited hpassesSecond.subject_eq
  have hnamesFirst : afterFirst.2.store.NamesDiffer :=
    hstoreFirst ▸ World.namesDiffer_of_passes hnames hpassesFirst
  have hnamesSecond : afterSecond.2.store.NamesDiffer :=
    hstoreSecond ▸ World.namesDiffer_of_passes hnames hpassesSecond
  -- each of them comes second once, beside the rule that the other one stored
  obtain ⟨hdone, hconflict⟩ :=
    Revision.beside hpassesSecond hstoreFirst hdirectoryFirst hnamesFirst hij
  obtain ⟨hdoneTurned, hconflictTurned⟩ :=
    Revision.beside hpassesFirst hstoreSecond hdirectorySecond hnamesSecond hij.symm
  refine ⟨r, q, ?_, ?_, fun hname => ?_, fun hname => ?_⟩
  · exact hstoreFirst ▸ RuleStore.find?_store.trans (if_pos rfl)
  · exact hstoreSecond ▸ RuleStore.find?_store.trans (if_pos rfl)
  · obtain ⟨hresponse, hstore, hdirectory⟩ := hdone hname
    obtain ⟨hresponseTurned, hstoreTurned, hdirectoryTurned⟩ := hdoneTurned hname.symm
    refine ⟨hresponse, hresponseTurned, ?_, ?_⟩
    · calc turned.2.store
        _ = (w.store.store q).store r := by rw [hstoreTurned, hstoreSecond]
        _ = (w.store.store r).store q := RuleStore.store_comm hij.symm
        _ = inOrder.2.store := by rw [hstore, hstoreFirst]
    · exact (hdirectoryTurned.trans hdirectorySecond).trans (hdirectory.trans hdirectoryFirst).symm
  · exact ⟨hconflict hname, hconflictTurned hname.symm⟩

end

/-- One rule gets a new host and a new name. The other one can be renamed to anything but that, and
    which of the two comes first makes no difference. -/
theorem revisions_commute_or_conflict_two_renames :
    let m := World.manager none
    let move := Revision.replace (hostRequest "Web" 8)
    let rename := Revision.edit { noEdit with name := some " wEB " }
    let keep := Revision.edit { noEdit with name := some "DEV" }
    let moved := (move.perform m root 1).run pairWorld
    let renamed := (rename.perform m root 2).run pairWorld
    let kept := (keep.perform m root 2).run pairWorld
    let movedThenRenamed := (rename.perform m root 2).run moved.2
    let renamedThenMoved := (move.perform m root 1).run renamed.2
    let movedThenKept := (keep.perform m root 2).run moved.2
    let keptThenMoved := (move.perform m root 1).run kept.2
    pairWorld.Reachable none ∧ moved.1 = .noContent ∧ renamed.1 = .noContent ∧
      kept.1 = .noContent ∧
      (((∃ text, movedThenRenamed.1 = .conflict text) ∧ moved.2.SameState movedThenRenamed.2) ∧
        (∃ text, renamedThenMoved.1 = .conflict text) ∧ renamed.2.SameState renamedThenMoved.2) ∧
      movedThenKept.1 = .noContent ∧ keptThenMoved.1 = .noContent ∧
        movedThenKept.2.SameState keptThenMoved.2 := by
  intro m move rename keep moved renamed kept movedThenRenamed renamedThenMoved movedThenKept
    keptThenMoved
  have hmoved : moved.1 = .noContent := by decide +kernel
  have hrenamed : renamed.1 = .noContent := by decide +kernel
  have hkept : kept.1 = .noContent := by decide +kernel
  have hnameMoved : (moved.2.store.find? 1).map (·.formattedName) = some "web" := by decide +kernel
  have hnameRenamed : (renamed.2.store.find? 2).map (·.formattedName) = some "web" := by
    decide +kernel
  have hnameKept : (kept.2.store.find? 2).map (·.formattedName) = some "dev" := by decide +kernel
  obtain ⟨r, q, hr, hq, _, hconflict⟩ := revisions_commute_or_conflict reachable_pairWorld
    (i := 1) (j := 2) (by decide) root root move rename hmoved hrenamed
  have hr' : r.formattedName = "web" := Option.some.inj ((congrArg _ hr).symm.trans hnameMoved)
  have hq' : q.formattedName = "web" := Option.some.inj ((congrArg _ hq).symm.trans hnameRenamed)
  obtain ⟨t, s, ht, hs, hcommute, _⟩ := revisions_commute_or_conflict reachable_pairWorld
    (i := 1) (j := 2) (by decide) root root move keep hmoved hkept
  have ht' : t.formattedName = "web" := Option.some.inj ((congrArg _ ht).symm.trans hnameMoved)
  have hs' : s.formattedName = "dev" := Option.some.inj ((congrArg _ hs).symm.trans hnameKept)
  have hdifferent : t.formattedName ≠ s.formattedName := by
    rw [ht', hs']
    decide
  exact ⟨reachable_pairWorld, hmoved, hrenamed, hkept, hconflict (hr'.trans hq'.symm),
    hcommute hdifferent⟩

end AccessScope
