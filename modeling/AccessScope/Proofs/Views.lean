import AccessScope.Proofs.Refusals

/-!
# What callers are shown

A rule can be asked for by its id, and all rules that reach the caller can be listed. The two take
different ways: a list is what the look-up of the effective rules gives, while a single rule is
loaded first and then tested, and an admin passes that test without a look-up. This file shows that
they agree. Whatever is shown by its id is in the list and the other way round, so neither of them
shows a rule that the other one hides.

## Key results

- `exists_run_reaches`: a stored rule passes the test exactly if the look-up finds it
- `find_of_permits`, `list_of_permits`: the answers to callers who may see rules
- `find_eq_success_iff`: which rules are shown by their id
- `views_agree`: finding, listing and the effective rules, in every world
-/

namespace AccessScope

variable {w : World} {accessGroup : Option String} {caller : Contact}

/-! ## Answers to callers who may see rules -/

/-- A stored rule is taken to reach a contact exactly if it is among the rules that are found for
    it. -/
theorem exists_run_reaches (caller : Contact) {r : Rule} (hr : r ∈ w.store.rules) :
    ∃ v, (World.collaborators.reaches caller r.id).run.run w =
      (.ok (decide (r ∈ w.rulesFor caller)), v) := by
  unfold Collaborators.reaches
  by_cases hadmin : caller.isAdmin
  · have hfound : r ∈ w.rulesFor caller := World.mem_rulesFor.2 ⟨hr, .inl hadmin⟩
    rw [if_pos hadmin, decide_eq_true hfound]
    exact ⟨w, rfl⟩
  · rw [if_neg hadmin, run_bind_ok (run_effectiveRules w caller)]
    -- all rules that are found are stored, so the one with this id can only be this one
    have hany : (w.rulesFor caller).any (·.id = r.id) = decide (r ∈ w.rulesFor caller) := by
      rw [Bool.eq_iff_iff, List.any_eq_true, decide_eq_true_iff]
      constructor
      · intro ⟨q, hq, hid⟩
        have hstored := (World.mem_rulesFor.1 hq).1
        rwa [← w.store.ascending.eq_of_key hstored hr (of_decide_eq_true hid)]
      · intro hfound
        exact ⟨r, hfound, by simp⟩
    rw [hany]
    exact ⟨_, rfl⟩

/-- Who may see rules is shown the one with an id if it is among the rules found for them. -/
theorem find_of_permits (hallowed : w.directory.Permits accessGroup caller .view) (id : Id) :
    (((World.manager accessGroup).find caller id).run w).1 =
      (w.store.find? id).elim (.notFound "Rule") fun r =>
        if r ∈ w.rulesFor caller then .success r else .forbidden Failure.outOfScope.text := by
  have hauthorize := run_authorize accessGroup caller .view w
  rw [if_pos hallowed] at hauthorize
  have hload := run_load accessGroup id w
  -- an operation counts its outcome after its steps, so the answer is that of the steps
  have hanswer {result : Except Failure Rule} {v : World}
      (hrun : ((World.manager accessGroup).tryFind caller id).run.run w = (result, v)) :
      (((World.manager accessGroup).find caller id).run w).1 =
        .ofResult Operation.find.label result := by
    show Response.ofResult _ (((World.manager accessGroup).tryFind caller id).run.run w).1 = _
    rw [hrun]
  cases hfind : w.store.find? id with
  | none =>
    rw [RuleStore.get_eq_error_iff.2 ⟨hfind, rfl⟩] at hload
    exact hanswer ((run_bind_ok hauthorize).trans (run_bind_error hload))
  | some r =>
    rw [RuleStore.get_eq_ok_iff.2 hfind] at hload
    obtain ⟨hstored, rfl⟩ := RuleStore.find?_eq_some_iff.1 hfind
    obtain ⟨v, hreaches⟩ := exists_run_reaches caller hstored
    have hrun : ((World.manager accessGroup).tryFind caller r.id).run.run w =
        (if r ∈ w.rulesFor caller then .ok r else .error .outOfScope, v) := by
      apply (run_bind_ok hauthorize).trans
      apply (run_bind_ok hload).trans
      apply (run_bind_ok hreaches).trans
      by_cases hfound : r ∈ w.rulesFor caller
      · rw [if_pos hfound, decide_eq_true hfound]
        rfl
      · rw [if_neg hfound, decide_eq_false hfound]
        rfl
    rw [hanswer hrun]
    by_cases hfound : r ∈ w.rulesFor caller
    · rw [if_pos hfound, Option.elim_some, if_pos hfound]
      rfl
    · rw [if_neg hfound, Option.elim_some, if_neg hfound]
      rfl

/-- Who may see rules is listed the rules found for them. -/
theorem list_of_permits (hallowed : w.directory.Permits accessGroup caller .view) :
    (((World.manager accessGroup).list caller).run w).1 = .success (w.rulesFor caller) := by
  have hauthorize := run_authorize accessGroup caller .view w
  rw [if_pos hallowed] at hauthorize
  show Response.ofResult _ (((World.manager accessGroup).tryList caller).run.run w).1 = _
  rw [Manager.tryList, run_bind_ok hauthorize]
  exact congrArg (fun out => Response.ofResult _ out.1) (run_effectiveRules w caller)

/-- Everyone is told the rules found for them. -/
theorem findEffective_eq (accessGroup : Option String) (w : World) (caller : Contact) :
    (((World.manager accessGroup).findEffective caller).run w).1 =
      .success (w.rulesFor caller) := by
  show Response.ofResult _ ((World.collaborators.effectiveRules caller).run.run w).1 = _
  rw [run_effectiveRules]
  rfl

/-- Who may not see rules is turned away, from a single rule as from all of them. -/
theorem views_of_not_permits (hrefused : ¬ w.directory.Permits accessGroup caller .view) (id : Id) :
    (((World.manager accessGroup).find caller id).run w).1 =
        .forbidden (Failure.notAllowed .view).text ∧
      (((World.manager accessGroup).list caller).run w).1 =
        .forbidden (Failure.notAllowed .view).text := by
  have hauthorize := run_authorize accessGroup caller .view w
  rw [if_neg hrefused] at hauthorize
  have hfind := Operation.run_perform_of_refused (o := .find) rfl hauthorize id
  have hlist := Operation.run_perform_of_refused (o := .list) rfl hauthorize ()
  exact ⟨congrArg Prod.fst hfind, congrArg Prod.fst hlist⟩

/-! ## Both ways agree -/

/-- A rule is shown under an id to those who may see rules and whom it reaches. -/
theorem find_eq_success_iff {id : Id} {r : Rule} :
    (((World.manager accessGroup).find caller id).run w).1 = .success r ↔
      w.directory.Permits accessGroup caller .view ∧ r ∈ w.rulesFor caller ∧ r.id = id := by
  by_cases hallowed : w.directory.Permits accessGroup caller .view
  · rw [find_of_permits hallowed]
    constructor
    · intro h
      cases hfind : w.store.find? id with
      | none => simp [hfind] at h
      | some q =>
        -- the rule under the id is shown, so `r` can only be this one
        have hid := (RuleStore.find?_eq_some_iff.1 hfind).2
        by_cases hfound : q ∈ w.rulesFor caller
        · simp [hfind, hfound] at h
          exact ⟨hallowed, h ▸ hfound, h ▸ hid⟩
        · simp [hfind, hfound] at h
    · intro ⟨_, hfound, hid⟩
      have hstored := (World.mem_rulesFor.1 hfound).1
      simp [RuleStore.find?_eq_some_iff.2 ⟨hstored, hid⟩, hfound]
  · simp [(views_of_not_permits hallowed id).1, hallowed]

/-- A list is shown to those who may see rules, and holds the rules found for them. -/
theorem list_eq_success_iff {rules : List Rule} :
    (((World.manager accessGroup).list caller).run w).1 = .success rules ↔
      w.directory.Permits accessGroup caller .view ∧ rules = w.rulesFor caller := by
  by_cases hallowed : w.directory.Permits accessGroup caller .view
  · rw [list_of_permits hallowed]
    simp [hallowed, eq_comm]
  · simp [(views_of_not_permits hallowed 0).2, hallowed]

/-- To those who may see rules, an id is unknown exactly if no stored rule has it. -/
theorem find_eq_notFound_iff (hallowed : w.directory.Permits accessGroup caller .view) {id : Id} :
    (∃ text, (((World.manager accessGroup).find caller id).run w).1 = .notFound text) ↔
      ∀ r ∈ w.store.rules, r.id ≠ id := by
  rw [find_of_permits hallowed, ← RuleStore.find?_eq_none_iff]
  cases w.store.find? id with
  | none => simp
  | some r => by_cases hfound : r ∈ w.rulesFor caller <;> simp [hfound]

/-- They are refused a rule exactly if it is stored and not among the rules found for them. -/
theorem find_eq_forbidden_iff (hallowed : w.directory.Permits accessGroup caller .view) {id : Id} :
    (∃ text, (((World.manager accessGroup).find caller id).run w).1 = .forbidden text) ↔
      ∃ r ∈ w.store.rules, r.id = id ∧ r ∉ w.rulesFor caller := by
  have hstored : (∃ r ∈ w.store.rules, r.id = id ∧ r ∉ w.rulesFor caller) ↔
      ∃ r, w.store.find? id = some r ∧ r ∉ w.rulesFor caller := by
    simp only [RuleStore.find?_eq_some_iff, and_assoc]
  rw [find_of_permits hallowed, hstored]
  cases w.store.find? id with
  | none => simp
  | some r => by_cases hfound : r ∈ w.rulesFor caller <;> simp [hfound]

/-- In every world and for every caller, finding and listing agree: a rule is shown under its id
    exactly if it is listed. Who may list rules is shown what everyone may ask for, the effective
    rules. To those callers an id is unknown exactly if no stored rule has it, and refused exactly
    if the stored rule with the id is not among their effective rules. -/
theorem views_agree (w : World) (accessGroup : Option String) (caller : Contact) (id : Id) :
    let found := (((World.manager accessGroup).find caller id).run w).1
    let listed := (((World.manager accessGroup).list caller).run w).1
    let effective := (((World.manager accessGroup).findEffective caller).run w).1
    (∀ r, found = .success r ↔ ∃ rules, listed = .success rules ∧ r ∈ rules ∧ r.id = id) ∧
    ((∀ text, listed ≠ .forbidden text) →
      ∃ rules, listed = .success rules ∧ effective = .success rules) ∧
    (w.directory.Permits accessGroup caller .view →
      ((∃ text, found = .notFound text) ↔ ∀ r ∈ w.store.rules, r.id ≠ id) ∧
      ((∃ text, found = .forbidden text) ↔ ∃ r ∈ w.store.rules, r.id = id ∧
        ∃ rules, effective = .success rules ∧ r ∉ rules)) := by
  intro found listed effective
  have heffective : effective = .success (w.rulesFor caller) := findEffective_eq ..
  -- all three answers are told by the rules that are found for the caller
  refine ⟨fun r => ?_, fun hlisted => ?_, fun hallowed => ⟨find_eq_notFound_iff hallowed, ?_⟩⟩
  · constructor
    · intro hfound
      obtain ⟨hallowed, hmem, hid⟩ := find_eq_success_iff.1 hfound
      exact ⟨_, list_of_permits hallowed, hmem, hid⟩
    · intro ⟨rules, hrules, hmem, hid⟩
      obtain ⟨hallowed, rfl⟩ := list_eq_success_iff.1 hrules
      exact find_eq_success_iff.2 ⟨hallowed, hmem, hid⟩
  · by_cases hallowed : w.directory.Permits accessGroup caller .view
    · exact ⟨_, list_of_permits hallowed, heffective⟩
    · exact absurd (views_of_not_permits hallowed id).2 (hlisted _)
  · rw [heffective]
    simpa using find_eq_forbidden_iff hallowed

/-! ## A world with a group -/

/-- A contact who may see rules and is no admin. -/
def operator : Contact := ⟨2, "operator", false, [Role.readRules]⟩

/-- The small world with a contact group. One rule is for the admin, and one is for the group. -/
def groupWorld : World :=
  { smallWorld with directory := smallWorld.directory.withContactGroup ⟨10, "noc"⟩ }.after none
    [.call root (.create (hostRequest "Ops" 7)),
      .call root (.create { hostRequest "Noc" 8 with contacts := [], contactGroups := [10] })]

/-- A member of the group is shown the group's rule in both ways, and the other one in none. -/
theorem views_agree_group_member :
    let w := (Event.join operator.id 10).after none groupWorld
    let find id := (((World.manager none).find operator id).run w).1
    w.directory.Permits none operator .view ∧
      (∃ r rules, find 2 = .success r ∧
        (((World.manager none).list operator).run w).1 = .success rules ∧ r ∈ rules ∧ r.id = 2) ∧
      (∃ text, find 1 = .forbidden text) ∧ ∃ text, find 3 = .notFound text := by
  intro w find
  have hallowed : w.directory.Permits none operator .view := by decide +kernel
  have hfound : ∃ r, find 2 = .success r := ⟨_, rfl⟩
  obtain ⟨r, hr⟩ := hfound
  obtain ⟨rules, hlisted, hmem, hid⟩ := ((views_agree w none operator 2).1 r).1 hr
  obtain ⟨_, hforbidden⟩ := (views_agree w none operator 1).2.2 hallowed
  obtain ⟨hnotFound, _⟩ := (views_agree w none operator 3).2.2 hallowed
  obtain ⟨ops, hops⟩ : ∃ r, w.store.find? 1 = some r := ⟨_, rfl⟩
  obtain ⟨hstored, hopsId⟩ := RuleStore.find?_eq_some_iff.1 hops
  have hothers : ∀ q ∈ w.rulesFor operator, q.id ≠ 1 := by decide +kernel
  have hhidden : ops ∉ w.rulesFor operator := fun hmem => hothers ops hmem hopsId
  have hunknown : ∀ q ∈ w.store.rules, q.id ≠ 3 := by decide +kernel
  exact ⟨hallowed, ⟨r, rules, hr, hlisted, hmem, hid⟩,
    hforbidden.2 ⟨ops, hstored, hopsId, _, findEffective_eq none w operator, hhidden⟩,
    hnotFound.2 hunknown⟩

end AccessScope
