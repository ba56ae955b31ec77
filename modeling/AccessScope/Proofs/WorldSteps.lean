import AccessScope.Memory.World

/-!
# Steps of the operations in memory

Over a world every check of an operation looks something up and either passes or fails; it never
changes the world. This file says for each check when it passes, in terms of what the world holds,
so that the operations can be read without their monad.

## Key results

- `run_bind_ok`, `run_bind_error`, `run_bind_cases`: a run is taken apart at its first step
- `run_bind_congr`: two runs with the same first step are compared behind it
- `run_authorize`, `run_load`, `run_requireFreeName`: the outcome of single checks
- `Checks.requireReferences`: all references of a rule exist, or something is reported missing
-/

namespace AccessScope

/-! ## Taking runs apart -/

/-- After a step that gave a value, the run goes on with that value. -/
theorem run_bind_ok {σ α β : Type} {a : Action σ α} {b : α → Action σ β} {w v : σ} {x : α}
    (h : a.run.run w = (.ok x, v)) : (a >>= b).run.run w = (b x).run.run v := by
  simp only [ExceptT.run_bind, StateT.run_bind, h]
  rfl

/-- After a step that failed, the run is over. -/
theorem run_bind_error {σ α β : Type} {a : Action σ α} {b : α → Action σ β} {w v : σ}
    {failure : Failure} (h : a.run.run w = (.error failure, v)) :
    (a >>= b).run.run w = (.error failure, v) := by
  simp only [ExceptT.run_bind, StateT.run_bind, h]
  rfl

/-- A run is over with its first step, or it goes on from the world that this left. -/
theorem run_bind_cases {σ α β : Type} (a : Action σ α) (b : α → Action σ β) (w : σ) :
    (∃ failure, (a.run.run w).1 = .error failure ∧
      (a >>= b).run.run w = (.error failure, (a.run.run w).2)) ∨
    ∃ x, (a >>= b).run.run w = (b x).run.run (a.run.run w).2 := by
  cases h : a.run.run w with
  | mk result v =>
    cases result with
    | error failure => exact .inl ⟨failure, rfl, run_bind_error h⟩
    | ok x => exact .inr ⟨x, run_bind_ok h⟩

/-- Runs that begin with the same step, which leaves the world alone, are the same if they go on
    alike. -/
theorem run_bind_congr {σ α β : Type} {a : Action σ α} {b c : α → Action σ β} {w : σ}
    {result : Except Failure α} (ha : a.run.run w = (result, w))
    (h : ∀ x, result = .ok x → (b x).run.run w = (c x).run.run w) :
    (a >>= b).run.run w = (a >>= c).run.run w := by
  cases result with
  | error failure => rw [run_bind_error ha, run_bind_error ha]
  | ok x => rw [run_bind_ok ha, run_bind_ok ha, h x rfl]

/-- A pure check gives its result and leaves the world alone. -/
@[simp] theorem run_ofExcept {σ α : Type} (result : Except Failure α) (w : σ) :
    (Action.ofExcept result).run.run w = (result, w) := by
  cases result <;> rfl

theorem run_test {σ : Type} (p : Prop) [Decidable p] (failure : Failure) (w : σ) :
    (if p then pure () else throw failure : Action σ Unit).run.run w =
      (if p then .ok () else .error failure, w) := by
  by_cases hp : p
  · simp only [hp, if_true]
    rfl
  · simp only [hp, if_false]
    rfl

/-! ## Checks -/

/-- A step that passes exactly if `p`, fails with a failure of this kind otherwise, and changes
    nothing. -/
def Checks (kind : FailureKind) (step : Action World Unit) (w : World) (p : Prop) : Prop :=
  p ∧ step.run.run w = (.ok (), w) ∨
    ¬ p ∧ ∃ failure, failure.kind = kind ∧ step.run.run w = (.error failure, w)

namespace Checks

variable {kind : FailureKind} {w : World} {p q : Prop} {a b : Action World Unit}

/-- What a check that passed has found out. -/
theorem of_passes (h : Checks kind a w p) (ha : a.run.run w = (.ok (), w)) : p := by
  obtain ⟨hp, _⟩ | ⟨_, failure, _, hrun⟩ := h
  · exact hp
  · rw [hrun] at ha
    cases ha

/-- A check leaves the world alone, and passes only if it should. -/
theorem exists_run (h : Checks kind a w p) :
    ∃ result, a.run.run w = (result, w) ∧ ∀ u, result = .ok u → p := by
  obtain ⟨hp, hrun⟩ | ⟨_, failure, _, hrun⟩ := h
  · exact ⟨_, hrun, fun _ _ => hp⟩
  · exact ⟨_, hrun, nofun⟩

protected theorem pure (hp : p) : Checks kind (pure ()) w p :=
  .inl ⟨hp, rfl⟩

theorem congr (h : Checks kind a w p) (hpq : p ↔ q) : Checks kind a w q := by
  rwa [← propext hpq]

theorem seq (ha : Checks kind a w p) (hb : Checks kind b w q) :
    Checks kind (do a; b) w (p ∧ q) := by
  obtain ⟨hp, hrun⟩ | ⟨hp, failure, hkind, hrun⟩ := ha
  · obtain ⟨hq, hrest⟩ | ⟨hq, failure, hkind, hrest⟩ := hb
    · exact .inl ⟨⟨hp, hq⟩, (run_bind_ok hrun).trans hrest⟩
    · exact .inr ⟨fun h => hq h.2, failure, hkind, (run_bind_ok hrun).trans hrest⟩
  · -- the second check is not made, so nothing is known about `q`
    exact .inr ⟨fun h => hp h.1, failure, hkind, run_bind_error hrun⟩

/-- The same check for everything in a list. -/
theorem forM {α : Type} {l : List α} {f : α → Action World Unit} {p : α → Prop}
    (h : ∀ x ∈ l, Checks kind (f x) w (p x)) :
    Checks kind (l.forM f) w (∀ x ∈ l, p x) := by
  induction l with
  | nil => exact .pure (by simp)
  | cons x l ih =>
    have hrest := ih fun y hy => h y (List.mem_cons_of_mem _ hy)
    exact ((h x List.mem_cons_self).seq hrest).congr List.forall_mem_cons.symm

/-- A check that is left out when there is nothing to check. -/
theorem ofOption {α : Type} (o : Option α) {f : α → Action World Unit} {p : α → Prop}
    (h : ∀ x, Checks kind (f x) w (p x)) :
    Checks kind (match o with | some x => f x | none => pure ()) w (∀ x ∈ o, p x) := by
  cases o with
  | none => exact .pure (by simp)
  | some x => exact (h x).congr (by simp)

/-- Looking something up first. -/
theorem look {α : Type} (f : World → α) {step : α → Action World Unit}
    (h : Checks kind (step (f w)) w p) : Checks kind (World.look f >>= step) w p := by
  have hrun : (World.look f >>= step).run.run w = (step (f w)).run.run w := run_bind_ok rfl
  unfold Checks
  rwa [hrun]

end Checks

/-! ## Who may manage rules -/

/-- May the caller do this with rules? An admin may; anyone else must belong to the access group, if
    one is required, and have one of the roles. -/
def Directory.Permits (d : Directory) (accessGroup : Option String) (caller : Contact)
    (action : RuleAction) : Prop :=
  caller.isAdmin ∨
    (∀ required ∈ accessGroup, ∃ group ∈ d.accessGroupsOf caller.id, group.name = required) ∧
      ∃ role ∈ action.roles, role ∈ caller.roles

instance (d : Directory) (accessGroup : Option String) (caller : Contact) (action : RuleAction) :
    Decidable (d.Permits accessGroup caller action) :=
  inferInstanceAs (Decidable (_ ∨ _ ∧ _))

theorem Contact.hasAnyRole_iff {caller : Contact} {roles : List String} :
    caller.hasAnyRole roles ↔ ∃ role ∈ roles, role ∈ caller.roles := by
  simp [hasAnyRole]

/-- A caller gets past the first check of an operation exactly if it is permitted. -/
theorem run_authorize (accessGroup : Option String) (caller : Contact) (action : RuleAction)
    (w : World) :
    ((World.manager accessGroup).authorize caller action).run.run w =
      (if w.directory.Permits accessGroup caller action then .ok ()
        else .error (.notAllowed action), w) := by
  unfold Manager.authorize Directory.Permits
  simp only [← Contact.hasAnyRole_iff]
  by_cases hadmin : caller.isAdmin
  · simp only [hadmin, if_true, true_or]
    rfl
  · simp only [hadmin, Bool.false_eq_true, if_false, false_or]
    cases accessGroup with
    | none => simpa [World.manager] using run_test _ _ w
    | some required =>
      -- the groups of the caller are looked up before its roles are
      let groups := w.directory.accessGroupsOf caller.id
      apply (run_bind_ok (x := groups) rfl).trans
      -- without the group the roles are not looked at, and both faults have the same words
      by_cases hgroup : ∃ group ∈ groups, group.name = required
      · simpa [groups, hgroup] using run_test _ _ w
      · simp [groups, hgroup]
        rfl

/-! ## Rules and names -/

/-- The rule under an id, or the failure that there is none. -/
def RuleStore.get (s : RuleStore) (id : Id) : Except Failure Rule :=
  (s.find? id).elim (.error .noRule) .ok

theorem RuleStore.get_eq_ok_iff {s : RuleStore} {id : Id} {r : Rule} :
    s.get id = .ok r ↔ s.find? id = some r := by
  rw [get]
  cases s.find? id <;> simp

theorem RuleStore.get_eq_error_iff {s : RuleStore} {id : Id} {failure : Failure} :
    s.get id = .error failure ↔ s.find? id = none ∧ failure = .noRule := by
  rw [get]
  cases s.find? id <;> simp [eq_comm]

/-- Loading a rule gives the one that is found under the id. -/
theorem run_load (accessGroup : Option String) (id : Id) (w : World) :
    ((World.manager accessGroup).load id).run.run w = (w.store.get id, w) := by
  rw [RuleStore.get]
  apply (run_bind_ok (x := w.store.find? id) rfl).trans
  cases w.store.find? id <;> rfl

/-- A name passes exactly if no stored rule has its formatted form. -/
theorem run_requireFreeName (name : String) (w : World) :
    (World.collaborators.requireFreeName name).run.run w =
      (if ∃ r ∈ w.store.rules, r.formattedName = RuleName.formatted name then
          .error (.nameTaken name (RuleName.formatted name)) else .ok (), w) := by
  -- the look-up ends at the first rule of the name, which is enough to tell that there is one
  have hnone := @RuleStore.nameOwner?_eq_none_iff w.store (RuleName.formatted name)
  apply (run_bind_ok (x := (w.store.nameOwner? (RuleName.formatted name)).isSome) rfl).trans
  cases howner : w.store.nameOwner? (RuleName.formatted name) with
  | none =>
    have hfree : ¬ ∃ r ∈ w.store.rules, r.formattedName = RuleName.formatted name := by
      simpa using hnone.1 howner
    rw [if_neg hfree]
    rfl
  | some id =>
    have htaken : ∃ r ∈ w.store.rules, r.formattedName = RuleName.formatted name := by
      simpa [howner] using hnone
    rw [if_pos htaken]
    rfl

/-! ## References -/

/-- Everything that the ids name is a contact. -/
def Directory.HasContacts (d : Directory) (ids : IdSet) : Prop :=
  ∀ id ∈ ids, ∃ c ∈ d.contacts, c.id = id

/-- Everything that the ids name is a contact group. -/
def Directory.HasContactGroups (d : Directory) (ids : IdSet) : Prop :=
  ∀ id ∈ ids, ∃ g ∈ d.contactGroups, g.id = id

/-- Every level of the filters names resources of its category. -/
def RuleStore.HasResources (s : RuleStore) (filters : List Filter) : Prop :=
  ∀ f ∈ filters, ∀ level ∈ f.levels, ∀ id ∈ level.2, (level.1, id) ∈ s.resources

namespace Checks

variable {w : World}

/-- Ids pass if all of them are among those that are known. -/
theorem requireKnown (what : Reference) (ids : IdSet) (known : Id → Bool) :
    Checks .badRequest (Collaborators.requireKnown what ids (ids.toList.filter known)) w
      (∀ id ∈ ids, known id) := by
  -- what is reported missing are the ids that are left when the known ones are taken away
  have hempty : (ids.sdiff (ids.toList.filter known)).isEmpty ↔ ∀ id ∈ ids, known id := by
    rw [IdSet.isEmpty_iff]
    refine forall_congr' fun id => ?_
    simp only [IdSet.mem_sdiff, List.mem_filter, ← IdSet.mem_def]
    by_cases hid : id ∈ ids <;> simp [hid]
  unfold Collaborators.requireKnown
  by_cases hp : ∀ id ∈ ids, known id
  · rw [if_pos (hempty.2 hp)]
    exact .pure hp
  · rw [if_neg fun h => hp (hempty.1 h)]
    exact .inr ⟨hp, _, rfl, rfl⟩

/-- No ids pass without anyone being asked. -/
theorem requireAny (what : Reference) (ids : IdSet) (known : World → Id → Bool) :
    Checks .badRequest
      (if ids.isEmpty then pure () else
        World.look (fun w => ids.toList.filter (known w)) >>= Collaborators.requireKnown what ids)
      w (∀ id ∈ ids, known w id) := by
  by_cases hempty : ids.isEmpty
  · rw [if_pos hempty]
    exact .pure fun id hid => absurd hid (IdSet.isEmpty_iff.1 hempty id)
  · rw [if_neg hempty]
    exact look _ (requireKnown what ids (known w))

/-- Contacts pass if all of them are registered. -/
theorem requireContacts (ids : IdSet) :
    Checks .badRequest (World.collaborators.requireContacts ids) w (w.directory.HasContacts ids) :=
  (requireAny .contact ids fun w id => w.directory.contacts.any (·.id = id)).congr (by
    simp [Directory.HasContacts])

/-- Contact groups pass if all of them are registered. -/
theorem requireContactGroups (ids : IdSet) :
    Checks .badRequest (World.collaborators.requireContactGroups ids) w
      (w.directory.HasContactGroups ids) :=
  (requireAny .contactGroup ids fun w id => w.directory.contactGroups.any (·.id = id)).congr (by
    simp [Directory.HasContactGroups])

/-- Filters pass if every level names resources of its category. -/
theorem requireResources (filters : List Filter) :
    Checks .badRequest (World.collaborators.requireResources filters) w
      (w.store.HasResources filters) := by
  have hcategory (request : Category × IdSet) (_ : request ∈ requestedResources filters) :=
    look (fun w => w.store.knownResources request.1 request.2.toList)
      (requireKnown (w := w) (.resource request.1) request.2 fun id =>
        w.store.resources.contains (request.1, id))
  refine (forM hcategory).congr ⟨fun h f hf level hl id hid => ?_, fun h request hr id hid => ?_⟩
  · -- the level's category is asked about, with the resources of all levels of that category
    have hasked : (level.1, resourcesOf level.1 filters) ∈ requestedResources filters := by
      refine List.mem_map.2 ⟨level.1, List.mem_filter.2 ⟨level.1.mem_values, ?_⟩, rfl⟩
      exact List.any_eq_true.2 ⟨level, List.mem_flatMap.2 ⟨f, hf, hl⟩, by simp⟩
    simpa using h _ hasked id (mem_resourcesOf.2 ⟨f, hf, level, hl, rfl, hid⟩)
  · obtain ⟨category, _, rfl⟩ := List.mem_map.1 hr
    obtain ⟨f, hf, level, hl, rfl, hmem⟩ := mem_resourcesOf.1 hid
    simpa using h f hf level hl id hmem

end Checks

/-- Everything that terms refer to is registered. -/
structure World.Knows (w : World) (terms : RuleTerms) : Prop where
  contacts : w.directory.HasContacts terms.contacts
  contactGroups : w.directory.HasContactGroups terms.contactGroups
  resources : w.store.HasResources terms.filters

/-- What a rule is called does not matter to what it refers to. -/
theorem World.knows_rename_iff {w : World} {t : RuleTerms} {name : String} :
    w.Knows { t with name } ↔ w.Knows t :=
  ⟨fun ⟨hc, hg, hr⟩ => ⟨hc, hg, hr⟩, fun ⟨hc, hg, hr⟩ => ⟨hc, hg, hr⟩⟩

/-- Everything that an edit newly refers to is registered. -/
structure World.KnowsChanges (w : World) (changes : RuleChanges) : Prop where
  contacts : ∀ ids ∈ changes.contacts, w.directory.HasContacts ids
  contactGroups : ∀ ids ∈ changes.contactGroups, w.directory.HasContactGroups ids
  resources : ∀ filters ∈ changes.filters, w.store.HasResources filters

/-- Terms pass if all that they refer to is registered. -/
theorem Checks.requireReferences (accessGroup : Option String) (terms : RuleTerms)
    (w : World) :
    Checks .badRequest ((World.manager accessGroup).requireReferences terms) w (w.Knows terms) :=
  ((requireContacts _).seq ((requireContactGroups _).seq (requireResources _))).congr
    ⟨fun ⟨hc, hg, hr⟩ => ⟨hc, hg, hr⟩, fun ⟨hc, hg, hr⟩ => ⟨hc, hg, hr⟩⟩

/-- An edit passes if all that it sets is registered. -/
theorem Checks.requireChangedReferences (accessGroup : Option String)
    (changes : RuleChanges) (w : World) :
    Checks .badRequest ((World.manager accessGroup).requireChangedReferences changes) w
      (w.KnowsChanges changes) := by
  have hseq := (ofOption changes.contacts requireContacts).seq
    ((ofOption changes.contactGroups requireContactGroups).seq
      (ofOption (w := w) changes.filters requireResources))
  refine Checks.congr (p := _ ∧ _ ∧ _) ?_
    ⟨fun ⟨hc, hg, hr⟩ => ⟨hc, hg, hr⟩, fun ⟨hc, hg, hr⟩ => ⟨hc, hg, hr⟩⟩
  obtain ⟨_, _, _, contacts, groups, filters⟩ := changes
  cases contacts <;> cases groups <;> cases filters <;> exact hseq

end AccessScope
