import AccessScope.Proofs.WorldRuns

/-!
# How mutations are answered

The answer to a mutation depends on five conditions, and the first one that does not hold decides:
the caller is permitted, the rule is there, the request is accepted, the name is free, and what the
request refers to is registered. They are said of the request as it comes in and of the world before
the call. In every world that can be reached they decide alone: the store never refuses what the
operation let through, a new rule is found again, and nothing ends in an internal error.

## Key results

- `Conditions.Decides`: which answer the conditions lead to
- `Conditions.Decides.of_ends`: a mutation that ends as planned is answered by its conditions
- `mutations_decided`: the answers to all four mutations in every world that can be reached
-/

namespace AccessScope

/-! ## Conditions -/

/-- What the answer to a mutation depends on, in the order in which it is decided. -/
structure Conditions where
  allowed : Prop
  present : Prop
  accepted : Prop
  nameFree : Prop
  registered : Prop

/-- The answer to a mutation: the first condition that does not hold decides, and if all of them
    hold it is `done`. -/
inductive Conditions.Decides {α : Type} (c : Conditions) (done : Response α → Prop) :
    Response α → Prop where
  | forbidden {text : String} (h : ¬ c.allowed) : Decides c done (.forbidden text)
  | notFound (ha : c.allowed) (h : ¬ c.present) : Decides c done (.notFound "Rule")
  | invalid {text : String} {fields : List FieldFault} (ha : c.allowed) (hp : c.present)
    (h : ¬ c.accepted) : Decides c done (.invalidArgument text fields)
  | conflict {text : String} (ha : c.allowed) (hp : c.present) (hacc : c.accepted)
    (h : ¬ c.nameFree) : Decides c done (.conflict text)
  | unregistered {text : String} {fields : List FieldFault} (ha : c.allowed) (hp : c.present)
    (hacc : c.accepted) (hn : c.nameFree) (h : ¬ c.registered) :
    Decides c done (.invalidArgument text fields)
  | done {response : Response α} (ha : c.allowed) (hp : c.present) (hacc : c.accepted)
    (hn : c.nameFree) (hr : c.registered) (h : done response) : Decides c done response

/-- A request is accepted if no field is refused, every draft passes its check, and its terms make
    what they are meant to. -/
def RuleRequest.Accepted (r : RuleRequest) (makes : RuleTerms → Prop) : Prop :=
  r.fieldFaults = [] ∧ (∀ draft ∈ r.filters, draft.check = .ok ()) ∧
    ∀ t, r.toTerms = .ok t → makes t

/-- The same for a request that sets some fields only. -/
def ChangeRequest.Accepted (r : ChangeRequest) (makes : RuleChanges → Prop) : Prop :=
  r.fieldFaults = [] ∧ (∀ drafts ∈ r.filters, ∀ draft ∈ drafts, draft.check = .ok ()) ∧
    ∀ c, r.toChanges = .ok c → makes c

namespace World

variable (w : World) (accessGroup : Option String) (caller : Contact)

/-- Everything that a request refers to, in the fields that it sets, is registered. -/
structure Registers (r : ChangeRequest) : Prop where
  contacts : ∀ ids ∈ r.contacts, ∀ id ∈ ids, ∃ c ∈ w.directory.contacts, c.id = id
  contactGroups : ∀ ids ∈ r.contactGroups, ∀ id ∈ ids, ∃ g ∈ w.directory.contactGroups, g.id = id
  resources : ∀ drafts ∈ r.filters, ∀ draft ∈ drafts, ∀ level ∈ draft.levels, ∀ id ∈ level.2,
    (level.1, id) ∈ w.store.resources

/-- When a rule can be made. -/
def createConditions (request : RuleRequest) : Conditions where
  allowed := w.directory.Permits accessGroup caller .create
  present := True
  accepted := request.Accepted fun t => ∃ content, RuleContent.ofTerms t = .ok content
  nameFree := ∀ r ∈ w.store.rules, r.formattedName ≠ RuleName.formatted request.name
  registered := w.Registers request.toChangeRequest

/-- When a rule can be replaced. -/
def updateConditions (id : Id) (request : RuleRequest) : Conditions where
  allowed := w.directory.Permits accessGroup caller .edit
  present := ∃ r ∈ w.store.rules, r.id = id
  accepted := ∀ current ∈ w.store.find? id,
    request.Accepted fun t => ∃ next, current.replace t = .ok next
  nameFree := ∀ r ∈ w.store.rules, r.id ≠ id → r.formattedName ≠ RuleName.formatted request.name
  registered := w.Registers request.toChangeRequest

/-- When a rule can be edited. A name that the request does not set stays what it is. -/
def partialUpdateConditions (id : Id) (request : ChangeRequest) : Conditions where
  allowed := w.directory.Permits accessGroup caller .edit
  present := ∃ r ∈ w.store.rules, r.id = id
  accepted := ∀ current ∈ w.store.find? id,
    request.Accepted fun changes => ∃ merged, current.merge changes = .ok merged
  nameFree := ∀ current ∈ w.store.find? id, ∀ r ∈ w.store.rules, r.id ≠ id →
    r.formattedName ≠ RuleName.formatted (request.name.getD current.name)
  registered := w.Registers request

/-- When a rule can be removed. -/
def deleteConditions (id : Id) : Conditions where
  allowed := w.directory.Permits accessGroup caller .delete
  present := ∃ r ∈ w.store.rules, r.id = id
  accepted := True
  nameFree := True
  registered := True

/-- The store accepts what the checks of the operations let through, and finds again what was
    added. -/
structure StoreAgrees : Prop where
  add (content : RuleContent)
    (h : (collaborators.requireFreeName content.name).run.run w = (.ok (), w)) :
    ∃ t id, w.store.add content = .ok (t, id) ∧ t.find? id = some (content.withId id)
  update (current next : Rule) (hcurrent : w.store.find? next.id = some current)
    (h : ((manager accessGroup).requireFreeNameFor current next).run.run w = (.ok (), w)) :
    ∃ t, w.store.update next = .ok t
  delete (id : Id) (current : Rule) (hcurrent : w.store.find? id = some current) :
    ∃ t, w.store.delete id = .ok t

end World

/-! ## Accepted requests -/

/-- A request that is accepted has terms, and they make what they are meant to. -/
theorem RuleRequest.accepted_iff {r : RuleRequest} {makes : RuleTerms → Prop} :
    r.Accepted makes ↔ r.fieldFaults = [] ∧ ∃ t, r.toTerms = .ok t ∧ makes t := by
  rw [Accepted, ← exists_toTerms_iff, exists_and_forall_ok_iff]

/-- An edit that is accepted has changes, and they make what they are meant to. -/
theorem ChangeRequest.accepted_iff {r : ChangeRequest} {makes : RuleChanges → Prop} :
    r.Accepted makes ↔ r.fieldFaults = [] ∧ ∃ c, r.toChanges = .ok c ∧ makes c := by
  rw [Accepted, ← exists_toChanges_iff, exists_and_forall_ok_iff]

theorem RuleRequest.exists_toContent_iff {r : RuleRequest} :
    (∃ content, r.toContent = .ok content) ↔
      r.Accepted fun t => ∃ content, RuleContent.ofTerms t = .ok content := by
  simp only [accepted_iff, toContent_eq_ok_iff]
  exact ⟨fun ⟨c, hfields, t, ht, hc⟩ => ⟨hfields, t, ht, c, hc⟩,
    fun ⟨hfields, t, ht, c, hc⟩ => ⟨c, hfields, t, ht, hc⟩⟩

theorem Rule.exists_replaced_iff {current : Rule} {r : RuleRequest} :
    (∃ next, current.replaced r = .ok next) ↔
      r.Accepted fun t => ∃ next, current.replace t = .ok next := by
  simp only [RuleRequest.accepted_iff, replaced_eq_ok_iff]
  exact ⟨fun ⟨c, hfields, t, ht, hc⟩ => ⟨hfields, t, ht, c, hc⟩,
    fun ⟨hfields, t, ht, c, hc⟩ => ⟨c, hfields, t, ht, hc⟩⟩

theorem Rule.exists_edited_iff {current : Rule} {r : ChangeRequest} :
    (∃ edited, current.edited r = .ok edited) ↔
      r.Accepted fun changes => ∃ merged, current.merge changes = .ok merged := by
  simp only [ChangeRequest.accepted_iff, Prod.exists, edited_eq_ok_iff]
  exact ⟨fun ⟨m, c, hfields, hc, hm⟩ => ⟨hfields, c, hc, m, hm⟩,
    fun ⟨hfields, c, hc, m, hm⟩ => ⟨m, c, hfields, hc, hm⟩⟩

/-! ## Registered references -/

namespace World

variable {w : World}

/-- What the terms of a request refer to is what the request lists. -/
theorem knows_iff_registers {request : RuleRequest} {t : RuleTerms}
    (ht : request.toTerms = .ok t) : w.Knows t ↔ w.Registers request.toChangeRequest := by
  obtain ⟨hfilters, hterms⟩ := RuleRequest.toTerms_eq_ok_iff.1 ht
  have hresources := Filter.forall_levels_iff hfilters fun c id => (c, id) ∈ w.store.resources
  rw [hterms]
  constructor
  · intro hknows
    obtain ⟨hc, hg, hr⟩ := hknows
    refine ⟨fun _ h id hid => ?_, fun _ h id hid => ?_, fun _ h => ?_⟩
    · cases h
      exact hc id (IdSet.mem_ofList.2 hid)
    · cases h
      exact hg id (IdSet.mem_ofList.2 hid)
    · cases h
      exact hresources.1 hr
  · intro hregisters
    obtain ⟨hc, hg, hr⟩ := hregisters
    exact ⟨fun id hid => hc _ rfl id (IdSet.mem_ofList.1 hid),
      fun id hid => hg _ rfl id (IdSet.mem_ofList.1 hid), hresources.2 (hr _ rfl)⟩

/-- What an edit newly refers to is what the request lists in the fields that it sets. -/
theorem knowsChanges_iff_registers {request : ChangeRequest} {changes : RuleChanges}
    (h : request.toChanges = .ok changes) : w.KnowsChanges changes ↔ w.Registers request := by
  have hcontacts : changes.contacts = request.contacts.map .ofList := by
    rw [(ChangeRequest.toChanges_eq_ok_iff.1 h).2]
  have hgroups : changes.contactGroups = request.contactGroups.map .ofList := by
    rw [(ChangeRequest.toChanges_eq_ok_iff.1 h).2]
  have hresources : (∀ filters ∈ changes.filters, w.store.HasResources filters) ↔
      ∀ drafts ∈ request.filters, ∀ draft ∈ drafts, ∀ level ∈ draft.levels, ∀ id ∈ level.2,
        (level.1, id) ∈ w.store.resources := by
    -- an edit that sets no filters refers to no resources
    obtain ⟨hr, hc⟩ | ⟨drafts, filters, hr, hc, hmap⟩ := ChangeRequest.filters_of_toChanges h
    · simp [hr, hc]
    · have hlevels := Filter.forall_levels_iff hmap fun c id => (c, id) ∈ w.store.resources
      simpa [hr, hc, RuleStore.HasResources] using hlevels
  constructor
  · intro hknows
    obtain ⟨hc, hg, hr⟩ := hknows
    refine ⟨fun ids h id hid => ?_, fun ids h id hid => ?_, hresources.1 hr⟩
    · exact hc (.ofList ids) (hcontacts ▸ Option.mem_map_of_mem _ h) id (IdSet.mem_ofList.2 hid)
    · exact hg (.ofList ids) (hgroups ▸ Option.mem_map_of_mem _ h) id (IdSet.mem_ofList.2 hid)
  · intro hregisters
    obtain ⟨hc, hg, hr⟩ := hregisters
    refine ⟨fun ids h id hid => ?_, fun ids h id hid => ?_, hresources.2 hr⟩
    · rw [hcontacts] at h
      obtain ⟨listed, hlisted, rfl⟩ := Option.map_eq_some_iff.1 h
      exact hc listed hlisted id (IdSet.mem_ofList.1 hid)
    · rw [hgroups] at h
      obtain ⟨listed, hlisted, rfl⟩ := Option.map_eq_some_iff.1 h
      exact hg listed hlisted id (IdSet.mem_ofList.1 hid)

end World

/-! ## From plans to answers -/

/-- The conditions explain why a request is refused before its name is looked at. -/
def Conditions.Refuses (c : Conditions) (failure : Failure) : Prop :=
  ¬ c.present ∧ failure = .noRule ∨ c.present ∧ ¬ c.accepted ∧ failure.kind = .validation

/-- A mutation that ends as planned is answered by its conditions, if these say of the request what
    the plan says of what is made of it. -/
theorem Conditions.Decides.of_ends {α β γ : Type} {p : MutationPlan α β} {c : Conditions}
    {w : World} {outcome : Except Failure β × World} {done : Response γ → Prop}
    (respond : Except Failure β → Response γ) (label : String) (h : p.Ends w outcome)
    (hfail : ∀ failure, respond (.error failure) = .ofFailure label failure)
    (hallowed : p.allowed ↔ c.allowed)
    (hrefused : ∀ failure, p.subject = .error failure → c.Refuses failure)
    (haccepted : ∀ a, p.subject = .ok a →
      (c.present ∧ c.accepted) ∧ (p.nameFree a ↔ c.nameFree) ∧ (p.known a ↔ c.registered))
    (hdone : ∀ a, outcome = (.ok (p.effect a).1, { w with store := (p.effect a).2 }) →
      done (respond outcome.1)) :
    c.Decides done (respond outcome.1) := by
  cases h with
  | notAllowed h =>
    rw [hfail]
    exact .forbidden fun ha => h (hallowed.2 ha)
  | refused ha hs =>
    rw [hfail]
    obtain ⟨hp, rfl⟩ | ⟨hp, hacc, hkind⟩ := hrefused _ hs
    · exact .notFound (hallowed.1 ha) hp
    · simp only [Response.ofFailure, hkind]
      exact .invalid (hallowed.1 ha) hp hacc
  | nameTaken ha hs hf hkind =>
    -- what the request was made into came about, so the rule was there and the request accepted
    obtain ⟨⟨hp, hacc⟩, hname, _⟩ := haccepted _ hs
    simp only [hfail, Response.ofFailure, hkind]
    exact .conflict (hallowed.1 ha) hp hacc fun h => hf (hname.2 h)
  | unknown ha hs hf hk hkind =>
    obtain ⟨⟨hp, hacc⟩, hname, hknown⟩ := haccepted _ hs
    simp only [hfail, Response.ofFailure, hkind]
    exact .unregistered (hallowed.1 ha) hp hacc (hname.1 hf) fun h => hk (hknown.2 h)
  | done ha hs hf hk =>
    obtain ⟨⟨hp, hacc⟩, hname, hknown⟩ := haccepted _ hs
    exact .done (hallowed.1 ha) hp hacc (hname.1 hf) (hknown.1 hk) (hdone _ rfl)

/-! ## Rules that are looked up first -/

namespace RuleStore

variable {s : RuleStore} {id : Id}

theorem find?_eq_none_iff_not_exists :
    s.find? id = none ↔ ¬ ∃ r ∈ s.rules, r.id = id := by
  rw [find?_eq_none_iff]
  simp

/-- A subject that is a stored rule with something made of it is refused if the rule is not there or
    nothing can be made of it. -/
theorem refused_getWith {β : Type} {f : Rule → Except Failure β}
    {accepted : Rule → Prop}
    (hkind : ∀ r failure, f r = .error failure → failure.kind = .validation)
    (haccepted : ∀ r, (∃ b, f r = .ok b) ↔ accepted r) {failure : Failure}
    (hs : s.getWith id f = .error failure) :
    (¬ ∃ r ∈ s.rules, r.id = id) ∧ failure = .noRule ∨
      (∃ r ∈ s.rules, r.id = id) ∧ (¬ ∀ current ∈ s.find? id, accepted current) ∧
        failure.kind = .validation := by
  obtain ⟨hnone, rfl⟩ | ⟨current, hfind, hf⟩ := getWith_eq_error_iff.1 hs
  · exact .inl ⟨find?_eq_none_iff_not_exists.1 hnone, rfl⟩
  · refine .inr ⟨⟨current, find?_eq_some_iff.1 hfind⟩, fun hall => ?_, hkind current failure hf⟩
    -- if the rule under the id accepted the request, something would have been made of it
    obtain ⟨b, hb⟩ := (haccepted current).2 (hall current hfind)
    cases hf.symm.trans hb

/-- Otherwise the rule is there and something is made of it. -/
theorem accepted_getWith {β : Type} {f : Rule → Except Failure β}
    {accepted : Rule → Prop} (haccepted : ∀ r, (∃ b, f r = .ok b) ↔ accepted r) {current : Rule}
    {b : β} (hs : s.getWith id f = .ok (current, b)) :
    (∃ r ∈ s.rules, r.id = id) ∧ ∀ r ∈ s.find? id, accepted r := by
  obtain ⟨hfind, hb⟩ := getWith_eq_ok_iff.1 hs
  refine ⟨⟨current, find?_eq_some_iff.1 hfind⟩, fun r hr => ?_⟩
  cases hfind.symm.trans hr
  exact (haccepted current).1 ⟨b, hb⟩

end RuleStore

/-! ## The four mutations -/

section

variable {w : World} (accessGroup : Option String) (caller : Contact)

/-- Making a rule is answered by its conditions, and a rule that is made is found afterwards. -/
theorem decides_create (request : RuleRequest) :
    let result := ((World.manager accessGroup).create caller request).run w
    (w.createConditions accessGroup caller request).Decides
      (fun response => ∃ rule, response = .success rule ∧
        result.2.store.find? rule.id = some rule) result.1 := by
  intro result
  let c := w.createConditions accessGroup caller request
  let p := w.createPlan accessGroup caller request
  have hrefused (failure : Failure) (hs : p.subject = .error failure) : c.Refuses failure := by
    refine .inr ⟨trivial, fun hacc => ?_, RuleRequest.kind_of_toContent hs⟩
    obtain ⟨content, hok⟩ := RuleRequest.exists_toContent_iff.2 hacc
    -- an accepted request would have been made into the content of a rule
    cases hs.symm.trans hok
  have haccepted (content : RuleContent) (hs : p.subject = .ok content) :
      (c.present ∧ c.accepted) ∧ (p.nameFree content ↔ c.nameFree) ∧
        (p.known content ↔ c.registered) := by
    refine ⟨⟨trivial, RuleRequest.exists_toContent_iff.1 ⟨content, hs⟩⟩, ?_⟩
    obtain ⟨_, t, ht, hcontent⟩ := RuleRequest.toContent_eq_ok_iff.1 hs
    obtain ⟨hterms, hname⟩ := RuleContent.fields_of_ofTerms hcontent
    -- what is stored has the name and the references of the request
    show ((∀ r ∈ w.store.rules, r.formattedName ≠ content.formattedName) ↔ c.nameFree) ∧
      (w.Knows content.terms ↔ c.registered)
    rw [hname, RuleRequest.name_of_toTerms ht, hterms, World.knows_rename_iff,
      World.knows_iff_registers ht]
    exact ⟨Iff.rfl, Iff.rfl⟩
  apply Conditions.Decides.of_ends (c := c) (.ofResult _) _
    (ends_tryCreate accessGroup caller request) (fun _ => rfl) Iff.rfl hrefused haccepted
  intro content hout
  have hstore : result.2.store = w.store.added content := congrArg (·.2.store) hout
  rw [hout, hstore]
  exact ⟨_, rfl, w.store.find?_added content⟩

theorem decides_update (id : Id) (request : RuleRequest) (hnames : w.store.NamesDiffer) :
    (w.updateConditions accessGroup caller id request).Decides (· = .noContent)
      (((World.manager accessGroup).update caller id request).run w).1 := by
  let c := w.updateConditions accessGroup caller id request
  let p := w.updatePlan accessGroup caller id request
  have hrefused (failure : Failure) (hs : p.subject = .error failure) : c.Refuses failure :=
    RuleStore.refused_getWith (fun _ _ => Rule.kind_of_replaced) (fun _ => Rule.exists_replaced_iff)
      hs
  have haccepted (a : Rule × Rule) (hs : p.subject = .ok a) :
      (c.present ∧ c.accepted) ∧ (p.nameFree a ↔ c.nameFree) ∧ (p.known a ↔ c.registered) := by
    refine ⟨RuleStore.accepted_getWith (fun _ => Rule.exists_replaced_iff) hs, ?_⟩
    obtain ⟨_, hnext⟩ := RuleStore.getWith_eq_ok_iff.1 hs
    obtain ⟨_, t, ht, hreplace⟩ := Rule.replaced_eq_ok_iff.1 hnext
    obtain ⟨hterms, hname⟩ := Rule.fields_of_replace hreplace
    -- the rule that is written has the name and the references of the request
    show ((∀ r ∈ w.store.rules, r.id ≠ id → r.formattedName ≠ a.2.formattedName) ↔ c.nameFree) ∧
      (w.Knows a.2.terms ↔ c.registered)
    rw [hname, RuleRequest.name_of_toTerms ht, hterms, World.knows_rename_iff,
      World.knows_iff_registers ht]
    exact ⟨Iff.rfl, Iff.rfl⟩
  apply Conditions.Decides.of_ends (c := c) (.ofDone _) _
    (ends_tryUpdate accessGroup caller id request hnames) (fun _ => rfl) Iff.rfl hrefused haccepted
  intro a hout
  rw [hout]
  rfl

theorem decides_partialUpdate (id : Id) (request : ChangeRequest) (hnames : w.store.NamesDiffer) :
    (w.partialUpdateConditions accessGroup caller id request).Decides (· = .noContent)
      (((World.manager accessGroup).partialUpdate caller id request).run w).1 := by
  let c := w.partialUpdateConditions accessGroup caller id request
  let p := w.partialUpdatePlan accessGroup caller id request
  have hrefused (failure : Failure) (hs : p.subject = .error failure) : c.Refuses failure :=
    RuleStore.refused_getWith (fun _ _ => Rule.kind_of_edited) (fun _ => Rule.exists_edited_iff) hs
  have haccepted (a : Rule × Rule × RuleChanges) (hs : p.subject = .ok a) :
      (c.present ∧ c.accepted) ∧ (p.nameFree a ↔ c.nameFree) ∧ (p.known a ↔ c.registered) := by
    refine ⟨RuleStore.accepted_getWith (fun _ => Rule.exists_edited_iff) hs, ?_⟩
    obtain ⟨hfind, hedit⟩ := RuleStore.getWith_eq_ok_iff.1 hs
    obtain ⟨_, hchanges, hmerge⟩ := Rule.edited_eq_ok_iff.1 hedit
    -- without a name in the request the rule keeps its own
    have hname : a.2.1.formattedName = RuleName.formatted (request.name.getD a.1.name) := by
      rw [(Rule.fields_of_replace hmerge).2, RuleChanges.applyTo,
        ChangeRequest.name_of_toChanges hchanges]
    have hfree : p.nameFree a ↔ c.nameFree := by
      show (∀ r ∈ w.store.rules, r.id ≠ id → r.formattedName ≠ a.2.1.formattedName) ↔ c.nameFree
      rw [hname]
      constructor
      · intro h r hr
        -- only one rule is found under the id
        cases hfind.symm.trans hr
        exact h
      · intro h
        exact h a.1 hfind
    exact ⟨hfree, World.knowsChanges_iff_registers hchanges⟩
  apply Conditions.Decides.of_ends (c := c) (.ofDone _) _
    (ends_tryPartialUpdate accessGroup caller id request hnames) (fun _ => rfl) Iff.rfl hrefused
    haccepted
  intro a hout
  rw [hout]
  rfl

theorem decides_delete (id : Id) :
    (w.deleteConditions accessGroup caller id).Decides (· = .noContent)
      (((World.manager accessGroup).delete caller id).run w).1 := by
  let c := w.deleteConditions accessGroup caller id
  let p := w.deletePlan accessGroup caller id
  have hrefused (failure : Failure) (hs : p.subject = .error failure) : c.Refuses failure := by
    obtain ⟨hnone, rfl⟩ := RuleStore.get_eq_error_iff.1 hs
    exact .inl ⟨RuleStore.find?_eq_none_iff_not_exists.1 hnone, rfl⟩
  have haccepted (current : Rule) (hs : p.subject = .ok current) :
      (c.present ∧ c.accepted) ∧ (p.nameFree current ↔ c.nameFree) ∧
        (p.known current ↔ c.registered) := by
    have hfound := RuleStore.find?_eq_some_iff.1 (RuleStore.get_eq_ok_iff.1 hs)
    exact ⟨⟨⟨current, hfound⟩, trivial⟩, Iff.rfl, Iff.rfl⟩
  apply Conditions.Decides.of_ends (c := c) (.ofDone _) _
    (ends_tryDelete accessGroup caller id) (fun _ => rfl) Iff.rfl hrefused haccepted
  intro a hout
  rw [hout]
  rfl

end

/-! ## No internal errors -/

/-- A failure that is not internal is not answered as an error. -/
theorem Response.status_ofFailure_ne {α : Type} {label : String} {failure : Failure}
    (h : failure.kind ≠ .internal) : (ofFailure label failure : Response α).status ≠ "error" := by
  unfold ofFailure
  cases hkind : failure.kind with
  | internal => exact absurd hkind h
  | notFound => simp [status]
  | badRequest => simp [status]
  | forbidden => simp [status]
  | conflict => simp [status]
  | validation => simp [status]

/-- Conditions never lead to an internal error. -/
theorem Conditions.Decides.status_ne {α : Type} {c : Conditions} {done : Response α → Prop}
    {response : Response α} (h : c.Decides done response)
    (hdone : ∀ r, done r → r.status ≠ "error") : response.status ≠ "error" := by
  cases h with
  | done _ _ _ _ _ h => exact hdone _ h
  | _ => simp [Response.status]

theorem Reads.status_ne {α : Type} {step : Action World α} (h : Reads step) (w : World)
    (label : String) : (Response.ofResult label (step.run.run w).1).status ≠ "error" := by
  cases hresult : (step.run.run w).1 with
  | ok a => simp [Response.ofResult, Response.status]
  | error failure => exact Response.status_ofFailure_ne (h.kind_ne w failure hresult)

section

variable {w : World} (accessGroup : Option String)

theorem UseCase.status_ne (caller : Contact) (useCase : UseCase) (hnames : w.store.NamesDiffer) :
    ((useCase.perform (World.manager accessGroup) caller).run w).1 ≠ "error" := by
  have hdone (r : Response Unit) (h : r = .noContent) : r.status ≠ "error" := by
    rw [h]
    simp [Response.status]
  cases useCase with
  | create request =>
    -- the conditions lead to no internal error, and a rule that is made is found again
    refine (decides_create accessGroup caller request).status_ne fun r hr => ?_
    obtain ⟨rule, rfl, _⟩ := hr
    simp [Response.status]
  | find id => exact (reads_tryFind accessGroup caller id).status_ne w _
  | list => exact (reads_tryList accessGroup caller).status_ne w _
  | update id request =>
    exact (decides_update accessGroup caller id request hnames).status_ne hdone
  | partialUpdate id request =>
    exact (decides_partialUpdate accessGroup caller id request hnames).status_ne hdone
  | delete id => exact (decides_delete accessGroup caller id).status_ne hdone
  | findEffective => exact (reads_effectiveRules caller).status_ne w _

/-- Where names differ, the store accepts what the checks let through. -/
theorem World.storeAgrees (hnames : w.store.NamesDiffer) : w.StoreAgrees accessGroup where
  add content h := by
    have hfree := (Checks.requireFreeName content.name w).of_passes h
    rw [← content.formattedName_eq] at hfree
    exact ⟨_, _, RuleStore.add_of_free hfree, w.store.find?_added content⟩
  update current next hcurrent h := by
    have hfree := (Checks.requireFreeNameFor accessGroup next hnames hcurrent).of_passes h
    exact ⟨_, RuleStore.update_of_free hcurrent hfree⟩
  delete id current hcurrent := ⟨_, RuleStore.delete_eq_ok_iff.2 ⟨by simp [hcurrent], rfl⟩⟩

/-- The answers to all mutations, in every world that can be reached from one without rules and for
    every caller: each is decided by its conditions alone. The store refuses nothing that passed the
    checks of the operations, a rule that was made is found again, and nothing that a caller can ask
    for is answered as an internal error. -/
theorem mutations_decided (h : w.Reachable accessGroup) (caller : Contact) :
    (∀ request,
      let result := ((World.manager accessGroup).create caller request).run w
      (w.createConditions accessGroup caller request).Decides
        (fun response => ∃ rule, response = .success rule ∧
          result.2.store.find? rule.id = some rule) result.1) ∧
    (∀ id request, (w.updateConditions accessGroup caller id request).Decides (· = .noContent)
      (((World.manager accessGroup).update caller id request).run w).1) ∧
    (∀ id request, (w.partialUpdateConditions accessGroup caller id request).Decides
      (· = .noContent) (((World.manager accessGroup).partialUpdate caller id request).run w).1) ∧
    (∀ id, (w.deleteConditions accessGroup caller id).Decides (· = .noContent)
      (((World.manager accessGroup).delete caller id).run w).1) ∧
    w.StoreAgrees accessGroup ∧
    ∀ useCase : UseCase,
      ((useCase.perform (World.manager accessGroup) caller).run w).1 ≠ "error" := by
  have hnames := h.namesDiffer
  exact ⟨decides_create accessGroup caller,
    fun id request => decides_update accessGroup caller id request hnames,
    fun id request => decides_partialUpdate accessGroup caller id request hnames,
    decides_delete accessGroup caller, World.storeAgrees accessGroup hnames,
    fun useCase => useCase.status_ne accessGroup caller hnames⟩

end

/-- A rule cannot be renamed to what is the name of another but for letter case and white space. -/
theorem mutations_decided_taken_name :
    let w := smallWorld.after none
      [.call root (.create (hostRequest "Ops" 7)), .call root (.create (hostRequest "Dev" 8))]
    let rename := { noEdit with name := some " oPS " }
    let response := (((World.manager none).partialUpdate root 2 rename).run w).1
    w.Reachable none ∧ response.status = "conflict" ∧
      (w.partialUpdateConditions none root 2 rename).Decides (· = .noContent) response := by
  have hreachable : World.Reachable none (smallWorld.after none
      [.call root (.create (hostRequest "Ops" 7)), .call root (.create (hostRequest "Dev" 8))]) :=
    ⟨smallWorld, _, ⟨rfl, rfl⟩, rfl⟩
  have hdecided :=
    (mutations_decided none hreachable root).2.2.1 2 { noEdit with name := some " oPS " }
  exact ⟨hreachable, by decide +kernel, hdecided⟩

end AccessScope
