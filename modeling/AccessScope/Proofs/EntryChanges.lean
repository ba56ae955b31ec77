import AccessScope.Proofs.Views

/-!
# What mutations change

A mutation that is done changes the entry under one id, to what its request makes of the rule that
was there; every other rule, the resources and the directory stay as they were. The store puts a
rule under the rule's own id, so this rests on edits keeping the id, and on a new rule getting an id
that nothing is stored under. The latter holds as long as there are ids left.

## Key results

- `find_of_isAdmin`: an admin is shown what is stored under an id
- `passes_of_created`, `passes_of_deleted`: a rule that is made or deleted has passed every stage
- `World.EntryChanged.store`, `World.EntryChanged.remove`: a write changes one entry
- `World.Rewritten.store`: storing what a request makes of a rule rewrites that rule and no other
- `mutations_change_one_entry`: what each of the four mutations changes when it is done
-/

namespace AccessScope

/-! ## Answers -/

namespace Response

variable {α : Type} {label : String}

theorem ok_of_ofResult {result : Except Failure α} {a : α}
    (h : ofResult label result = .success a) : result = .ok a := by
  cases result with
  | ok b => cases h; rfl
  | error failure =>
    rw [ofResult, ofFailure] at h
    split at h <;> cases h

theorem ok_of_ofDone {result : Except Failure Unit}
    (h : (ofDone label result : Response α) = .noContent) : result = .ok () := by
  cases result with
  | ok => rfl
  | error failure =>
    rw [ofDone, ofFailure] at h
    split at h <;> cases h

end Response

/-- Who is an admin is shown what is stored under an id. -/
theorem find_of_isAdmin (accessGroup : Option String) {admin : Contact} (h : admin.isAdmin)
    (id : Id) (w : World) :
    (((World.manager accessGroup).find admin id).run w).1 =
      (w.store.find? id).elim (.notFound "Rule") .success := by
  rw [find_of_permits (.inl h)]
  cases hfind : w.store.find? id with
  | none => rfl
  | some r =>
    -- every stored rule reaches an admin
    have hstored := (RuleStore.find?_eq_some_iff.1 hfind).1
    exact if_pos (World.mem_rulesFor.2 ⟨hstored, .inl h⟩)

/-! ## Mutations that are done -/

/-- What a mutation that is done changes: the entry under one id, and the last id given. Everything
    else is as it was, and an admin who asks for the id is shown the new entry. -/
structure World.EntryChanged (accessGroup : Option String) (w v : World) (id : Id)
    (entry : Option Rule) (lastId : Id) : Prop where
  entry_eq : v.store.find? id = entry
  others_eq : ∀ other ≠ id, v.store.find? other = w.store.find? other
  lastId_eq : v.store.lastId = lastId
  resources_eq : v.store.resources = w.store.resources
  directory_eq : v.directory = w.directory
  shown : ∀ admin : Contact, admin.isAdmin →
    (((World.manager accessGroup).find admin id).run v).1 =
      entry.elim (.notFound "Rule") .success

section

variable {w v : World} (accessGroup : Option String)

/-- Storing a rule changes the entry under its id. -/
theorem World.EntryChanged.store {r : Rule} {lastId : Id}
    (hstore : v.store = { w.store.store r with lastId }) (hdirectory : v.directory = w.directory) :
    w.EntryChanged accessGroup v r.id (some r) lastId := by
  have hentry : v.store.find? r.id = some r := by
    rw [hstore]
    exact RuleStore.find?_store.trans (if_pos rfl)
  refine ⟨hentry, fun other hne => ?_, by rw [hstore], by rw [hstore]; rfl, hdirectory, ?_⟩
  · rw [hstore]
    exact RuleStore.find?_store.trans (if_neg hne)
  · intro admin hadmin
    rw [find_of_isAdmin accessGroup hadmin, hentry]

/-- Removing a rule leaves nothing under its id. -/
theorem World.EntryChanged.remove {id : Id} (hstore : v.store = w.store.remove id)
    (hdirectory : v.directory = w.directory) :
    w.EntryChanged accessGroup v id none w.store.lastId := by
  have hentry : v.store.find? id = none := by
    rw [hstore]
    exact RuleStore.find?_remove.trans (if_pos rfl)
  refine ⟨hentry, fun other hne => ?_, by rw [hstore]; rfl, by rw [hstore]; rfl, hdirectory, ?_⟩
  · rw [hstore]
    exact RuleStore.find?_remove.trans (if_neg hne)
  · intro admin hadmin
    rw [find_of_isAdmin accessGroup hadmin, hentry]

/-- What making a rule changes: it is the one that the request asks for, under the id after the last
    one, which nothing had. -/
structure World.Made (w v : World) (request : RuleRequest) (rule : Rule) : Prop where
  content_eq : request.toContent = .ok rule.content
  makes : ∀ before, request.toChangeRequest.Makes before rule.terms
  id_eq : rule.id.toInt = w.store.lastId.toInt + 1
  unused : w.store.find? rule.id = none
  changed : w.EntryChanged accessGroup v rule.id (some rule) rule.id

/-- What replacing or editing a rule changes: the rule under the id, which stays the same, to what
    the request makes of it. -/
structure World.Rewritten (w v : World) (id : Id) (request : ChangeRequest) (current next : Rule) :
    Prop where
  found : w.store.find? id = some current
  id_eq : next.id = id
  makes : request.Makes current.terms next.terms
  changed : w.EntryChanged accessGroup v id (some next) w.store.lastId

/-- Storing what a request makes of a rule rewrites it. -/
theorem World.Rewritten.store {id : Id} {request : ChangeRequest} {current next : Rule}
    (hfound : w.store.find? id = some current) (hid : next.id = current.id)
    (hmakes : request.Makes current.terms next.terms) (hstore : v.store = w.store.store next)
    (hdirectory : v.directory = w.directory) :
    w.Rewritten accessGroup v id request current next := by
  -- the store puts a rule under the rule's own id, and this is the one that was asked for
  obtain rfl : next.id = id := hid.trans (RuleStore.find?_eq_some_iff.1 hfound).2
  exact ⟨hfound, rfl, hmakes, .store accessGroup hstore hdirectory⟩

variable (caller : Contact)

/-- A rule that is made passed every stage, and is stored under the next id. -/
theorem passes_of_created (request : RuleRequest) {rule : Rule} :
    let result := ((World.manager accessGroup).create caller request).run w
    result.1 = .success rule →
      ∃ content, (w.createPlan accessGroup caller request).Passes content ∧
        rule = content.withId w.store.nextId ∧ result.2.store = w.store.added content ∧
          result.2.directory = w.directory := by
  intro result hsuccess
  have hends := ends_tryCreate (w := w) accessGroup caller request
  obtain ⟨content, hpasses, hrule, hafter⟩ := hends.done_of_ok (Response.ok_of_ofResult hsuccess)
  have hstore : result.2.store = w.store.added content := congrArg World.store hafter
  have hdirectory := congrArg World.directory hafter
  exact ⟨content, hpasses, hrule, hstore, hdirectory⟩

/-- A rule that is deleted was there, and is removed. -/
theorem passes_of_deleted (id : Id) :
    let result := ((World.manager accessGroup).delete caller id).run w
    result.1 = .noContent →
      ∃ current, (w.deletePlan accessGroup caller id).Passes current ∧
        result.2.store = w.store.remove id ∧ result.2.directory = w.directory := by
  intro result hdone
  have hends := ends_tryDelete (w := w) accessGroup caller id
  obtain ⟨current, hpasses, _, hafter⟩ := hends.done_of_ok (Response.ok_of_ofDone hdone)
  have hstore : result.2.store = w.store.remove id := congrArg World.store hafter
  have hdirectory := congrArg World.directory hafter
  exact ⟨current, hpasses, hstore, hdirectory⟩

theorem create_done (request : RuleRequest) {rule : Rule} (hids : w.store.IdsInRange)
    (hroom : w.store.lastId < Int64.maxValue) :
    let result := ((World.manager accessGroup).create caller request).run w
    result.1 = .success rule → w.Made accessGroup result.2 request rule := by
  intro result hsuccess
  obtain ⟨content, ⟨_, hcontent, _, _⟩, rfl, hstore, hdirectory⟩ :=
    passes_of_created accessGroup caller request hsuccess
  obtain ⟨_, t, ht, hterms⟩ := RuleRequest.toContent_eq_ok_iff.1 hcontent
  -- every field is set, so what the request makes does not depend on what was there before
  have hmakes := RuleRequest.makes_of_toTerms ht (RuleContent.fields_of_ofTerms hterms).1
  -- the last id can still be counted up, so the next one is new
  have hid := RuleStore.toInt_nextId hids.lastId_nonneg (Int64.lt_iff_toInt_lt.1 hroom)
  exact ⟨hcontent, hmakes, hid, hids.find?_nextId hroom, .store accessGroup hstore hdirectory⟩

theorem update_done (id : Id) (request : RuleRequest) (hnames : w.store.NamesDiffer) :
    let result := ((World.manager accessGroup).update caller id request).run w
    result.1 = .noContent →
      ∃ current t next, request.toTerms = .ok t ∧ current.replace t = .ok next ∧
        w.Rewritten accessGroup result.2 id request.toChangeRequest current next := by
  intro result hdone
  have hends := ends_tryUpdate accessGroup caller id request hnames
  obtain ⟨⟨current, next⟩, ⟨_, hsubject, _, _⟩, _, hafter⟩ :=
    hends.done_of_ok (Response.ok_of_ofDone hdone)
  obtain ⟨hcurrent, hnext⟩ := RuleStore.getWith_eq_ok_iff.1 hsubject
  obtain ⟨_, t, ht, hreplace⟩ := Rule.replaced_eq_ok_iff.1 hnext
  have hmakes := RuleRequest.makes_of_toTerms ht (Rule.fields_of_replace hreplace).1 current.terms
  have hstore : result.2.store = w.store.store next := congrArg World.store hafter
  have hdirectory := congrArg World.directory hafter
  exact ⟨current, t, next, ht, hreplace,
    .store accessGroup hcurrent (Rule.id_of_replaced hnext) hmakes hstore hdirectory⟩

/-- The same for an edit, also if the rule comes out as it went in and is not written. -/
theorem partialUpdate_done (id : Id) (request : ChangeRequest) (hnames : w.store.NamesDiffer) :
    let result := ((World.manager accessGroup).partialUpdate caller id request).run w
    result.1 = .noContent →
      ∃ current changes merged, request.toChanges = .ok changes ∧
        current.merge changes = .ok merged ∧
        w.Rewritten accessGroup result.2 id request current merged := by
  intro result hdone
  have hends := ends_tryPartialUpdate accessGroup caller id request hnames
  obtain ⟨⟨current, merged, changes⟩, ⟨_, hsubject, _, _⟩, _, hafter⟩ :=
    hends.done_of_ok (Response.ok_of_ofDone hdone)
  obtain ⟨hcurrent, hedit⟩ := RuleStore.getWith_eq_ok_iff.1 hsubject
  obtain ⟨_, hchanges, hmerge⟩ := Rule.edited_eq_ok_iff.1 hedit
  have hmakes := ChangeRequest.makes_of_merge hchanges hmerge
  have hstore : result.2.store = w.store.store merged := congrArg World.store hafter
  have hdirectory := congrArg World.directory hafter
  exact ⟨current, changes, merged, hchanges, hmerge,
    .store accessGroup hcurrent (Rule.id_of_edited hedit) hmakes hstore hdirectory⟩

theorem delete_done (id : Id) :
    let result := ((World.manager accessGroup).delete caller id).run w
    result.1 = .noContent →
      (∃ current, w.store.find? id = some current) ∧
        w.EntryChanged accessGroup result.2 id none w.store.lastId := by
  intro result hdone
  obtain ⟨current, ⟨_, hsubject, _, _⟩, hstore, hdirectory⟩ :=
    passes_of_deleted accessGroup caller id hdone
  exact ⟨⟨current, RuleStore.get_eq_ok_iff.1 hsubject⟩, .remove accessGroup hstore hdirectory⟩

/-- What the mutations change when they are done, in every world that is reached before the ids are
    used up and for every caller: the entry under one id and nothing else. A new rule has the id
    after the last one and holds what the request says; a rule that is replaced or edited is what
    its request makes of the rule before, under the same id; a rule that is deleted is gone. -/
theorem mutations_change_one_entry (h : w.ReachableInRange accessGroup)
    (hroom : w.store.lastId < Int64.maxValue) :
    (∀ request rule,
      let result := ((World.manager accessGroup).create caller request).run w
      result.1 = .success rule → w.Made accessGroup result.2 request rule) ∧
    (∀ id request,
      let result := ((World.manager accessGroup).update caller id request).run w
      result.1 = .noContent →
        ∃ current t next, request.toTerms = .ok t ∧ current.replace t = .ok next ∧
          w.Rewritten accessGroup result.2 id request.toChangeRequest current next) ∧
    (∀ id request,
      let result := ((World.manager accessGroup).partialUpdate caller id request).run w
      result.1 = .noContent →
        ∃ current changes merged, request.toChanges = .ok changes ∧
          current.merge changes = .ok merged ∧
          w.Rewritten accessGroup result.2 id request current merged) ∧
    ∀ id,
      let result := ((World.manager accessGroup).delete caller id).run w
      result.1 = .noContent →
        (∃ current, w.store.find? id = some current) ∧
          w.EntryChanged accessGroup result.2 id none w.store.lastId := by
  obtain ⟨hnames, hids⟩ := h.invariants
  exact ⟨fun request rule => create_done accessGroup caller request hids hroom,
    fun id request => update_done accessGroup caller id request hnames,
    fun id request => partialUpdate_done accessGroup caller id request hnames,
    fun id => delete_done accessGroup caller id⟩

end

/-- A second rule gets the next id, and the first one can be renamed without touching anything
    else. -/
theorem mutations_change_one_entry_second_rule :
    let made := ((World.manager none).create root (hostRequest " Dev " 8)).run opsWorld
    let rename := { noEdit with name := some "\tOps  2 " }
    let renamed := ((World.manager none).partialUpdate root 1 rename).run opsWorld
    opsWorld.ReachableInRange none ∧ opsWorld.store.lastId < Int64.maxValue ∧
      (∃ rule, made.1 = .success rule ∧ rule.id.toInt = 2 ∧ rule.name = "Dev" ∧
        opsWorld.EntryChanged none made.2 rule.id (some rule) rule.id) ∧
      renamed.1 = .noContent ∧
        ∃ merged, merged.name = "Ops  2" ∧
          opsWorld.EntryChanged none renamed.2 1 (some merged) 1 := by
  intro made rename renamed
  have hstart : smallWorld.ReachableInRange none := .start ⟨rfl, rfl⟩
  have hreachable : opsWorld.ReachableInRange none :=
    hstart.event (by decide) (.call root (.create (hostRequest "Ops" 7)))
  have hroom : opsWorld.store.lastId < Int64.maxValue := by decide +kernel
  have hlast : opsWorld.store.lastId = 1 := by decide +kernel
  obtain ⟨rule, hmade⟩ : ∃ rule, made.1 = .success rule := ⟨_, rfl⟩
  have hrenamed : renamed.1 = .noContent := by decide +kernel
  obtain ⟨hcreate, _, hpartial, _⟩ := mutations_change_one_entry none root hreachable hroom
  have hcreated := hcreate (hostRequest " Dev " 8) rule hmade
  obtain ⟨_, _, merged, _, _, hrewritten⟩ := hpartial 1 rename hrenamed
  have hid := hcreated.id_eq
  have hchanged := hrewritten.changed
  rw [hlast] at hid hchanged
  have hname : rule.name = RuleName.trimmed " Dev " := (hcreated.makes rule.terms).name
  have hrename : merged.name = RuleName.trimmed "\tOps  2 " := hrewritten.makes.name
  exact ⟨hreachable, hroom, ⟨rule, hmade, hid, hname.trans (by decide), hcreated.changed⟩, hrenamed,
    merged, hrename.trans (by decide), hchanged⟩

end AccessScope
