import AccessScope.Proofs.Mutations
import AccessScope.Proofs.Reach

/-!
# Runs of the operations

Callers ask for operations one after the other, and in between contacts are added to contact groups.
`World.Change` lists everything that any of this can make of the stored rules; it is all that an
invariant of the rules has to be shown for. Apart from the rules and the last id, only memberships
and counters ever change.

## Key results

- `World.Evolves.event`: an event changes the stored rules in one of the listed ways
- `World.Evolves.sameReferents`: nothing that rules can refer to comes or goes
- `World.after_induction`: what every event keeps holds after every run
- `World.Reachable.namesDiffer`: in every world that can be reached, the names of the rules differ
- `World.ReachableInRange.invariants`: as long as there are ids left, these are in range as well
-/

namespace AccessScope

/-! ## Steps that only read -/

/-- A step that leaves the rules and the directory alone, and does not fail for internal reasons. It
    may count. -/
structure Reads {α : Type} (step : Action World α) : Prop where
  store_eq (w : World) : (step.run.run w).2.store = w.store
  directory_eq (w : World) : (step.run.run w).2.directory = w.directory
  kind_ne (w : World) (failure : Failure) (h : (step.run.run w).1 = .error failure) :
    failure.kind ≠ .internal

namespace Reads

variable {α β : Type}

protected theorem pure (a : α) : Reads (pure a) :=
  ⟨fun _ => rfl, fun _ => rfl, nofun⟩

protected theorem throw {failure : Failure} (h : failure.kind ≠ .internal) :
    Reads (throw failure : Action World α) := by
  refine ⟨fun _ => rfl, fun _ => rfl, fun _ _ heq => ?_⟩
  cases heq
  exact h

theorem bind {a : Action World α} {b : α → Action World β} (ha : Reads a)
    (hb : ∀ x, Reads (b x)) : Reads (a >>= b) := by
  have hrun (w : World) := run_bind_cases a b w
  refine ⟨fun w => ?_, fun w => ?_, fun w failure h => ?_⟩
  · -- a sequence stops at a failure of its first step, or ends as its second step does
    obtain ⟨f, _, heq⟩ | ⟨x, heq⟩ := hrun w
    · rw [heq, ha.store_eq]
    · rw [heq, (hb x).store_eq, ha.store_eq]
  · obtain ⟨f, _, heq⟩ | ⟨x, heq⟩ := hrun w
    · rw [heq, ha.directory_eq]
    · rw [heq, (hb x).directory_eq, ha.directory_eq]
  · obtain ⟨f, hf, heq⟩ | ⟨x, heq⟩ := hrun w
    · rw [heq] at h
      cases h
      exact ha.kind_ne w _ hf
    · rw [heq] at h
      exact (hb x).kind_ne _ failure h

/-- A step that only reads, by what its runs give. -/
theorem of_run {step : Action World α} (result : World → Except Failure α)
    (hrun : ∀ w, step.run.run w = (result w, w))
    (hkind : ∀ w failure, result w = .error failure → failure.kind ≠ .internal) : Reads step := by
  refine ⟨fun w => by rw [hrun], fun w => by rw [hrun], fun w failure h => ?_⟩
  rw [hrun] at h
  exact hkind w failure h

end Reads

section

variable (accessGroup : Option String) (caller : Contact)

theorem reads_authorize (action : RuleAction) :
    Reads ((World.manager accessGroup).authorize caller action) := by
  refine .of_run _ (run_authorize accessGroup caller action) fun w failure h => ?_
  by_cases hp : w.directory.Permits accessGroup caller action
  · simp [hp] at h
  · simp [hp] at h
    simp [← h, Failure.kind]

theorem reads_load (id : Id) : Reads ((World.manager accessGroup).load id) := by
  refine .of_run _ (run_load accessGroup id) fun w failure h => ?_
  obtain ⟨_, rfl⟩ := RuleStore.get_eq_error_iff.1 h
  simp [Failure.kind]

theorem reads_effectiveRules : Reads (World.collaborators.effectiveRules caller) := by
  have hrun (w : World) := run_effectiveRules w caller
  refine ⟨fun w => by rw [hrun], fun w => by rw [hrun], fun w failure h => ?_⟩
  rw [hrun] at h
  cases h

theorem reads_tryFind (id : Id) : Reads ((World.manager accessGroup).tryFind caller id) := by
  refine .bind (reads_authorize ..) fun _ => .bind (reads_load ..) fun rule => ?_
  have hreaches : Reads (World.collaborators.reaches caller id) := by
    unfold Collaborators.reaches
    split
    · exact .pure _
    · exact .bind (reads_effectiveRules caller) fun _ => .pure _
  refine .bind hreaches fun reached => ?_
  cases reached with
  | true => exact .pure _
  | false => exact .bind (.throw (by simp [Failure.kind])) fun _ => .pure _

theorem reads_tryList : Reads ((World.manager accessGroup).tryList caller) :=
  .bind (reads_authorize ..) fun _ => reads_effectiveRules caller

end

/-! ## Use cases and events -/

/-- What a caller can ask for. -/
inductive UseCase where
  | create (request : RuleRequest)
  | find (id : Id)
  | list
  | update (id : Id) (request : RuleRequest)
  | partialUpdate (id : Id) (request : ChangeRequest)
  | delete (id : Id)
  | findEffective

/-- Runs a use case and gives the status of the response. -/
def UseCase.perform (m : Manager World) (caller : Contact) : UseCase → StateM World String
  | create request => Response.status <$> m.create caller request
  | find id => Response.status <$> m.find caller id
  | list => Response.status <$> m.list caller
  | update id request => Response.status <$> m.update caller id request
  | partialUpdate id request => Response.status <$> m.partialUpdate caller id request
  | delete id => Response.status <$> m.delete caller id
  | findEffective => Response.status <$> m.findEffective caller

/-- What happens to a world: someone calls, or a contact is added to a contact group. -/
inductive Event where
  | call (caller : Contact) (useCase : UseCase)
  | join (contact group : Id)

/-- The world after an event. -/
def Event.after (accessGroup : Option String) (w : World) : Event → World
  | call caller useCase => ((useCase.perform (World.manager accessGroup) caller).run w).2
  | join contact group => { w with directory := w.directory.addMembership contact group }

/-- The world after some events. -/
def World.after (accessGroup : Option String) (w : World) (events : List Event) : World :=
  events.foldl (Event.after accessGroup) w

/-- The worlds that can be reached from one without rules. -/
def World.Reachable (accessGroup : Option String) (w : World) : Prop :=
  ∃ (start : World) (events : List Event), start.store.Fresh ∧ start.after accessGroup events = w

/-! ## What an event can change -/

/-- What events can make of the stored rules: only what passed every check is stored. -/
inductive World.Change (w : World) : RuleStore → Prop where
  | kept : Change w w.store
  | created {request : RuleRequest} {content : RuleContent} (h : request.toContent = .ok content)
    (hfree : ∀ r ∈ w.store.rules, r.formattedName ≠ content.formattedName)
    (hknown : w.Knows content.terms) : Change w (w.store.added content)
  | replaced {request : RuleRequest} {current next : Rule}
    (hcurrent : w.store.find? next.id = some current) (h : current.replaced request = .ok next)
    (hfree : ∀ r ∈ w.store.rules, r.id ≠ next.id → r.formattedName ≠ next.formattedName)
    (hknown : w.Knows next.terms) : Change w (w.store.store next)
  | edited {request : ChangeRequest} {current merged : Rule} {changes : RuleChanges}
    (hcurrent : w.store.find? merged.id = some current)
    (h : current.edited request = .ok (merged, changes))
    (hfree : ∀ r ∈ w.store.rules, r.id ≠ merged.id → r.formattedName ≠ merged.formattedName)
    (hknown : w.KnowsChanges changes) : Change w (w.store.store merged)
  | deleted {id : Id} {current : Rule} (hcurrent : w.store.find? id = some current) :
    Change w (w.store.remove id)

/-- A change is an accepted write, or none at all. -/
theorem World.Change.write {w : World} {s : RuleStore} (h : w.Change s) :
    s = w.store ∨ ∃ given, w.store.Write s given := by
  cases h with
  | kept => exact .inl rfl
  | created _ hfree _ => exact .inr ⟨_, .add (RuleStore.add_of_free hfree)⟩
  | replaced hcurrent _ hfree _ =>
    exact .inr ⟨_, .update (RuleStore.update_of_free hcurrent hfree)⟩
  | edited hcurrent _ hfree _ =>
    -- also when the operation does not write, since then the rule is stored as it is
    exact .inr ⟨_, .update (RuleStore.update_of_free hcurrent hfree)⟩
  | deleted hcurrent =>
    exact .inr ⟨_, .delete (RuleStore.delete_eq_ok_iff.2 ⟨by simp [hcurrent], rfl⟩)⟩

/-- What an event can make of a world: a change of the rules, in which the contacts and contact
    groups stay the same. -/
structure World.Evolves (w v : World) : Prop where
  change : w.Change v.store
  contacts_eq : v.directory.contacts = w.directory.contacts
  contactGroups_eq : v.directory.contactGroups = w.directory.contactGroups

/-- Two worlds in which rules can refer to the same contacts, contact groups and resources. -/
structure World.SameReferents (w v : World) : Prop where
  contacts_eq : v.directory.contacts = w.directory.contacts
  contactGroups_eq : v.directory.contactGroups = w.directory.contactGroups
  resources_eq : v.store.resources = w.store.resources

theorem World.SameReferents.refl (w : World) : w.SameReferents w :=
  ⟨rfl, rfl, rfl⟩

theorem World.SameReferents.trans {u v w : World} (huv : u.SameReferents v)
    (hvw : v.SameReferents w) : u.SameReferents w :=
  ⟨hvw.contacts_eq.trans huv.contacts_eq, hvw.contactGroups_eq.trans huv.contactGroups_eq,
    hvw.resources_eq.trans huv.resources_eq⟩

/-- What is registered in one of two such worlds is registered in the other. -/
theorem World.SameReferents.knows {w v : World} (h : w.SameReferents v) {t : RuleTerms}
    (ht : w.Knows t) : v.Knows t := by
  refine ⟨?_, ?_, ?_⟩
  · rw [Directory.HasContacts, h.contacts_eq]
    exact ht.contacts
  · rw [Directory.HasContactGroups, h.contactGroups_eq]
    exact ht.contactGroups
  · rw [RuleStore.HasResources, h.resources_eq]
    exact ht.resources

theorem World.SameReferents.knowsChanges {w v : World} (h : w.SameReferents v) {c : RuleChanges}
    (hc : w.KnowsChanges c) : v.KnowsChanges c := by
  refine ⟨fun ids hids => ?_, fun ids hids => ?_, fun filters hfilters => ?_⟩
  · rw [Directory.HasContacts, h.contacts_eq]
    exact hc.contacts ids hids
  · rw [Directory.HasContactGroups, h.contactGroups_eq]
    exact hc.contactGroups ids hids
  · rw [RuleStore.HasResources, h.resources_eq]
    exact hc.resources filters hfilters

/-- Rules can refer to the same things after one of them was stored. -/
theorem World.SameReferents.of_store {w v : World} {r : Rule} (hstore : v.store = w.store.store r)
    (hdirectory : v.directory = w.directory) : w.SameReferents v :=
  ⟨by rw [hdirectory], by rw [hdirectory], by rw [hstore]; rfl⟩

namespace World.Evolves

variable {w : World}

theorem of_reads {α : Type} {step : Action World α} (h : Reads step) :
    w.Evolves (step.run.run w).2 := by
  refine ⟨?_, by rw [h.directory_eq], by rw [h.directory_eq]⟩
  rw [h.store_eq]
  exact .kept

/-- A mutation changes what its plan says, or nothing. -/
theorem of_ends {α β : Type} {p : MutationPlan α β} {outcome : Except Failure β × World}
    (h : p.Ends w outcome)
    (heffect : ∀ a, p.subject = .ok a → p.nameFree a → p.known a → w.Change (p.effect a).2) :
    w.Evolves outcome.2 := by
  obtain ⟨_, rfl⟩ | ⟨a, ⟨_, hs, hf, hk⟩, rfl⟩ := h.failed_or_done
  · exact ⟨.kept, rfl, rfl⟩
  · exact ⟨heffect a hs hf hk, rfl, rfl⟩

variable (accessGroup : Option String) (caller : Contact)

theorem tryCreate (request : RuleRequest) :
    w.Evolves (((World.manager accessGroup).tryCreate caller request).run.run w).2 :=
  of_ends (ends_tryCreate accessGroup caller request) fun _ h hfree hknown =>
    .created h hfree hknown

theorem tryUpdate (id : Id) (request : RuleRequest) (hnames : w.store.NamesDiffer) :
    w.Evolves (((World.manager accessGroup).tryUpdate caller id request).run.run w).2 := by
  refine of_ends (ends_tryUpdate accessGroup caller id request hnames)
    fun (current, next) h hfree hknown => ?_
  obtain ⟨hfind, hnext⟩ := RuleStore.getWith_eq_ok_iff.1 h
  have hid : next.id = id :=
    (Rule.id_of_replaced hnext).trans (RuleStore.find?_eq_some_iff.1 hfind).2
  subst hid
  exact .replaced hfind hnext hfree hknown

theorem tryPartialUpdate (id : Id) (request : ChangeRequest) (hnames : w.store.NamesDiffer) :
    w.Evolves (((World.manager accessGroup).tryPartialUpdate caller id request).run.run w).2 := by
  refine of_ends (ends_tryPartialUpdate accessGroup caller id request hnames)
    fun (current, merged, changes) h hfree hknown => ?_
  obtain ⟨hfind, hedit⟩ := RuleStore.getWith_eq_ok_iff.1 h
  -- changes are listed by the rule that is stored, and its id is the one that was asked for
  obtain rfl : merged.id = id := RuleStore.id_of_getWith_edited h
  exact .edited hfind hedit hfree hknown

theorem tryDelete (id : Id) :
    w.Evolves (((World.manager accessGroup).tryDelete caller id).run.run w).2 :=
  of_ends (ends_tryDelete accessGroup caller id) fun _ h _ _ =>
    .deleted (RuleStore.get_eq_ok_iff.1 h)

theorem counting {v : World} (h : w.Evolves v) (counters : Counters) :
    w.Evolves { v with counters } :=
  ⟨h.change, h.contacts_eq, h.contactGroups_eq⟩

theorem perform (useCase : UseCase) (hnames : w.store.NamesDiffer) :
    w.Evolves ((useCase.perform (World.manager accessGroup) caller).run w).2 := by
  cases useCase with
  | create request => exact (tryCreate accessGroup caller request).counting _
  | find id => exact (of_reads (reads_tryFind accessGroup caller id)).counting _
  | list => exact (of_reads (reads_tryList accessGroup caller)).counting _
  | update id request => exact (tryUpdate accessGroup caller id request hnames).counting _
  | partialUpdate id request =>
    exact (tryPartialUpdate accessGroup caller id request hnames).counting _
  | delete id => exact (tryDelete accessGroup caller id).counting _
  | findEffective => exact (of_reads (reads_effectiveRules caller)).counting _

/-- Every event evolves a world in which the names of the rules differ. -/
theorem event (e : Event) (hnames : w.store.NamesDiffer) : w.Evolves (e.after accessGroup w) := by
  cases e with
  | call caller useCase => exact perform accessGroup caller useCase hnames
  | join contact group =>
    -- to join a group changes the memberships alone, whether the contact is in it or not
    refine ⟨.kept, ?_, ?_⟩
    · simp only [Event.after, Directory.addMembership]
      split <;> rfl
    · simp only [Event.after, Directory.addMembership]
      split <;> rfl

variable {v : World}

theorem namesDiffer (h : w.Evolves v) (hnames : w.store.NamesDiffer) : v.store.NamesDiffer := by
  obtain heq | ⟨_, hwrite⟩ := h.change.write
  · exact heq ▸ hnames
  · exact hnames.write hwrite

/-- Nothing that rules can refer to comes or goes. -/
theorem sameReferents (h : w.Evolves v) : w.SameReferents v := by
  refine ⟨h.contacts_eq, h.contactGroups_eq, ?_⟩
  obtain heq | ⟨_, hwrite⟩ := h.change.write
  · rw [heq]
  · exact hwrite.resources_eq

end World.Evolves

/-! ## Runs -/

namespace World

variable {accessGroup : Option String} {w : World}

/-- What holds without rules, and is kept as long as names differ, holds after every run. -/
theorem after_induction {P : World → Prop} {start : World} (hfresh : start.store.Fresh)
    (hstart : P start) (hstep : ∀ w v, w.store.NamesDiffer → w.Evolves v → P w → P v)
    (events : List Event) :
    (start.after accessGroup events).store.NamesDiffer ∧ P (start.after accessGroup events) := by
  -- the operations do as planned only where names differ, so that is carried along
  have hrun (w : World) (hnames : w.store.NamesDiffer) (hw : P w) :
      (w.after accessGroup events).store.NamesDiffer ∧ P (w.after accessGroup events) := by
    induction events generalizing w with
    | nil => exact ⟨hnames, hw⟩
    | cons e events ih =>
      have hevent := Evolves.event accessGroup e hnames
      exact ih _ (hevent.namesDiffer hnames) (hstep w _ hnames hevent hw)
  exact hrun start hfresh.namesDiffer hstart

/-- In every world that can be reached, no two rules have the same name. -/
theorem Reachable.namesDiffer (h : w.Reachable accessGroup) : w.store.NamesDiffer := by
  -- names are what every run carries along, so nothing has to be added to them
  obtain ⟨start, events, hfresh, rfl⟩ := h
  exact (after_induction (P := fun _ => True) hfresh trivial (fun _ _ _ _ _ => trivial) events).1

end World

/-! ## Worlds with ids left -/

/-- The worlds that are reached, from one without rules, before the ids are used up. -/
inductive World.ReachableInRange (accessGroup : Option String) : World → Prop where
  | start {w : World} (h : w.store.Fresh) : ReachableInRange accessGroup w
  | event {w : World} (h : ReachableInRange accessGroup w)
    (hroom : w.store.lastId < Int64.maxValue) (e : Event) :
    ReachableInRange accessGroup (e.after accessGroup w)

/-- In these worlds names differ, and the ids lie between one and the last one given. -/
theorem World.ReachableInRange.invariants {accessGroup : Option String} {w : World}
    (h : w.ReachableInRange accessGroup) : w.store.NamesDiffer ∧ w.store.IdsInRange := by
  induction h with
  | start hfresh => exact ⟨hfresh.namesDiffer, hfresh.idsInRange⟩
  | @event w _ hroom e ih =>
    obtain ⟨hnames, hids⟩ := ih
    have hevolves := World.Evolves.event accessGroup e hnames
    refine ⟨hevolves.namesDiffer hnames, ?_⟩
    obtain heq | ⟨_, hwrite⟩ := hevolves.change.write
    · exact heq ▸ hids
    · exact (hids.write (Int64.lt_iff_toInt_lt.1 hroom) hwrite).1

/-! ## A small world

One contact, who is an admin, and two hosts, for runs that can be followed by hand. -/

/-- An admin. -/
def root : Contact := ⟨1, "root", true, []⟩

/-- A world without rules, in which rules can refer to the admin and two hosts. -/
def smallWorld : World where
  store := RuleStore.empty.withResources .host [7, 8]
  directory := Directory.empty.withContact root
  counters := .empty

/-- A request for a rule that lets the admin see a host. -/
def hostRequest (name : String) (host : Id) : RuleRequest :=
  ⟨name, "", true, [root.id], [], [.leaf .host [host]]⟩

/-- The edit that sets nothing. -/
def noEdit : ChangeRequest := ⟨none, none, none, none, none, none⟩

/-- The small world after a rule for one host was made. -/
def opsWorld : World :=
  smallWorld.after none [.call root (.create (hostRequest "Ops" 7))]

/-- The small world after a rule was made for each of the two hosts. -/
def pairWorld : World :=
  smallWorld.after none
    [.call root (.create (hostRequest "Ops" 7)), .call root (.create (hostRequest "Dev" 8))]

theorem reachable_pairWorld : pairWorld.Reachable none :=
  ⟨smallWorld, _, ⟨rfl, rfl⟩, rfl⟩

end AccessScope
