import AccessScope.Proofs.Views

/-!
# Joining contact groups

A contact that joins a contact group is reached by the rules of that group from then on, and loses
nothing by it. That is so although the answers are put together differently before and after: a
contact in no group is not looked up by groups at all, groups that are not registered are passed
over, a rule may have reached the contact before, and filters are granted in an order that shifts
with the rules. Everything follows from what a list of memberships adds to the rules that are found.

## Key results

- `Directory.hasMember_joining_iff`: which groups a contact is in after some memberships were added
- `World.mem_rulesFor_joining`: what that adds to the rules that are found for a contact
- `mem_grantedFilters`: the filters that rules grant
- `joining_widens_access`: rules, filters and single rules before and after, and in any order
-/

namespace AccessScope

/-! ## Added memberships -/

/-- The directory after contacts were added to contact groups, one after the other. -/
def Directory.joining (d : Directory) (joins : List (Id × Id)) : Directory :=
  joins.foldl (fun d (contact, group) => d.addMembership contact group) d

/-- The world after contacts were added to contact groups, one after the other. -/
def World.joining (w : World) (joins : List (Id × Id)) : World :=
  { w with directory := w.directory.joining joins }

namespace Directory

variable {d : Directory} {joins others : List (Id × Id)}

/-- The memberships afterwards are those before and those that were added. -/
theorem mem_joining {p : Id × Id} :
    p ∈ (d.joining joins).memberships ↔ p ∈ d.memberships ∨ p ∈ joins := by
  induction joins generalizing d with
  | nil => simp [joining]
  | cons join joins ih =>
    obtain ⟨contact, group⟩ := join
    -- the first one is added to the directory that the others find
    show p ∈ ((d.addMembership contact group).joining joins).memberships ↔ _
    rw [ih, mem_addMembership, List.mem_cons, or_assoc]

/-- Contact groups and access groups stay as they are. -/
theorem groups_joining :
    (d.joining joins).contactGroups = d.contactGroups ∧
      (d.joining joins).accessGroups = d.accessGroups := by
  induction joins generalizing d with
  | nil => exact ⟨rfl, rfl⟩
  | cons join joins ih =>
    obtain ⟨contact, group⟩ := join
    have hadded : (d.addMembership contact group).contactGroups = d.contactGroups ∧
        (d.addMembership contact group).accessGroups = d.accessGroups := by
      unfold addMembership
      split <;> exact ⟨rfl, rfl⟩
    obtain ⟨hcontactGroups, haccessGroups⟩ := ih (d := d.addMembership contact group)
    exact ⟨hcontactGroups.trans hadded.1, haccessGroups.trans hadded.2⟩

/-- A contact is in the groups that it was in before, and in the registered ones that it joined. -/
theorem hasMember_joining_iff {contact group : Id} :
    (d.joining joins).HasMember group contact ↔ d.HasMember group contact ∨
      (contact, group) ∈ joins ∧ ∃ g ∈ d.contactGroups, g.id = group := by
  rw [HasMember, HasMember, mem_joining, groups_joining.1, or_and_right]

/-- The groups of a contact are the same whichever way the same memberships are added. -/
theorem groupIds_joining_congr (h : ∀ p, p ∈ joins ↔ p ∈ others) (contact : Id) :
    (d.joining joins).groupIds contact = (d.joining others).groupIds contact := by
  refine IdSet.ext fun group => ?_
  rw [mem_groupIds, mem_groupIds, mem_joining, mem_joining, h]

end Directory

/-! ## Rules and filters afterwards -/

namespace World

variable {w : World} {joins others : List (Id × Id)} {contact : Contact}

/-- The rules that are found for a contact afterwards are those before, and those for a registered
    group that the contact joined. -/
theorem mem_rulesFor_joining {r : Rule} :
    r ∈ (w.joining joins).rulesFor contact ↔ r ∈ w.rulesFor contact ∨ r ∈ w.store.rules ∧
      ∃ group ∈ r.contactGroups, (contact.id, group) ∈ joins ∧
        ∃ g ∈ w.directory.contactGroups, g.id = group := by
  have hstore : (w.joining joins).store = w.store := rfl
  have hdirectory : (w.joining joins).directory = w.directory.joining joins := rfl
  -- a rule reaches a contact in three ways, and only the way through a group can be new
  simp only [mem_rulesFor, Rule.Reaches, hstore, hdirectory, Directory.hasMember_joining_iff]
  constructor
  · rintro ⟨hr, hadmin | hdirect | ⟨group, hgroup, hbefore | hjoined⟩⟩
    · exact .inl ⟨hr, .inl hadmin⟩
    · exact .inl ⟨hr, .inr (.inl hdirect)⟩
    · exact .inl ⟨hr, .inr (.inr ⟨group, hgroup, hbefore⟩)⟩
    · exact .inr ⟨hr, group, hgroup, hjoined⟩
  · rintro (⟨hr, hadmin | hdirect | ⟨group, hgroup, hbefore⟩⟩ | ⟨hr, group, hgroup, hjoined⟩)
    · exact ⟨hr, .inl hadmin⟩
    · exact ⟨hr, .inr (.inl hdirect)⟩
    · exact ⟨hr, .inr (.inr ⟨group, hgroup, .inl hbefore⟩)⟩
    · exact ⟨hr, .inr (.inr ⟨group, hgroup, .inr hjoined⟩)⟩

/-- No one loses a rule. -/
theorem mem_rulesFor_joining_of_mem {r : Rule} (h : r ∈ w.rulesFor contact) :
    r ∈ (w.joining joins).rulesFor contact :=
  mem_rulesFor_joining.2 (.inl h)

/-- Who joins one registered group is found the stored rules for it besides those before. -/
theorem mem_rulesFor_joining_one {group : Id} {r : Rule}
    (hregistered : ∃ g ∈ w.directory.contactGroups, g.id = group) :
    r ∈ (w.joining [(contact.id, group)]).rulesFor contact ↔
      r ∈ w.rulesFor contact ∨ r ∈ w.store.rules ∧ group ∈ r.contactGroups := by
  rw [mem_rulesFor_joining]
  refine or_congr_right (and_congr_right fun _ => ?_)
  constructor
  · intro ⟨other, hbound, hjoin, _⟩
    obtain rfl : other = group := by simpa using hjoin
    exact hbound
  · intro hbound
    exact ⟨group, hbound, List.mem_singleton_self _, hregistered⟩

/-- Who may manage rules does not depend on contact groups. -/
theorem permits_joining_iff {accessGroup : Option String} {caller : Contact} {action : RuleAction} :
    (w.joining joins).directory.Permits accessGroup caller action ↔
      w.directory.Permits accessGroup caller action := by
  have hgroups : (w.joining joins).directory.accessGroups = w.directory.accessGroups :=
    Directory.groups_joining.2
  rw [Directory.Permits, Directory.Permits, Directory.accessGroupsOf, Directory.accessGroupsOf,
    hgroups]

/-- The rules that are found for a contact are determined by which they are. -/
theorem rulesFor_ext {v : World} (h : ∀ r, r ∈ v.rulesFor contact ↔ r ∈ w.rulesFor contact) :
    v.rulesFor contact = w.rulesFor contact :=
  ascending_rulesFor.ext ascending_rulesFor h

theorem rulesFor_joining_congr (h : ∀ p, p ∈ joins ↔ p ∈ others) (contact : Contact) :
    (w.joining joins).rulesFor contact = (w.joining others).rulesFor contact := by
  refine rulesFor_ext fun r => ?_
  simp only [mem_rulesFor_joining, h]

/-- Nothing is added for a contact whom every rule reaches already, or that joins no registered
    group. -/
theorem rulesFor_joining_of_none (h : contact.isAdmin ∨ ∀ group, (contact.id, group) ∈ joins →
    ¬ ∃ g ∈ w.directory.contactGroups, g.id = group) :
    (w.joining joins).rulesFor contact = w.rulesFor contact := by
  refine rulesFor_ext fun r => ?_
  rw [mem_rulesFor_joining]
  -- a rule that came in through a joined group reached an admin before, and there is no such group
  -- otherwise
  refine ⟨fun hr => hr.elim id fun ⟨hstored, group, _, hjoin, hregistered⟩ => ?_, .inl⟩
  obtain hadmin | hnone := h
  · exact mem_rulesFor.2 ⟨hstored, .inl hadmin⟩
  · exact absurd hregistered (hnone group hjoin)

end World

/-- A filter is granted if a rule in force has it. -/
theorem mem_grantedFilters {rules : List Rule} {f : Filter} :
    f ∈ grantedFilters rules ↔ ∃ r ∈ rules, r.isEnabled ∧ f ∈ r.filters := by
  simp [grantedFilters, and_assoc]

/-- More rules grant more filters, though other ones may stand in front now. -/
theorem grantedFilters_mono {rules more : List Rule} (h : ∀ r ∈ rules, r ∈ more) {f : Filter}
    (hf : f ∈ grantedFilters rules) : f ∈ grantedFilters more := by
  obtain ⟨r, hr, hgranted⟩ := mem_grantedFilters.1 hf
  exact mem_grantedFilters.2 ⟨r, h r hr, hgranted⟩

/-! ## Answers before and after -/

/-- The effective rules that a world gives for a contact. -/
def World.effectiveRules (w : World) (contact : Contact) : Except Failure (List Rule) :=
  ((World.collaborators.effectiveRules contact).run.run w).1

/-- The filters that a world grants to a contact. -/
def World.effectiveFilters (w : World) (contact : Contact) : Except Failure (List Filter) :=
  ((World.collaborators.effectiveFilters contact).run.run w).1

/-- What a world shows a caller under an id. -/
def World.shown (w : World) (accessGroup : Option String) (caller : Contact) (id : Id) :
    Response Rule :=
  (((World.manager accessGroup).find caller id).run w).1

namespace World

variable {w v : World} {accessGroup : Option String} {caller : Contact}

theorem effectiveRules_eq (w : World) (contact : Contact) :
    w.effectiveRules contact = .ok (w.rulesFor contact) := by
  rw [effectiveRules, run_effectiveRules]

theorem effectiveFilters_eq (w : World) (contact : Contact) :
    w.effectiveFilters contact = .ok (grantedFilters (w.rulesFor contact)) := by
  rw [effectiveFilters, Collaborators.effectiveFilters, run_bind_ok (run_effectiveRules w contact)]
  rfl

theorem shown_eq_success_iff {id : Id} {r : Rule} : w.shown accessGroup caller id = .success r ↔
    w.directory.Permits accessGroup caller .view ∧ r ∈ w.rulesFor caller ∧ r.id = id :=
  find_eq_success_iff

/-- What is shown under an id depends on the stored rules, on what the caller may do, and on the
    rules that are found for it. -/
theorem shown_congr (hstore : v.store = w.store)
    (hpermits : v.directory.Permits accessGroup caller .view ↔
      w.directory.Permits accessGroup caller .view)
    (hrules : v.rulesFor caller = w.rulesFor caller) (id : Id) :
    v.shown accessGroup caller id = w.shown accessGroup caller id := by
  unfold shown
  by_cases hallowed : w.directory.Permits accessGroup caller .view
  · rw [find_of_permits hallowed, find_of_permits (hpermits.2 hallowed), hstore, hrules]
  · rw [(views_of_not_permits hallowed id).1, (views_of_not_permits (mt hpermits.1 hallowed) id).1]

/-- What is shown before is shown afterwards. -/
theorem shown_joining {joins : List (Id × Id)} {id : Id} {r : Rule}
    (h : w.shown accessGroup caller id = .success r) :
    (w.joining joins).shown accessGroup caller id = .success r := by
  obtain ⟨hallowed, hfound, hid⟩ := shown_eq_success_iff.1 h
  exact shown_eq_success_iff.2
    ⟨permits_joining_iff.2 hallowed, mem_rulesFor_joining_of_mem hfound, hid⟩

theorem shown_joining_congr {joins others : List (Id × Id)} (h : ∀ p, p ∈ joins ↔ p ∈ others)
    (id : Id) :
    (w.joining joins).shown accessGroup caller id =
      (w.joining others).shown accessGroup caller id := by
  apply shown_congr
  · rfl
  · rw [permits_joining_iff, permits_joining_iff]
  · exact rulesFor_joining_congr h caller

end World

/-- Joining a contact group widens access by exactly the rules for the group, in every world and for
    every contact. A contact that is no admin is reached by the rules that reached it before and, if
    the group is registered, by the stored rules for the group; for an admin, or if the group is not
    registered, nothing changes, and nothing does for contacts with other ids. No one loses a filter
    or a rule that was shown before. And whatever memberships are added, only which ones they are
    matters, not their order or how often each is added. -/
theorem joining_widens_access (w : World) (contact : Contact) (group : Id) :
    let joined := w.joining [(contact.id, group)]
    let registered := ∃ g ∈ w.directory.contactGroups, g.id = group
    (∃ before after, w.effectiveRules contact = .ok before ∧
      joined.effectiveRules contact = .ok after ∧
      (¬ contact.isAdmin → registered →
        ∀ r, r ∈ after ↔ r ∈ before ∨ r ∈ w.store.rules ∧ group ∈ r.contactGroups) ∧
      (contact.isAdmin ∨ ¬ registered → after = before)) ∧
    (∀ other : Contact, other.id ≠ contact.id →
      joined.effectiveRules other = w.effectiveRules other) ∧
    (∀ other : Contact, ∃ before after, w.effectiveFilters other = .ok before ∧
      joined.effectiveFilters other = .ok after ∧ ∀ f ∈ before, f ∈ after) ∧
    (∀ accessGroup other id rule, w.shown accessGroup other id = .success rule →
      joined.shown accessGroup other id = .success rule) ∧
    ∀ joins others, (∀ p, p ∈ joins ↔ p ∈ others) → ∀ caller : Contact,
      (w.joining joins).directory.groupIds caller.id =
        (w.joining others).directory.groupIds caller.id ∧
      (w.joining joins).effectiveRules caller = (w.joining others).effectiveRules caller ∧
      (w.joining joins).effectiveFilters caller = (w.joining others).effectiveFilters caller ∧
      ∀ accessGroup id,
        (w.joining joins).shown accessGroup caller id =
          (w.joining others).shown accessGroup caller id := by
  intro joined registered
  -- from here on only the rules found before and after are compared
  simp only [World.effectiveRules_eq, World.effectiveFilters_eq, Except.ok.injEq]
  refine ⟨⟨_, _, rfl, rfl, fun _ hregistered r => ?_, fun hnone => ?_⟩, fun other hother => ?_,
    fun other => ⟨_, _, rfl, rfl, fun f hf => ?_⟩, fun accessGroup other id rule hshown => ?_,
    fun joins others hsame caller => ⟨?_, ?_, ?_, fun accessGroup id => ?_⟩⟩
  · exact World.mem_rulesFor_joining_one hregistered
  · refine World.rulesFor_joining_of_none (hnone.imp_right fun hunknown other hjoin => ?_)
    obtain rfl : other = group := by simpa using hjoin
    exact hunknown
  · -- the one who joins has another id, so nothing is added for this contact
    refine World.rulesFor_joining_of_none (.inr fun g hjoin => ?_)
    exact absurd (congrArg Prod.fst (List.mem_singleton.1 hjoin)) hother
  · exact grantedFilters_mono (fun _ => World.mem_rulesFor_joining_of_mem) hf
  · exact World.shown_joining hshown
  · exact Directory.groupIds_joining_congr hsame caller.id
  · exact World.rulesFor_joining_congr hsame caller
  · rw [World.rulesFor_joining_congr hsame caller]
  · exact World.shown_joining_congr hsame id

/-- A contact that is no admin joins the registered group `10` and is reached by the group's rule
    from then on, and so it is if it joins twice. -/
theorem joining_widens_access_group_member :
    let joined := groupWorld.joining [(operator.id, 10)]
    ¬ operator.isAdmin ∧ groupWorld.effectiveRules operator = .ok [] ∧
      (∃ after r, joined.effectiveRules operator = .ok after ∧ r ∈ after ∧ r.id = 2) ∧
      (groupWorld.joining [(operator.id, 10), (operator.id, 10)]).effectiveRules operator =
        joined.effectiveRules operator := by
  intro joined
  have hadmin : ¬ operator.isAdmin := by decide
  have hnone : groupWorld.effectiveRules operator = .ok [] := rfl
  obtain ⟨⟨before, after, hbefore, hafter, hwidened, _⟩, _, _, _, hsame⟩ :=
    joining_widens_access groupWorld operator 10
  have hregistered : ∃ g ∈ groupWorld.directory.contactGroups, g.id = 10 := by decide +kernel
  obtain ⟨noc, hnoc⟩ : ∃ r, groupWorld.store.find? 2 = some r := ⟨_, rfl⟩
  obtain ⟨hstored, hid⟩ := RuleStore.find?_eq_some_iff.1 hnoc
  have hbound : ∀ r ∈ groupWorld.store.rules, r.id = 2 → 10 ∈ r.contactGroups := by decide +kernel
  have hreached : noc ∈ after :=
    (hwidened hadmin hregistered noc).2 (.inr ⟨hstored, hbound noc hstored hid⟩)
  have hpairs : ∀ p, p ∈ [(operator.id, (10 : Id)), (operator.id, 10)] ↔
      p ∈ [(operator.id, (10 : Id))] := by simp
  exact ⟨hadmin, hnone, ⟨after, noc, hafter, hreached, hid⟩, (hsame _ _ hpairs operator).2.1⟩

end AccessScope
