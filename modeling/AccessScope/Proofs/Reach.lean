import AccessScope.Proofs.WorldSteps

/-!
# Which rules reach a contact

The effective rules of a contact are put together from two look-ups in the store, the contact's
groups, and a union by ids. This file says what comes out without following these steps: the stored
rules that reach the contact, each once and in order. A membership in a group that is not registered
counts for nothing, and whether a rule is in force makes no difference.

## Key results

- `Directory.mem_ids_contactGroupsOf`: the groups through which rules can reach a contact
- `run_effectiveRules`: looking up the effective rules of a contact counts and changes nothing else
- `World.mem_rulesFor`, `World.ascending_rulesFor`: the rules that are found, and their order
- `effectiveRules_exact`: both, for every world and every contact
-/

namespace AccessScope

/-! ## Groups of a contact -/

/-- A contact is in a group if it was added to it and the group is registered. -/
def Directory.HasMember (d : Directory) (group contact : Id) : Prop :=
  (contact, group) ∈ d.memberships ∧ ∃ g ∈ d.contactGroups, g.id = group

/-- The registered groups of a contact are those that it is in. -/
theorem Directory.mem_ids_contactGroupsOf {d : Directory} {group contact : Id} :
    group ∈ (d.contactGroupsOf contact).map (·.id) ↔ d.HasMember group contact := by
  simp only [contactGroupsOf, contactGroup?, List.mem_map, List.mem_filterMap]
  constructor
  · intro ⟨g, ⟨id, hid, hfind⟩, hg⟩
    -- a group is found under its own id
    have hgid : g.id = id := by simpa using List.find?_some hfind
    rw [← IdSet.mem_def, mem_groupIds, ← hgid, hg] at hid
    exact ⟨hid, g, List.mem_of_find?_eq_some hfind, hg⟩
  · intro ⟨hmember, g, hg, hgid⟩
    have hsome : (d.contactGroups.find? (·.id = group)).isSome :=
      List.find?_isSome.2 ⟨g, hg, by simpa using hgid⟩
    obtain ⟨found, hfind⟩ := Option.isSome_iff_exists.1 hsome
    have hfound : found.id = group := by simpa using List.find?_some hfind
    exact ⟨found, ⟨group, mem_groupIds.2 hmember, hfind⟩, hfound⟩

/-! ## Unions of stored rules -/

theorem RuleStore.sortedById_rules (s : RuleStore) : sortedById s.rules = s.rules := by
  refine List.mergeSort_of_pairwise (s.ascending.imp fun {r q} hlt => ?_)
  simpa using Int64.le_of_lt hlt

/-- Where all rules are stored ones, a union has the rules of both lists: no two differ under one
    id, so it does not matter which comes first. -/
theorem RuleStore.mem_unionRules_iff {s : RuleStore} {direct viaGroups : List Rule} {r : Rule}
    (hdirect : ∀ q ∈ direct, q ∈ s.rules) (hvia : ∀ q ∈ viaGroups, q ∈ s.rules) :
    r ∈ unionRules direct viaGroups ↔ r ∈ direct ∨ r ∈ viaGroups := by
  rw [mem_unionRules, ← List.mem_append]
  constructor
  · intro h
    exact List.mem_of_find?_eq_some h
  · intro hr
    have hsome : ((direct ++ viaGroups).find? (·.id = r.id)).isSome :=
      List.find?_isSome.2 ⟨r, hr, by simp⟩
    obtain ⟨q, hfind⟩ := Option.isSome_iff_exists.1 hsome
    have hstored (p : Rule) (hp : p ∈ direct ++ viaGroups) : p ∈ s.rules :=
      (List.mem_append.1 hp).elim (hdirect p) (hvia p)
    have hid : q.id = r.id := by simpa using List.find?_some hfind
    have hq := hstored q (List.mem_of_find?_eq_some hfind)
    rw [hfind, s.ascending.eq_of_key hq (hstored r hr) hid]

/-! ## Effective rules -/

/-- A rule reaches an admin, the contacts that it is for by themselves, and the contacts in the
    groups that it is for. -/
def Rule.Reaches (r : Rule) (d : Directory) (contact : Contact) : Prop :=
  contact.isAdmin ∨ contact.id ∈ r.contacts ∨
    ∃ group ∈ r.contactGroups, d.HasMember group contact.id

namespace World

/-- The rules that are found for a contact. -/
def rulesFor (w : World) (contact : Contact) : List Rule :=
  if contact.isAdmin then w.store.rules
  else
    unionRules (w.store.rulesOfContact contact.id)
      (w.store.rulesOfGroups ((w.directory.contactGroupsOf contact.id).map (·.id)))

variable {w : World} {contact : Contact}

theorem ascending_rulesFor : Ascending Rule.id (w.rulesFor contact) := by
  unfold rulesFor
  split
  · exact w.store.ascending
  · exact ascending_unionRules ..

/-- The rules that are found for a contact are the stored ones that reach it. -/
theorem mem_rulesFor {r : Rule} :
    r ∈ w.rulesFor contact ↔ r ∈ w.store.rules ∧ r.Reaches w.directory contact := by
  let groups := (w.directory.contactGroupsOf contact.id).map (·.id)
  unfold rulesFor Rule.Reaches
  by_cases hadmin : contact.isAdmin
  · simp [hadmin]
  · have hunion := @RuleStore.mem_unionRules_iff w.store (w.store.rulesOfContact contact.id)
      (w.store.rulesOfGroups groups) r (fun _ hq => (List.mem_filter.1 hq).1)
      (fun _ hq => (List.mem_filter.1 hq).1)
    have hdirect : r.bindsContact contact.id ↔ contact.id ∈ r.contacts := by
      simp [Rule.bindsContact, IdSet.mem_def]
    -- the groups that the store is asked for are those that the contact is in
    have hvia : r.bindsAnyGroup groups ↔
        ∃ group ∈ r.contactGroups, w.directory.HasMember group contact.id := by
      simp only [Rule.bindsAnyGroup, List.any_eq_true, List.contains_iff_mem, groups,
        Directory.mem_ids_contactGroupsOf, IdSet.mem_def, and_comm]
    rw [if_neg hadmin, hunion, RuleStore.rulesOfContact, RuleStore.rulesOfGroups, List.mem_filter,
      List.mem_filter, hdirect, hvia, ← and_or_left]
    simp only [hadmin, Bool.false_eq_true, false_or]

end World

/-- Looking up the effective rules of a contact counts once, and changes nothing else. -/
theorem run_effectiveRules (w : World) (contact : Contact) :
    (World.collaborators.effectiveRules contact).run.run w =
      (.ok (w.rulesFor contact),
        { w with counters := w.counters.increment (.effectiveRules contact.isAdmin) }) := by
  let counted : World :=
    { w with counters := w.counters.increment (.effectiveRules contact.isAdmin) }
  have hcount : (liftM (World.collaborators.count (.effectiveRules contact.isAdmin)) :
      Action World Unit).run.run w = (.ok (), counted) := rfl
  have hall : World.collaborators.allRules.run.run counted = (.ok w.store.rules, counted) := rfl
  have hdirect : (World.collaborators.rulesOfContact contact.id).run.run counted =
      (.ok (w.store.rulesOfContact contact.id), counted) := rfl
  have hgroups : (World.collaborators.contactGroupsOf contact.id).run.run counted =
      (.ok (w.directory.contactGroupsOf contact.id), counted) := rfl
  rw [Collaborators.effectiveRules, run_bind_ok hcount, World.rulesFor]
  by_cases hadmin : contact.isAdmin
  · rw [if_pos hadmin, if_pos hadmin, run_bind_ok hall, RuleStore.sortedById_rules]
    rfl
  · rw [if_neg hadmin, if_neg hadmin, run_bind_ok hdirect, run_bind_ok hgroups]
    dsimp only
    generalize (w.directory.contactGroupsOf contact.id).map (·.id) = groups
    by_cases hempty : groups.isEmpty
    · -- no rule is for one of no groups, so asking for them would find none either
      have hnone : w.store.rulesOfGroups groups = [] := by
        rw [List.isEmpty_iff.1 hempty]
        simp [RuleStore.rulesOfGroups, Rule.bindsAnyGroup]
      rw [if_pos hempty, hnone]
      rfl
    · rw [if_neg hempty]
      rfl

/-- The effective rules of a contact, in every world: all stored rules for an admin, and for anyone
    else those that are for the contact by itself or for a registered contact group that the contact
    was added to. Each comes once, in ascending order of the ids, in force or not. -/
theorem effectiveRules_exact (w : World) (contact : Contact) :
    ∃ rules, ((World.collaborators.effectiveRules contact).run.run w).1 = .ok rules ∧
      rules.Pairwise (fun r q => r.id < q.id) ∧
      ∀ r, r ∈ rules ↔ r ∈ w.store.rules ∧
        (contact.isAdmin ∨ contact.id ∈ r.contacts ∨
          ∃ group ∈ r.contactGroups, (contact.id, group) ∈ w.directory.memberships ∧
            ∃ g ∈ w.directory.contactGroups, g.id = group) := by
  refine ⟨w.rulesFor contact, ?_, World.ascending_rulesFor, fun r => World.mem_rulesFor⟩
  rw [run_effectiveRules]

end AccessScope
