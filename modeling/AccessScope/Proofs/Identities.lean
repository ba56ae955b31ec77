import AccessScope.Proofs.StoreRuns

/-!
# Ids are given out once

The store counts the ids that it has given, and it does so apart from the rules that it holds. So a
rule that is removed does not free its id: the count never goes back, a refused write does not move
it, and an update stores nothing under an id that no rule has, not even the copy of a removed rule.

## Key results

- `RuleStore.find?_write_eq_none`: a write makes no id present but the one that it gives
- `RuleStore.Retired.write`: an id that is no longer in use stays so after an accepted write
- `RuleStore.Writes`: chains of accepted writes, whose ids are the next numbers one after the other
- `StoreCall.writes_worldAfter`: a run of calls is such a chain
- `StoreCall.retired_of_delete`: an id whose rule was removed is out of use from then on
- `StoreCall.ids_given_once`: which ids a run gives, and what becomes of those whose rules are
  removed
-/

namespace AccessScope

namespace RuleStore

variable {s t : RuleStore} {given : Option Id} {id : Id}

/-! ## Single writes -/

/-- A write makes no id present but the one that it gives. -/
theorem find?_write_eq_none (hw : s.Write t given) (hnone : s.find? id = none)
    (hid : id ∉ given) : t.find? id = none := by
  cases hw with
  | @add content _ _ hadd =>
    obtain ⟨_, rfl, rfl⟩ := add_eq_ok_iff.1 hadd
    have hne : id ≠ (content.withId s.nextId).id := fun h => hid (h ▸ rfl)
    change (s.store (content.withId s.nextId)).find? id = none
    rw [find?_store, if_neg hne, hnone]
  | @update rule _ hupdate =>
    -- the rule was there under its id, so that id is another one
    obtain ⟨hfound, _, rfl⟩ := update_eq_ok_iff.1 hupdate
    have hne : id ≠ rule.id := by
      rintro rfl
      simp [hnone] at hfound
    rw [find?_store, if_neg hne, hnone]
  | delete hdelete =>
    obtain ⟨_, rfl⟩ := delete_eq_ok_iff.1 hdelete
    rw [find?_remove, hnone, ite_self]

/-- The id was given out, and no rule has it any more. -/
structure Retired (s : RuleStore) (id : Id) : Prop where
  find?_eq_none : s.find? id = none
  le_lastId : id.toInt ≤ s.lastId.toInt

/-- The id that a write gives is the number after the last one that was given. -/
theorem toInt_of_write (hids : s.IdsInRange) (hroom : s.lastId.toInt < Int64.maxValue.toInt)
    (hw : s.Write t (some id)) : id.toInt = s.lastId.toInt + 1 := by
  cases hw with
  | add hadd =>
    obtain ⟨_, rfl, _⟩ := add_eq_ok_iff.1 hadd
    exact toInt_nextId hids.lastId_nonneg hroom

/-- An id that is no longer in use stays so after an accepted write, since a new id is greater than
    all that were given before. -/
theorem Retired.write (h : s.Retired id) (hids : s.IdsInRange)
    (hroom : s.lastId.toInt < Int64.maxValue.toInt) (hw : s.Write t given) : t.Retired id := by
  obtain ⟨hnone, hle⟩ := h
  have hnew : id ∉ given := by
    rintro rfl
    have := toInt_of_write hids hroom hw
    omega
  -- the last id never goes down, so the id stays below what can still be given
  have hlast := (hids.write hroom hw).2
  exact ⟨find?_write_eq_none hw hnone hnew, by omega⟩

/-- The id of a rule that was removed is no longer in use. -/
theorem Retired.of_delete (hids : s.IdsInRange) (h : s.delete id = .ok t) : t.Retired id := by
  obtain ⟨hfound, rfl⟩ := delete_eq_ok_iff.1 h
  obtain ⟨r, hfind⟩ := Option.isSome_iff_exists.1 hfound
  obtain ⟨hr, rfl⟩ := find?_eq_some_iff.1 hfind
  exact ⟨by rw [find?_remove, if_pos rfl], hids.le_lastId r hr⟩

/-! ## Chains of writes -/

/-- Accepted writes one after the other, and the ids that they gave. -/
inductive Writes : RuleStore → List Id → RuleStore → Prop where
  | nil {s : RuleStore} : Writes s [] s
  | cons {s t u : RuleStore} {given : Option Id} {ids : List Id} (hw : s.Write t given)
    (hrest : Writes t ids u) : Writes s (given.toList ++ ids) u

namespace Writes

variable {ids : List Id}

/-- What the first write of a chain leaves to the rest: the ids stay in range, the count has moved
    by what was given, and there is room for what is still to come. -/
theorem room_rest (hw : s.Write t given) (hids : s.IdsInRange)
    (hroom : s.lastId.toInt + (given.toList ++ ids).length < Int64.maxValue.toInt) :
    t.IdsInRange ∧ t.lastId.toInt = s.lastId.toInt + given.toList.length ∧
      t.lastId.toInt + ids.length < Int64.maxValue.toInt := by
  rw [List.length_append] at hroom
  obtain ⟨ht, hlast⟩ := hids.write (by omega) hw
  exact ⟨ht, hlast, by omega⟩

/-- A chain counts up the last id once for each id that it gives. -/
theorem counted (h : s.Writes ids t) (hids : s.IdsInRange)
    (hroom : s.lastId.toInt + ids.length < Int64.maxValue.toInt) :
    t.IdsInRange ∧ t.lastId.toInt = s.lastId.toInt + ids.length := by
  induction h with
  | nil => exact ⟨hids, by simp⟩
  | cons hw _ ih =>
    obtain ⟨ht, hlast, hrest⟩ := room_rest hw hids hroom
    obtain ⟨hu, hcount⟩ := ih ht hrest
    refine ⟨hu, ?_⟩
    rw [List.length_append]
    omega

/-- The ids that a chain gives are the next numbers, one after the other. -/
theorem toInt_getElem? (h : s.Writes ids t) (hids : s.IdsInRange)
    (hroom : s.lastId.toInt + ids.length < Int64.maxValue.toInt) {k : Nat}
    (hk : ids[k]? = some id) : id.toInt = s.lastId.toInt + k + 1 := by
  induction h generalizing k with
  | nil => simp at hk
  | @cons s _ _ given ids hw _ ih =>
    obtain ⟨ht, hlast, hrest⟩ := room_rest hw hids hroom
    cases given with
    | none =>
      -- nothing was given, so the place in the list is the same
      have := ih ht hrest hk
      simp only [Option.toList_none, List.length_nil] at hlast
      omega
    | some first =>
      simp only [Option.toList_some, List.length_singleton] at hlast
      -- the id at the head is the one that the first write gives
      cases k with
      | zero =>
        obtain rfl : first = id := by simpa using hk
        have := toInt_of_write hids (by omega) hw
        omega
      | succ k =>
        have := ih ht hrest (by simpa using hk)
        omega

/-- An id that is no longer in use stays so over a chain. -/
theorem retired (h : s.Writes ids t) (hids : s.IdsInRange)
    (hroom : s.lastId.toInt + ids.length < Int64.maxValue.toInt) (hid : s.Retired id) :
    t.Retired id := by
  induction h with
  | nil => exact hid
  | cons hw _ ih =>
    obtain ⟨ht, hlast, hrest⟩ := room_rest hw hids hroom
    exact ih ht hrest (hid.write hids (by omega) hw)

end Writes

end RuleStore

namespace StoreCall

/-! ## Single calls -/

variable {w : World} {id : Id}

/-- An update of a rule that is not there finds nothing to replace. -/
theorem step_update_of_none {rule : Rule} (h : w.store.find? rule.id = none) :
    (update rule).step w = (.error .noRule, w) := by
  have hrefused : w.store.update rule = .error .noRule := by simp [RuleStore.update, h]
  simp only [step, World.collaborators, World.run_write, hrefused]
  rfl

/-- Neither does a removal. -/
theorem step_delete_of_none (h : w.store.find? id = none) :
    (delete id).step w = (.error .noRule, w) := by
  have hrefused : w.store.delete id = .error .noRule := by simp [RuleStore.delete, h]
  simp only [step, World.collaborators, World.run_write, hrefused]
  rfl

/-- A removal that succeeds is one that the store accepts, and it gives no id. -/
theorem delete_of_step {given : Option Id} (h : ((delete id).step w).1 = .ok given) :
    ∃ t, w.store.delete id = .ok t ∧ (delete id).step w = (.ok none, { w with store := t }) := by
  simp only [step, World.collaborators, World.run_write] at h ⊢
  cases hdelete : w.store.delete id with
  | error failure =>
    rw [hdelete] at h
    cases h
  | ok t => exact ⟨t, rfl, rfl⟩

/-- An update makes no id present, whatever rule it is handed. -/
theorem find?_step_update {rule : Rule} (h : w.store.find? id = none) :
    ((update rule).step w).2.store.find? id = none := by
  by_cases hid : rule.id = id
  · -- there is no rule to replace under its id, so the update is refused
    rw [step_update_of_none (hid ▸ h)]
    exact h
  · simp only [step, World.collaborators, World.run_write]
    cases hupdate : w.store.update rule with
    | error failure => exact h
    | ok t => exact RuleStore.find?_write_eq_none (.update hupdate) h (Option.not_mem_none id)

/-! ## Runs -/

theorem worldAfter_cons (w : World) (call : StoreCall) (calls : List StoreCall) :
    worldAfter w (call :: calls) = worldAfter (call.step w).2 calls := rfl

theorem worldAfter_append (w : World) (calls more : List StoreCall) :
    worldAfter w (calls ++ more) = worldAfter (worldAfter w calls) more :=
  List.foldl_append

/-- What a run gives is what its beginning gives, and then what the rest does. -/
theorem idsGiven_append (w : World) (calls more : List StoreCall) :
    idsGiven w (calls ++ more) = idsGiven w calls ++ idsGiven (worldAfter w calls) more := by
  induction calls generalizing w with
  | nil => rfl
  | cons call calls ih =>
    rw [List.cons_append, idsGiven, idsGiven, worldAfter_cons]
    obtain ⟨t, given, _, hstep⟩ | ⟨f, hstep⟩ := call.step_cases w
    · simp only [hstep, ih, List.append_assoc]
    · simp only [hstep, ih]

/-- A run is a chain of accepted writes: the calls that fail leave nothing behind. -/
theorem writes_worldAfter (w : World) (calls : List StoreCall) :
    w.store.Writes (idsGiven w calls) (worldAfter w calls).store := by
  induction calls generalizing w with
  | nil => exact .nil
  | cons call calls ih =>
    rw [idsGiven, worldAfter_cons]
    obtain ⟨t, given, hwrite, hstep⟩ | ⟨f, hstep⟩ := call.step_cases w
    · simp only [hstep]
      exact .cons hwrite (ih { w with store := t })
    · simp only [hstep]
      exact ih w

/-- Once the rule under an id was removed, the id is no longer in use, and that is so after every
    run that goes on from there. -/
theorem retired_of_delete {w : World} {id : Id} {given : Option Id} {before after : List StoreCall}
    (hids : w.store.IdsInRange)
    (hroom : w.store.lastId.toInt + (idsGiven w (before ++ delete id :: after)).length <
      Int64.maxValue.toInt)
    (hdelete : ((delete id).step (worldAfter w before)).1 = .ok given) :
    (worldAfter w (before ++ delete id :: after)).store.Retired id := by
  obtain ⟨t, hstore, hstep⟩ := delete_of_step hdelete
  rw [worldAfter_append, worldAfter_cons, hstep]
  rw [idsGiven_append, idsGiven, hstep] at hroom
  simp only [Option.toList_none, List.nil_append, List.length_append] at hroom
  -- the run up to the removal, the removal itself, and the run from there
  obtain ⟨hbefore, hlast⟩ := (writes_worldAfter w before).counted hids (by omega)
  have hwrite : (worldAfter w before).store.Write t none := .delete hstore
  obtain ⟨ht, hsame⟩ := hbefore.write (by omega) hwrite
  simp only [Option.toList_none, List.length_nil] at hsame
  refine (writes_worldAfter _ after).retired ht ?_ (.of_delete hbefore hstore)
  dsimp only
  omega

/-- An id is given out once, over every run of calls on a fresh store. The ids of the new rules are
    one, two, three and so on, whatever calls lie between and whichever of them fail. Once the rule
    under an id was removed, nothing is found there any more, and updates and removals of that id
    are refused because there is no rule. And in any world, an update leaves an id without a rule if
    there was none before. -/
theorem ids_given_once {w : World} (calls : List StoreCall) (hfresh : w.store.Fresh)
    (hfew : (idsGiven w calls).length < Int64.maxValue.toInt) :
    (∀ (k : Nat) (id : Id), (idsGiven w calls)[k]? = some id → id.toInt = k + 1) ∧
    (∀ (before : List StoreCall) (id : Id) (after : List StoreCall) (given : Option Id),
      calls = before ++ delete id :: after →
      ((delete id).step (worldAfter w before)).1 = .ok given →
        let v := worldAfter w calls
        (World.collaborators.findRule id).run.run v = (.ok none, v) ∧
          (∀ rule : Rule, rule.id = id → (update rule).step v = (.error .noRule, v)) ∧
            (delete id).step v = (.error .noRule, v)) ∧
    ∀ (v : World) (id : Id) (rule : Rule), v.store.find? id = none →
      ((update rule).step v).2.store.find? id = none := by
  have hroom : w.store.lastId.toInt + (idsGiven w calls).length < Int64.maxValue.toInt := by
    rw [hfresh.lastId, Int64.toInt_zero]
    omega
  refine ⟨fun k id hk => ?_, ?_, fun v id rule => find?_step_update⟩
  · have := (writes_worldAfter w calls).toInt_getElem? hfresh.idsInRange hroom hk
    rw [hfresh.lastId, Int64.toInt_zero] at this
    omega
  · rintro before id after given rfl hdelete v
    have hnone := (retired_of_delete hfresh.idsInRange hroom hdelete).find?_eq_none
    refine ⟨?_, fun rule hid => step_update_of_none (hid ▸ hnone), step_delete_of_none hnone⟩
    change (Except.ok (v.store.find? id), v) = _
    rw [hnone]

/-- The name of a rule that was removed is given to a new one, but its id is not: a copy of the old
    rule cannot be stored any more, and the name that was taken meanwhile cost no id. -/
theorem ids_given_once_removed_rule :
    let calls := [add opsContent, add opsContent, delete 1, update (opsContent.withId 1),
      add opsContent]
    let v := worldAfter .empty calls
    RuleStore.empty.Fresh ∧ idsGiven .empty calls = [1, 2] ∧
      (World.collaborators.findRule 1).run.run v = (.ok none, v) ∧
        (update (opsContent.withId 1)).step v = (.error .noRule, v) ∧
          (delete 1).step v = (.error .noRule, v) := by
  intro calls v
  have hfew : (idsGiven .empty calls).length < Int64.maxValue.toInt := by
    have hle : (idsGiven .empty calls).length ≤ 5 := length_idsGiven_le _ calls
    have hmax : 5 < Int64.maxValue.toInt := by decide
    omega
  obtain ⟨_, hremoved, _⟩ := ids_given_once calls ⟨rfl, rfl⟩ hfew
  obtain ⟨hfind, hupdate, hdelete⟩ :=
    hremoved [add opsContent, add opsContent] 1 _ none rfl (by rfl)
  exact ⟨⟨rfl, rfl⟩, by rfl, hfind, hupdate _ rfl, hdelete⟩

end StoreCall

end AccessScope
