import AccessScope.Memory.World

/-!
# Runs of writes to the rule store

The store looks for the owner of a name only up to the first rule that has it. That is enough as
long as no two rules share a name, and this file shows that they never do: whatever is added,
updated and deleted, and whichever of these writes are refused. `RuleStore.Write` says once what an
accepted write can do; the invariants are derived from it.

## Key results

- `RuleStore.find?_store`, `RuleStore.find?_remove`: what is found after a write, under any id
- `RuleStore.store_of_mem`, `RuleStore.store_comm`: writes that change nothing, or come in any order
- `RuleStore.NamesDiffer.write`: an accepted write leaves the formatted names different
- `RuleStore.IdsInRange.write`: an accepted write leaves the ids between one and the last one given
- `StoreCall.step_cases`: a call of the store writes, or it fails and changes nothing
- `index_kept_by_runs`: both invariants hold after every run of calls on a fresh store
-/

namespace AccessScope

namespace RuleStore

/-! ## Accepted writes -/

/-- What an accepted write makes of a store, and the id that it gave to a new rule. -/
inductive Write (s : RuleStore) : RuleStore → Option Id → Prop where
  | add {content : RuleContent} {t : RuleStore} {id : Id} (h : s.add content = .ok (t, id)) :
    Write s t (some id)
  | update {rule : Rule} {t : RuleStore} (h : s.update rule = .ok t) : Write s t none
  | delete {id : Id} {t : RuleStore} (h : s.delete id = .ok t) : Write s t none

/-- No write changes which resources exist. -/
theorem Write.resources_eq {s t : RuleStore} {given : Option Id} (h : s.Write t given) :
    t.resources = s.resources := by
  cases h with
  | add h => rw [(add_eq_ok_iff.1 h).2.2]; rfl
  | update h => rw [(update_eq_ok_iff.1 h).2.2]; rfl
  | delete h => rw [(delete_eq_ok_iff.1 h).2]; rfl

/-! ## Look-ups after a write -/

/-- A rule that was stored is found under its id, and under any other id what was there before. -/
theorem find?_store {s : RuleStore} {id : Id} {r : Rule} :
    (s.store r).find? id = if id = r.id then some r else s.find? id := by
  refine Option.ext fun q => ?_
  rw [find?_eq_some_iff, mem_store]
  split
  · next hid =>
    subst hid
    constructor
    · -- of what is in the store now, only the new rule has its id
      intro ⟨hq, hqid⟩
      exact congrArg some (hq.resolve_right fun h => h.2 hqid).symm
    · intro hq
      cases hq
      exact ⟨.inl rfl, rfl⟩
  · next hne =>
    rw [find?_eq_some_iff]
    constructor
    · intro ⟨hq, hqid⟩
      obtain rfl | ⟨hold, _⟩ := hq
      · exact absurd hqid.symm hne
      · exact ⟨hold, hqid⟩
    · intro ⟨hold, hqid⟩
      exact ⟨.inr ⟨hold, fun h => hne (hqid.symm.trans h)⟩, hqid⟩

/-- Nothing is found under the id of a rule that was removed, and under any other id what was there
    before. -/
theorem find?_remove {s : RuleStore} {id other : Id} :
    (s.remove id).find? other = if other = id then none else s.find? other := by
  split
  · next h =>
    subst h
    exact find?_eq_none_iff.2 fun r hr => (mem_remove.1 hr).2
  · next hne =>
    refine Option.ext fun q => ?_
    rw [find?_eq_some_iff, find?_eq_some_iff, mem_remove]
    constructor
    · intro ⟨⟨hq, _⟩, hqid⟩
      exact ⟨hq, hqid⟩
    · intro ⟨hq, hqid⟩
      exact ⟨⟨hq, fun h => hne (hqid.symm.trans h)⟩, hqid⟩

/-! ## Stores with the same rules -/

/-- Stores with the same rules, last id and resources are equal, since rules are kept in order. -/
theorem ext_mem {s t : RuleStore} (hrules : ∀ r, r ∈ s.rules ↔ r ∈ t.rules)
    (hlastId : s.lastId = t.lastId) (hresources : s.resources = t.resources) : s = t := by
  -- two ascending lists with the same members are one list
  have hlists := s.ascending.ext t.ascending hrules
  cases s
  cases t
  cases hlists
  cases hlastId
  cases hresources
  rfl

/-- Storing a rule that is already there changes nothing. -/
theorem store_of_mem {s : RuleStore} {r : Rule} (h : r ∈ s.rules) : s.store r = s := by
  refine ext_mem (fun q => ?_) rfl rfl
  rw [mem_store]
  constructor
  · intro hq
    obtain rfl | ⟨hold, _⟩ := hq
    · exact h
    · exact hold
  · intro hq
    by_cases hid : q.id = r.id
    · -- there is only one rule under this id before, and it is `r`
      exact .inl (s.ascending.eq_of_key hq h hid)
    · exact .inr ⟨hq, hid⟩

/-- Rules with different ids are stored in either order. -/
theorem store_comm {s : RuleStore} {r q : Rule} (h : r.id ≠ q.id) :
    (s.store r).store q = (s.store q).store r := by
  refine ext_mem (fun a => ?_) rfl rfl
  simp only [mem_store]
  constructor
  · rintro (rfl | ⟨rfl | ⟨ha, hr⟩, hq⟩)
    · exact .inr ⟨.inl rfl, h.symm⟩
    · exact .inl rfl
    · exact .inr ⟨.inr ⟨ha, hq⟩, hr⟩
  · rintro (rfl | ⟨rfl | ⟨ha, hq⟩, hr⟩)
    · exact .inr ⟨.inl rfl, h⟩
    · exact .inl rfl
    · exact .inr ⟨.inr ⟨ha, hr⟩, hq⟩

/-! ## Names -/

/-- No two stored rules have the same formatted name. -/
def NamesDiffer (s : RuleStore) : Prop :=
  ∀ r ∈ s.rules, ∀ q ∈ s.rules, r.formattedName = q.formattedName → r = q

/-- Where names differ, the owner of a name is the one rule that has it. -/
theorem NamesDiffer.nameOwner?_eq {s : RuleStore} (h : s.NamesDiffer) {r : Rule}
    (hr : r ∈ s.rules) : s.nameOwner? r.formattedName = some r.id := by
  cases hf : s.nameOwner? r.formattedName with
  | none => exact absurd rfl (nameOwner?_eq_none_iff.1 hf r hr)
  | some id =>
    obtain ⟨q, hfind, rfl⟩ := Option.map_eq_some_iff.1 hf
    have hq : q.formattedName = r.formattedName := by simpa using List.find?_some hfind
    rw [h q (List.mem_of_find?_eq_some hfind) r hr hq]

/-- Storing a rule keeps names different if every rule of its name is the one that it replaces. -/
theorem NamesDiffer.store {s : RuleStore} (h : s.NamesDiffer) {r : Rule}
    (hown : ∀ q ∈ s.rules, q.formattedName = r.formattedName → q.id = r.id) :
    (s.store r).NamesDiffer := by
  intro p hp q hq hpq
  obtain rfl | ⟨hp', hpid⟩ := mem_store.1 hp
  · obtain rfl | ⟨hq', hqid⟩ := mem_store.1 hq
    · rfl
    · exact absurd (hown q hq' hpq.symm) hqid
  · obtain rfl | ⟨hq', _⟩ := mem_store.1 hq
    · exact absurd (hown p hp' hpq) hpid
    · exact h p hp' q hq' hpq

/-- An accepted write leaves the formatted names different. -/
theorem NamesDiffer.write {s t : RuleStore} {given : Option Id} (h : s.NamesDiffer)
    (hw : s.Write t given) : t.NamesDiffer := by
  cases hw with
  | add hadd =>
    obtain ⟨hfree, _, rfl⟩ := add_eq_ok_iff.1 hadd
    -- the name has no owner, so no rule can stand in the way
    have hnone := nameOwner?_eq_none_iff.1 hfree
    exact h.store fun q hq hname => absurd hname (hnone q hq)
  | update hupdate =>
    obtain ⟨_, hown, rfl⟩ := update_eq_ok_iff.1 hupdate
    -- the owner that the store compares with is the only one, since names differ before the write
    refine h.store fun q hq hname => hown q.id ?_
    rw [← hname]
    exact h.nameOwner?_eq hq
  | delete hdelete =>
    obtain ⟨_, rfl⟩ := delete_eq_ok_iff.1 hdelete
    intro p hp q hq
    exact h p (mem_remove.1 hp).1 q (mem_remove.1 hq).1

/-! ## Ids -/

/-- The stored rules are known by ids that were given out, and these start at one. -/
structure IdsInRange (s : RuleStore) : Prop where
  lastId_nonneg : 0 ≤ s.lastId.toInt
  pos : ∀ r ∈ s.rules, 0 < r.id.toInt
  le_lastId : ∀ r ∈ s.rules, r.id.toInt ≤ s.lastId.toInt

/-- The next id is the number after the last one, unless the numbers are used up. -/
theorem toInt_nextId {s : RuleStore} (hnonneg : 0 ≤ s.lastId.toInt)
    (hroom : s.lastId.toInt < Int64.maxValue.toInt) : s.nextId.toInt = s.lastId.toInt + 1 := by
  have hmax : Int64.maxValue.toInt = 9223372036854775807 := by decide
  rw [nextId, Int64.toInt_add, Int64.toInt_one]
  exact Int.bmod_eq_of_le (by omega) (by omega)

/-- An accepted write leaves the ids in range, and counts up the last one if it gave an id. -/
theorem IdsInRange.write {s t : RuleStore} {given : Option Id} (h : s.IdsInRange)
    (hroom : s.lastId.toInt < Int64.maxValue.toInt) (hw : s.Write t given) :
    t.IdsInRange ∧ t.lastId.toInt = s.lastId.toInt + given.toList.length := by
  obtain ⟨hnonneg, hpos, hle⟩ := h
  cases hw with
  | add hadd =>
    obtain ⟨_, _, rfl⟩ := add_eq_ok_iff.1 hadd
    have hnext := toInt_nextId hnonneg hroom
    refine ⟨⟨?_, fun r hr => ?_, fun r hr => ?_⟩, hnext⟩
    · change 0 ≤ s.nextId.toInt
      omega
    · obtain rfl | ⟨hold, _⟩ := mem_store.1 hr
      · change 0 < s.nextId.toInt
        omega
      · exact hpos r hold
    · change r.id.toInt ≤ s.nextId.toInt
      obtain rfl | ⟨hold, _⟩ := mem_store.1 hr
      · exact Int.le_refl _
      · have := hle r hold
        omega
  | @update rule _ hupdate =>
    obtain ⟨hfound, _, rfl⟩ := update_eq_ok_iff.1 hupdate
    obtain ⟨q, hfind⟩ := Option.isSome_iff_exists.1 hfound
    obtain ⟨hq, hid⟩ := find?_eq_some_iff.1 hfind
    -- the id of the stored rule was in use before
    refine ⟨⟨hnonneg, fun r hr => ?_, fun r hr => ?_⟩, by simp [RuleStore.store]⟩
    · obtain rfl | ⟨hold, _⟩ := mem_store.1 hr
      · exact hid ▸ hpos q hq
      · exact hpos r hold
    · obtain rfl | ⟨hold, _⟩ := mem_store.1 hr
      · exact hid ▸ hle q hq
      · exact hle r hold
  | delete hdelete =>
    obtain ⟨_, rfl⟩ := delete_eq_ok_iff.1 hdelete
    refine ⟨⟨hnonneg, fun r hr => ?_, fun r hr => ?_⟩, by simp [remove]⟩
    · exact hpos r (mem_remove.1 hr).1
    · exact hle r (mem_remove.1 hr).1

/-- As long as there are ids left, nothing is stored under the next one. -/
theorem IdsInRange.find?_nextId {s : RuleStore} (h : s.IdsInRange)
    (hroom : s.lastId < Int64.maxValue) : s.find? s.nextId = none := by
  have hnext := toInt_nextId h.lastId_nonneg (Int64.lt_iff_toInt_lt.1 hroom)
  refine find?_eq_none_iff.2 fun r hr hid => ?_
  have hle := h.le_lastId r hr
  rw [hid] at hle
  omega

/-! ## Fresh stores -/

/-- A store to which no rule was added yet. It may know of any resources. -/
structure Fresh (s : RuleStore) : Prop where
  rules : s.rules = []
  lastId : s.lastId = 0

theorem Fresh.namesDiffer {s : RuleStore} (h : s.Fresh) : s.NamesDiffer := by
  intro r hr
  rw [h.rules] at hr
  cases hr

theorem Fresh.idsInRange {s : RuleStore} (h : s.Fresh) : s.IdsInRange := by
  refine ⟨by simp [h.lastId], fun r hr => ?_, fun r hr => ?_⟩ <;>
  · rw [h.rules] at hr
    cases hr

end RuleStore

/-! ## Calls of the store -/

/-- What can be asked of the part of a world that stores rules. -/
inductive StoreCall where
  | add (content : RuleContent)
  | update (rule : Rule)
  | delete (id : Id)

namespace StoreCall

/-- Runs a call on a world: the id that a new rule got or the failure, and the world afterwards. -/
def step (w : World) : StoreCall → Except Failure (Option Id) × World
  | add content =>
    let (answer, after) := (World.collaborators.addRule content).run.run w
    (answer.map some, after)
  | update rule =>
    let (answer, after) := (World.collaborators.updateRule rule).run.run w
    (answer.map fun _ => none, after)
  | delete id =>
    let (answer, after) := (World.collaborators.deleteRule id).run.run w
    (answer.map fun _ => none, after)

/-- A call of the store writes, or it fails and changes nothing. -/
theorem step_cases (w : World) (call : StoreCall) :
    (∃ t given, w.store.Write t given ∧ call.step w = (.ok given, { w with store := t })) ∨
      ∃ failure, call.step w = (.error failure, w) := by
  cases call with
  | add content =>
    simp only [step, World.collaborators, World.run_write]
    cases h : w.store.add content with
    | error failure => exact .inr ⟨failure, rfl⟩
    | ok result => exact .inl ⟨result.1, some result.2, .add h, rfl⟩
  | update rule =>
    simp only [step, World.collaborators, World.run_write]
    cases h : w.store.update rule with
    | error failure => exact .inr ⟨failure, rfl⟩
    | ok t => exact .inl ⟨t, none, .update h, rfl⟩
  | delete id =>
    simp only [step, World.collaborators, World.run_write]
    cases h : w.store.delete id with
    | error failure => exact .inr ⟨failure, rfl⟩
    | ok t => exact .inl ⟨t, none, .delete h, rfl⟩

/-- A call that fails leaves the world as it was. -/
theorem step_of_error {w : World} {call : StoreCall} {failure : Failure}
    (h : (call.step w).1 = .error failure) : (call.step w).2 = w := by
  obtain ⟨t, given, _, hstep⟩ | ⟨f, hstep⟩ := call.step_cases w
  · rw [hstep] at h
    cases h
  · rw [hstep]

/-- The world after calls of the store, one after the other, whether they fail or not. -/
def worldAfter (w : World) (calls : List StoreCall) : World :=
  calls.foldl (fun w call => (call.step w).2) w

/-- The ids that the new rules of a run got, in the order in which they were given. -/
def idsGiven (w : World) : List StoreCall → List Id
  | [] => []
  | call :: calls =>
    match call.step w with
    | (.ok given, after) => given.toList ++ idsGiven after calls
    | (.error _, after) => idsGiven after calls

/-- A call gives one id at most. -/
theorem length_idsGiven_le (w : World) (calls : List StoreCall) :
    (idsGiven w calls).length ≤ calls.length := by
  -- the rest of a run starts from the world that its first call leaves
  induction calls generalizing w with
  | nil => exact Nat.le_refl _
  | cons call calls ih =>
    rw [idsGiven]
    obtain ⟨t, given, _, hstep⟩ | ⟨f, hstep⟩ := call.step_cases w
    · have := ih { w with store := t }
      have := given.length_toList_le
      simp only [hstep, List.length_append, List.length_cons]
      omega
    · have := ih w
      simp only [hstep, List.length_cons]
      omega

/-- A run that gives no more ids than there are keeps names and ids apart. -/
theorem invariants_worldAfter {w : World} (calls : List StoreCall) (hnames : w.store.NamesDiffer)
    (hids : w.store.IdsInRange)
    (hroom : w.store.lastId.toInt + (idsGiven w calls).length < Int64.maxValue.toInt) :
    (worldAfter w calls).store.NamesDiffer ∧ (worldAfter w calls).store.IdsInRange := by
  induction calls generalizing w with
  | nil => exact ⟨hnames, hids⟩
  | cons call calls ih =>
    rw [worldAfter, List.foldl_cons]
    rw [idsGiven] at hroom
    obtain ⟨t, given, hwrite, hstep⟩ | ⟨f, hstep⟩ := call.step_cases w
    · simp only [hstep, List.length_append] at hroom ⊢
      -- an id that is given counts up the last one, and is one less for the rest of the run
      obtain ⟨ht, hlast⟩ := hids.write (by omega) hwrite
      refine ih (hnames.write hwrite) ht ?_
      change t.lastId.toInt + _ < _
      omega
    · simp only [hstep] at hroom ⊢
      exact ih hnames hids hroom

/-- The index of a store over every run of calls, of which some may fail: a rule is found under its
    own id and nowhere else, the ids lie between one and the last one given, and no two rules share
    a formatted name. A call that fails changes nothing, in whatever world it is made. -/
theorem index_kept_by_runs {w : World} (calls : List StoreCall) (hfresh : w.store.Fresh)
    (hfew : (idsGiven w calls).length < Int64.maxValue.toInt) :
    let s := (worldAfter w calls).store
    (∀ id r, s.find? id = some r ↔ r ∈ s.rules ∧ r.id = id) ∧
      (∀ r ∈ s.rules, 1 ≤ r.id ∧ r.id ≤ s.lastId) ∧
      (∀ r ∈ s.rules, ∀ q ∈ s.rules, r ≠ q → r.formattedName ≠ q.formattedName) ∧
      ∀ (v : World) (call : StoreCall) (failure : Failure),
        (call.step v).1 = .error failure → (call.step v).2 = v := by
  intro s
  have hroom : w.store.lastId.toInt + (idsGiven w calls).length < Int64.maxValue.toInt := by
    rw [hfresh.lastId, Int64.toInt_zero]
    omega
  obtain ⟨hnames, hids⟩ := invariants_worldAfter calls hfresh.namesDiffer hfresh.idsInRange hroom
  refine ⟨fun id r => RuleStore.find?_eq_some_iff, fun r hr => ?_, fun r hr q hq hne hname => ?_,
    fun v call failure h => step_of_error h⟩
  · rw [Int64.le_iff_toInt_le, Int64.le_iff_toInt_le, Int64.toInt_one]
    exact ⟨hids.pos r hr, hids.le_lastId r hr⟩
  · exact hne (hnames r hr q hq hname)

/-- What a rule with the name `Ops` and nothing else says. -/
def opsContent : RuleContent where
  name := "Ops"
  description := ""
  isEnabled := true
  contacts := ∅
  contactGroups := ∅
  filters := []
  formattedName := "ops"
  formattedName_eq := by decide
  name_trimmed := by decide
  acceptable := ⟨by decide, by decide, by decide, by simp, by simp, .nil⟩

/-- A name that is taken, an update of a rule that is gone, and the name given to a new rule. -/
theorem index_kept_by_reuse :
    let calls := [add opsContent, add opsContent, delete 1, update (opsContent.withId 1),
      add opsContent]
    let s := (worldAfter .empty calls).store
    s.rules = [opsContent.withId 2] ∧ RuleStore.empty.Fresh ∧
      (idsGiven .empty calls).length < Int64.maxValue.toInt ∧
        ∀ r ∈ s.rules, ∀ q ∈ s.rules, r ≠ q → r.formattedName ≠ q.formattedName := by
  intro calls s
  have hfew : (idsGiven .empty calls).length < Int64.maxValue.toInt := by
    have hle : (idsGiven .empty calls).length ≤ 5 := length_idsGiven_le _ calls
    have hmax : 5 < Int64.maxValue.toInt := by decide
    omega
  exact ⟨by rfl, ⟨rfl, rfl⟩, hfew, (index_kept_by_runs calls ⟨rfl, rfl⟩ hfew).2.2.1⟩

end StoreCall

end AccessScope
