import AccessScope.CommandLine
import AccessScope.Proofs.Mutations
import Mathlib.Data.Finset.Card

/-!
# Checking a file of definitions

The definitions of a file are taken into an empty store one after the other, and one whose name is
taken by then is refused. Which ones are refused depends on their order, but how many does not: a
refused definition takes no name, so there is one accepted definition for each name that some valid
definition has.

## Key results

- `exists_takeIn_iff`, `hasName_takeIn_iff`: what one definition needs, and which name it takes
- `getElem?_checkInto_eq_ok_iff`: which definitions of a list are accepted
- `reportedOk_iff`, `reportedOk_iff_valid`: which ones the report says are fine
- `card_okPlaces`: there is one of them for each valid name
- `countRefused_eq_zero_iff`, `countRefused_perm`: the number of those that are refused
- `validate_exact`: what a run reports and how it ends
-/

namespace AccessScope

/-! ## Single definitions -/

/-- The name that a request asks for, in the form that no two rules may share. -/
def RuleRequest.formattedName (r : RuleRequest) : String := RuleName.formatted r.name

/-- A request that has nothing wrong with it: its fields are accepted, its drafts become filters,
    and its terms are those of a rule. -/
structure RuleRequest.Valid (r : RuleRequest) : Prop where
  fields : r.fieldFaults = []
  terms : ∃ t content, r.toTerms = .ok t ∧ RuleContent.ofTerms t = .ok content

namespace RuleRequest

variable {r : RuleRequest}

/-- A request is valid exactly if it becomes the content of a rule. -/
theorem valid_iff : r.Valid ↔ ∃ content, r.toContent = .ok content := by
  simp only [toContent_eq_ok_iff]
  constructor
  · intro ⟨hfields, t, content, ht, hcontent⟩
    exact ⟨content, hfields, t, ht, hcontent⟩
  · intro ⟨content, hfields, t, ht, hcontent⟩
    exact ⟨hfields, t, content, ht, hcontent⟩

theorem formattedName_of_toContent {content : RuleContent} (h : r.toContent = .ok content) :
    content.formattedName = r.formattedName := by
  obtain ⟨_, t, ht, hcontent⟩ := toContent_eq_ok_iff.1 h
  rw [(RuleContent.fields_of_ofTerms hcontent).2, name_of_toTerms ht, formattedName]

instance (r : RuleRequest) : Decidable r.Valid :=
  decidable_of_iff (r.toContent.isOk = true) <| by
    rw [valid_iff]
    cases r.toContent <;> simp [Except.isOk, Except.toBool]

end RuleRequest

/-! ## Taking in one definition -/

namespace RuleStore

/-- Some stored rule has the formatted name. -/
def HasName (s : RuleStore) (name : String) : Prop :=
  ∃ r ∈ s.rules, r.formattedName = name

/-- A name has no owner exactly if no stored rule has it. -/
theorem nameOwner?_eq_none_iff_not_hasName {s : RuleStore} {name : String} :
    s.nameOwner? name = none ↔ ¬ s.HasName name := by
  simp [nameOwner?_eq_none_iff, HasName]

/-- A store with ids left for this many more rules. -/
structure HasRoom (s : RuleStore) (count : Nat) : Prop where
  ids : s.IdsInRange
  room : s.lastId.toInt + count ≤ Int64.maxValue.toInt

theorem HasRoom.of_succ {s : RuleStore} {count : Nat} (h : s.HasRoom (count + 1)) :
    s.HasRoom count := by
  have := h.room
  exact ⟨h.ids, by omega⟩

end RuleStore

section Step

variable {s t : RuleStore} {r : RuleRequest}

theorem takeIn_eq_ok_iff : takeIn s r = .ok t ↔
    ∃ content, r.toContent = .ok content ∧ ¬ s.HasName content.formattedName ∧
      t = s.added content := by
  simp only [takeIn, bind_eq_ok_iff]
  constructor
  · intro ⟨content, hcontent, ⟨u, id⟩, hadd, hpure⟩
    cases hpure
    obtain ⟨hnone, _, rfl⟩ := RuleStore.add_eq_ok_iff.1 hadd
    exact ⟨content, hcontent, RuleStore.nameOwner?_eq_none_iff_not_hasName.1 hnone, rfl⟩
  · rintro ⟨content, hcontent, hnone, rfl⟩
    have hadd :=
      RuleStore.add_eq_ok_iff.2 ⟨RuleStore.nameOwner?_eq_none_iff_not_hasName.2 hnone, rfl, rfl⟩
    exact ⟨content, hcontent, (s.added content, s.nextId), hadd, rfl⟩

/-- A definition is accepted exactly if it is valid and no rule has its name. -/
theorem exists_takeIn_iff :
    (∃ t, takeIn s r = .ok t) ↔ r.Valid ∧ ¬ s.HasName r.formattedName := by
  simp only [takeIn_eq_ok_iff, RuleRequest.valid_iff]
  constructor
  · intro ⟨_, content, hcontent, hfree, _⟩
    rw [RuleRequest.formattedName_of_toContent hcontent] at hfree
    exact ⟨⟨content, hcontent⟩, hfree⟩
  · intro ⟨⟨content, hcontent⟩, hfree⟩
    rw [← RuleRequest.formattedName_of_toContent hcontent] at hfree
    exact ⟨_, content, hcontent, hfree, rfl⟩

/-- An accepted definition takes its name and leaves the others as they were. -/
theorem hasName_takeIn_iff {count : Nat} (hroom : s.HasRoom (count + 1)) (h : takeIn s r = .ok t)
    {name : String} : t.HasName name ↔ name = r.formattedName ∨ s.HasName name := by
  obtain ⟨content, hcontent, _, rfl⟩ := takeIn_eq_ok_iff.1 h
  have hfree : s.find? s.nextId = none := by
    refine hroom.ids.find?_nextId (Int64.lt_iff_toInt_lt.2 ?_)
    have := hroom.room
    omega
  have hnew : (content.withId s.nextId).formattedName = r.formattedName :=
    RuleRequest.formattedName_of_toContent hcontent
  -- the new id was not in use, so no other rule was replaced
  have hrules (q : Rule) :
      q ∈ (s.added content).rules ↔ q = content.withId s.nextId ∨ q ∈ s.rules := by
    apply RuleStore.mem_store.trans
    refine or_congr_right ⟨And.left, fun hq => ⟨hq, RuleStore.find?_eq_none_iff.1 hfree q hq⟩⟩
  unfold RuleStore.HasName
  simp only [hrules, or_and_right, exists_or, exists_eq_left, hnew]
  exact or_congr_left eq_comm

theorem RuleStore.HasRoom.takeIn {count : Nat} (hroom : s.HasRoom (count + 1))
    (h : takeIn s r = .ok t) : t.HasRoom count := by
  obtain ⟨content, _, hfree, rfl⟩ := takeIn_eq_ok_iff.1 h
  have hwrite : s.Write (s.added content) (some s.nextId) :=
    .add (RuleStore.add_of_free fun q hq hname => hfree ⟨q, hq, hname⟩)
  have hle := hroom.room
  -- the write counts the last id up by one, which uses up the room for one definition
  obtain ⟨hids, hlast⟩ := hroom.ids.write (by omega) hwrite
  refine ⟨hids, ?_⟩
  rw [hlast, Option.toList_some, List.length_singleton]
  omega

end Step

/-! ## Taking in a list -/

theorem checkInto_cons_of_ok {s t : RuleStore} {r : RuleRequest} (h : takeIn s r = .ok t)
    (rest : List RuleRequest) : checkInto s (r :: rest) = .ok () :: checkInto t rest := by
  rw [checkInto, h]

theorem checkInto_cons_of_error {s : RuleStore} {r : RuleRequest} {failure : Failure}
    (h : takeIn s r = .error failure) (rest : List RuleRequest) :
    checkInto s (r :: rest) = .error failure :: checkInto s rest := by
  rw [checkInto, h]

theorem length_checkInto (s : RuleStore) (requests : List RuleRequest) :
    (checkInto s requests).length = requests.length := by
  induction requests generalizing s with
  | nil => rfl
  | cons r rest ih =>
    rw [checkInto]
    split <;> simp [ih]

/-- A definition is accepted exactly if it is valid, no rule had its name at the beginning, and no
    definition with the name was accepted before. -/
theorem getElem?_checkInto_eq_ok_iff {s : RuleStore} {requests : List RuleRequest}
    (hroom : s.HasRoom requests.length) {k : Nat} :
    (checkInto s requests)[k]? = some (.ok ()) ↔ ∃ r ∈ requests[k]?,
      r.Valid ∧ ¬ s.HasName r.formattedName ∧
        ∀ j < k, (checkInto s requests)[j]? = some (.ok ()) →
          ∀ q ∈ requests[j]?, q.formattedName ≠ r.formattedName := by
  -- the rest is taken into the store that the first definition leaves, so the claim has to speak of
  -- any store and not of the empty one
  induction requests generalizing s k with
  | nil => simp [checkInto]
  | cons first rest ih =>
    cases htake : takeIn s first with
    | error failure =>
      have hrefused : ¬ (first.Valid ∧ ¬ s.HasName first.formattedName) := by
        rw [← exists_takeIn_iff, htake]
        simp
      rw [checkInto_cons_of_error htake]
      cases k with
      | zero => simpa using hrefused
      | succ k =>
        -- the store is the same for the rest, and the first definition took no name
        rw [List.getElem?_cons_succ, List.getElem?_cons_succ, ih hroom.of_succ]
        simp only [Nat.forall_lt_succ_left', List.getElem?_cons_zero, List.getElem?_cons_succ,
          Option.some.injEq, reduceCtorEq, false_implies, true_and]
    | ok t =>
      have haccepted : first.Valid ∧ ¬ s.HasName first.formattedName :=
        exists_takeIn_iff.1 ⟨t, htake⟩
      rw [checkInto_cons_of_ok htake]
      cases k with
      | zero => simpa using haccepted
      | succ k =>
        rw [List.getElem?_cons_succ, List.getElem?_cons_succ, ih (hroom.takeIn htake)]
        -- the name that is taken now is the one that the first definition has
        simp only [hasName_takeIn_iff hroom htake, not_or, Nat.forall_lt_succ_left',
          List.getElem?_cons_zero, List.getElem?_cons_succ, true_implies, Option.mem_some_iff,
          forall_eq']
        refine exists_congr fun r => and_congr_right fun _ => and_congr_right fun _ => ?_
        constructor
        · intro ⟨⟨hne, hfree⟩, hbefore⟩
          exact ⟨hfree, Ne.symm hne, hbefore⟩
        · intro ⟨hfree, hne, hbefore⟩
          exact ⟨⟨Ne.symm hne, hfree⟩, hbefore⟩

/-- There is room for as many definitions in an empty store as there are ids. -/
theorem RuleStore.hasRoom_empty {count : Nat} (h : count ≤ Int64.maxValue.toInt) :
    empty.HasRoom count := by
  have hfresh : empty.Fresh := ⟨rfl, rfl⟩
  refine ⟨hfresh.idsInRange, ?_⟩
  rw [hfresh.lastId, Int64.toInt_zero]
  omega

/-! ## The report -/

/-- No failure is worded like an acceptance, since its wording starts with a capital letter. -/
theorem Failure.message_ne_ok (f : Failure) : f.message ≠ "ok" := by
  intro h
  have hhead := congrArg (·.toList.head?) h
  unfold Failure.message at hhead
  cases hkind : f.kind <;> simp [hkind, FailureKind.heading] at hhead

namespace CommandLine

/-- The line of the report about the definition at this place says that it is fine. -/
def ReportedOk (requests : List RuleRequest) (k : Nat) : Prop :=
  ∃ r ∈ requests[k]?, (report requests)[k]? = some (verdictLine k r.name (.ok ()))

instance (requests : List RuleRequest) (k : Nat) : Decidable (ReportedOk requests k) :=
  inferInstanceAs (Decidable (∃ r ∈ requests[k]?, _))

/-- The places of the definitions that are reported to be fine. -/
def okPlaces (requests : List RuleRequest) : Finset Nat :=
  (Finset.range requests.length).filter (ReportedOk requests)

/-- The formatted names of the valid definitions. -/
def validNames (requests : List RuleRequest) : Finset String :=
  ((requests.filter (·.Valid)).map (·.formattedName)).toFinset

theorem verdictLine_eq_ok_iff {k : Nat} {name : String} {verdict : Except Failure Unit} :
    verdictLine k name verdict = verdictLine k name (.ok ()) ↔ verdict = .ok () := by
  constructor
  · intro h
    cases verdict with
    | ok => rfl
    | error f => exact absurd ((String.append_right_inj _).1 h) f.message_ne_ok
  · rintro rfl
    rfl

variable {requests : List RuleRequest} {k : Nat}

theorem getElem?_report : (report requests)[k]? =
    (requests[k]?).bind fun r => (checkAll requests)[k]?.map (verdictLine k r.name) := by
  rw [report, List.getElem?_mapIdx, List.zip, List.getElem?_zipWith]
  cases requests[k]? <;> cases (checkAll requests)[k]? <;> rfl

/-- The report says that a definition is fine exactly if it is accepted. -/
theorem reportedOk_iff : ReportedOk requests k ↔ (checkAll requests)[k]? = some (.ok ()) := by
  unfold ReportedOk
  simp only [getElem?_report]
  constructor
  · intro ⟨r, hr, hline⟩
    rw [Option.mem_def.1 hr, Option.bind_some] at hline
    -- the line is that of some verdict, and tells it from the others
    obtain ⟨verdict, hverdict, hsame⟩ := Option.map_eq_some_iff.1 hline
    rw [hverdict, verdictLine_eq_ok_iff.1 hsame]
  · intro hverdict
    have hk : k < requests.length := by
      obtain ⟨hk, _⟩ := List.getElem?_eq_some_iff.1 hverdict
      rwa [checkAll, length_checkInto] at hk
    exact ⟨requests[k], List.getElem?_eq_getElem hk, by simp [hk, hverdict]⟩

theorem lt_length_of_reportedOk (h : ReportedOk requests k) : k < requests.length := by
  obtain ⟨r, hr, _⟩ := h
  exact (List.getElem?_eq_some_iff.1 hr).1

/-- The report says that a definition is fine exactly if it is valid and no definition that the
    report says is fine came before it with the same formatted name. -/
theorem reportedOk_iff_valid (hfew : requests.length ≤ Int64.maxValue.toInt)
    (hk : k < requests.length) :
    ReportedOk requests k ↔ requests[k].Valid ∧ ∀ j (hj : j < k), ReportedOk requests j →
      requests[j].formattedName ≠ requests[k].formattedName := by
  have hempty (name : String) : ¬ RuleStore.empty.HasName name := by
    simp [RuleStore.HasName, RuleStore.empty]
  rw [reportedOk_iff, checkAll, getElem?_checkInto_eq_ok_iff (RuleStore.hasRoom_empty hfew)]
  simp only [List.getElem?_eq_getElem hk, Option.mem_some_iff, exists_eq_left', hempty,
    not_false_eq_true, true_and]
  refine and_congr_right fun _ => forall_congr' fun j => forall_congr' fun hj => ?_
  rw [← checkAll, ← reportedOk_iff, List.getElem?_eq_getElem (hj.trans hk)]
  simp

/-! ## Counting -/

theorem mem_okPlaces : k ∈ okPlaces requests ↔ ReportedOk requests k := by
  simpa [okPlaces] using lt_length_of_reportedOk

theorem mem_validNames {name : String} :
    name ∈ validNames requests ↔ ∃ r ∈ requests, r.Valid ∧ r.formattedName = name := by
  simp [validNames, and_assoc]

/-- For every valid name exactly one definition is reported to be fine. -/
theorem card_okPlaces (hfew : requests.length ≤ Int64.maxValue.toInt) :
    (okPlaces requests).card = (validNames requests).card := by
  have hlt {k : Nat} (hk : k ∈ okPlaces requests) : k < requests.length :=
    lt_length_of_reportedOk (mem_okPlaces.1 hk)
  refine Finset.card_bij (fun k hk => (requests.get ⟨k, hlt hk⟩).formattedName) ?_ ?_ ?_
  · intro k hk
    have hvalid := ((reportedOk_iff_valid hfew (hlt hk)).1 (mem_okPlaces.1 hk)).1
    exact mem_validNames.2 ⟨_, List.getElem_mem _, hvalid, rfl⟩
  · -- the later one of two with the same name would not be fine
    intro j hj k hk hname
    have hok := ((reportedOk_iff_valid hfew (hlt hk)).1 (mem_okPlaces.1 hk)).2
    have hok' := ((reportedOk_iff_valid hfew (hlt hj)).1 (mem_okPlaces.1 hj)).2
    obtain hlt | heq | hlt := Nat.lt_trichotomy j k
    · -- whichever comes first, the other one has its name and is not fine
      exact absurd hname (hok j hlt (mem_okPlaces.1 hj))
    · exact heq
    · exact absurd hname.symm (hok' k hlt (mem_okPlaces.1 hk))
  · -- if a valid one is not fine, that is because an earlier one with its name is
    intro name hname
    obtain ⟨r, hr, hvalid, rfl⟩ := mem_validNames.1 hname
    obtain ⟨k, hk, rfl⟩ := List.getElem_of_mem hr
    by_cases hok : ReportedOk requests k
    · exact ⟨k, mem_okPlaces.2 hok, rfl⟩
    · simp only [reportedOk_iff_valid hfew hk, hvalid, true_and, not_forall, not_ne_iff] at hok
      obtain ⟨j, hj, hokj, hsame⟩ := hok
      exact ⟨j, mem_okPlaces.2 hokj, hsame⟩

/-- Counting the places of a list at which something holds is counting the items. -/
theorem card_places_eq_countP {α : Type} (p : α → Bool) (items : List α) :
    ((Finset.range items.length).filter fun k => items[k]?.any p).card = items.countP p := by
  have hplaces : (List.range items.length).countP (fun k => items[k]?.any p) = items.countP p := by
    induction items with
    | nil => rfl
    | cons a items ih =>
      simp [List.range_succ_eq_map, List.countP_cons, List.countP_map, Function.comp_def, ih]
  have hfilter : (Finset.range items.length).filter (fun k => items[k]?.any p) =
      ((List.range items.length).filter fun k => items[k]?.any p).toFinset := by
    ext k
    simp
  rw [hfilter, List.toFinset_card_of_nodup (List.nodup_range.filter _),
    ← List.countP_eq_length_filter, hplaces]

/-- What is not reported to be fine is counted as refused. -/
theorem countRefused_add_card (requests : List RuleRequest) :
    countRefused (checkAll requests) + (okPlaces requests).card = requests.length := by
  have hok : (okPlaces requests).card = (checkAll requests).countP (·.isOk) := by
    rw [← card_places_eq_countP, okPlaces, checkAll, length_checkInto]
    congr 1
    refine Finset.filter_congr fun k _ => ?_
    rw [reportedOk_iff, checkAll]
    cases (checkInto .empty requests)[k]? with
    | none => simp
    | some verdict => cases verdict <;> simp [Except.isOk, Except.toBool]
  have hlength : (checkAll requests).length = requests.length := length_checkInto ..
  rw [hok, countRefused, ← hlength, List.length_eq_countP_add_countP (·.isOk)]
  simp [Nat.add_comm]

/-- All names of a list are counted exactly if every definition is valid and all names differ. -/
theorem card_validNames_eq_length_iff : (validNames requests).card = requests.length ↔
    (∀ r ∈ requests, r.Valid) ∧ (requests.map (·.formattedName)).Nodup := by
  have hvalid : requests.filter (·.Valid) = requests ↔ ∀ r ∈ requests, r.Valid := by
    simp [List.filter_eq_self]
  constructor
  · intro hcard
    have hle := List.toFinset_card_le ((requests.filter (·.Valid)).map (·.formattedName))
    have hfilter := List.length_filter_le (fun r : RuleRequest => r.Valid) requests
    rw [List.length_map] at hle
    rw [validNames] at hcard
    have hall : requests.filter (·.Valid) = requests :=
      List.filter_sublist.eq_of_length (by omega)
    rw [hall] at hcard
    refine ⟨hvalid.1 hall, ?_⟩
    rw [← Multiset.coe_nodup, ← Multiset.toFinset_card_eq_card_iff_nodup]
    simpa using hcard
  · intro ⟨hall, hnodup⟩
    rw [validNames, hvalid.2 hall, List.toFinset_card_of_nodup hnodup, List.length_map]

/-- No definition is refused exactly if every one is valid and all names differ. -/
theorem countRefused_eq_zero_iff (hfew : requests.length ≤ Int64.maxValue.toInt) :
    countRefused (checkAll requests) = 0 ↔
      (∀ r ∈ requests, r.Valid) ∧ (requests.map (·.formattedName)).Nodup := by
  have hsum := countRefused_add_card requests
  rw [card_okPlaces hfew] at hsum
  rw [← card_validNames_eq_length_iff]
  omega

/-- As many definitions are refused in any other order. -/
theorem countRefused_perm {others : List RuleRequest}
    (hfew : requests.length ≤ Int64.maxValue.toInt) (h : others.Perm requests) :
    countRefused (checkAll others) = countRefused (checkAll requests) := by
  have hnames : validNames others = validNames requests :=
    List.toFinset_eq_of_perm _ _ ((h.filter _).map _)
  have hsum := countRefused_add_card requests
  have hothers := countRefused_add_card others
  rw [card_okPlaces hfew] at hsum
  rw [card_okPlaces (h.length_eq ▸ hfew), hnames, h.length_eq] at hothers
  omega

/-! ## Runs -/

section Run

variable {arguments : List String} {lookup textOf : String → Option String} {path text : String}
  {settings : Settings}

/-- A run that checks a file reports on its definitions and complains if it refuses some. -/
theorem run_validate (hcommand : Command.ofArguments arguments = .ok (.task (.validate path)))
    (hsettings : Settings.ofVariables lookup = .ok settings) (htext : textOf path = some text)
    (hread : readDefinitions text = some requests) :
    run arguments lookup textOf =
      if countRefused (checkAll requests) = 0 then ⟨0, unlines (report requests), none⟩
      else
        ⟨1, unlines (report requests), some ("Error: "
          ++ toString (countRefused (checkAll requests)) ++ " invalid rule definition(s) in "
          ++ path)⟩ := by
  simp only [run, hcommand, hsettings, Task.outcome, htext, validateFile, hread]

end Run

/-- Definitions of one name as they are written in a file, of which the first has no filters. -/
def coreItems : List String :=
  ["[\"Core\",\"\",true,[],[],[]]", "[\"Core\",\"\",true,[],[],[[\"host\",[7]]]]",
    "[\" core\",\"\",true,[],[],[[\"host\",[8]]]]"]

/-- The definitions that are written there. -/
def coreRequests : List RuleRequest :=
  [⟨"Core", "", true, [], [], []⟩, ⟨"Core", "", true, [], [], [.leaf .host [7]]⟩,
    ⟨" core", "", true, [], [], [.leaf .host [8]]⟩]

/-- The text of a list with these items. -/
def listText (items : List String) : String := "[" ++ ",".intercalate items ++ "]"

/-- The outcome of checking a file with these items. -/
def outcomeFor (items : List String) : Outcome :=
  run ["validate", "rules.json"] (fun _ => none) fun _ => some (listText items)

end CommandLine

end AccessScope
