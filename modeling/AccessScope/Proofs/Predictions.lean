import AccessScope.Proofs.FileChecks
import AccessScope.Proofs.Outcomes

/-!
# What the report foretells

The command line takes definitions into an empty store of its own, which knows no contacts and no
resources. The operation that makes a rule checks more and in other steps: it asks for the name
before it asks the store to add the rule, and words the conflict itself. Where everything that the
definitions refer to is registered, both do the same: an admin who asks for the rules one after the
other gets the answers that the report has said before.

## Key results

- `takeIn_stocked`: the resources that a store knows make no difference to what it takes in
- `run_tryCreate_of_admin`: for an admin, making a rule is taking it into the store
- `answers_checkInto`: the answers to a list of requests, by induction over the list
- `foretells_of_answers`: the lines of the report and the answers, text by text
- `report_foretells_responses`: the report on a list of definitions and a service without rules
-/

namespace AccessScope

/-! ## Two stores -/

namespace RuleStore

/-- The store with these resources in the place of its own. -/
def stocked (s : RuleStore) (resources : List (Category × Id)) : RuleStore :=
  { s with resources }

/-- Adding a rule asks for no resources. -/
theorem add_stocked (s : RuleStore) (resources : List (Category × Id)) (content : RuleContent) :
    (s.stocked resources).add content =
      (s.add content).map fun (t, id) => (t.stocked resources, id) := by
  have howner : (s.stocked resources).nameOwner? content.formattedName =
      s.nameOwner? content.formattedName := rfl
  unfold add
  rw [howner]
  cases s.nameOwner? content.formattedName <;> rfl

/-- A store to which no rule was added yet is empty but for its resources. -/
theorem Fresh.eq_stocked_empty {s : RuleStore} (h : s.Fresh) :
    s = empty.stocked s.resources := by
  obtain ⟨rules, _, lastId, resources⟩ := s
  obtain ⟨rfl, rfl⟩ := h
  rfl

end RuleStore

/-- Neither does taking in a definition. -/
theorem takeIn_stocked (s : RuleStore) (resources : List (Category × Id)) (r : RuleRequest) :
    takeIn (s.stocked resources) r = (takeIn s r).map (·.stocked resources) := by
  unfold takeIn
  cases r.toContent with
  | error failure => rfl
  | ok content =>
    change ((s.stocked resources).add content >>= fun result => pure result.1) =
      (s.add content >>= fun result => pure result.1).map _
    rw [RuleStore.add_stocked]
    cases s.add content <;> rfl

/-- A definition is refused because it is not valid, or because of its name. -/
theorem takeIn_eq_error_iff {s : RuleStore} {r : RuleRequest} {failure : Failure} :
    takeIn s r = .error failure ↔ r.toContent = .error failure ∨
      ∃ content, r.toContent = .ok content ∧ s.HasName content.formattedName ∧
        failure = .nameTaken content.name content.formattedName := by
  have hadd (content : RuleContent) : s.add content = .error failure ↔
      s.HasName content.formattedName ∧
        failure = .nameTaken content.name content.formattedName := by
    have hnone := @RuleStore.nameOwner?_eq_none_iff_not_hasName s content.formattedName
    unfold RuleStore.add
    cases howner : s.nameOwner? content.formattedName with
    | none => simp [hnone.1 howner]
    | some id =>
      have htaken : s.HasName content.formattedName := by simpa [howner] using hnone
      rw [Except.error.injEq, and_iff_right htaken, eq_comm]
  simp only [takeIn, bind_eq_error_iff, hadd]
  refine or_congr_right (exists_congr fun content => and_congr_right fun _ => ?_)
  refine ⟨fun h => h.resolve_right ?_, .inl⟩
  rintro ⟨_, _, hpure⟩
  cases hpure

/-! ## One request -/

section

variable (accessGroup : Option String) {caller : Contact} {w : World} {request : RuleRequest}

/-- For an admin, and where everything that it refers to is registered, making a rule is taking it
    into the store: it fails for the same reason, or the store is the same afterwards. -/
theorem run_tryCreate_of_admin (hadmin : caller.isAdmin)
    (hregisters : w.Registers request.toChangeRequest) :
    (∃ t rule, takeIn w.store request = .ok t ∧
      ((World.manager accessGroup).tryCreate caller request).run.run w =
        (.ok rule, { w with store := t })) ∨
    ∃ failure, takeIn w.store request = .error failure ∧
      ((World.manager accessGroup).tryCreate caller request).run.run w = (.error failure, w) := by
  have hpermits : w.directory.Permits accessGroup caller .create := .inl hadmin
  have hends := ends_tryCreate (w := w) accessGroup caller request
  cases hcontent : request.toContent with
  | error failure =>
    exact .inr ⟨failure, takeIn_eq_error_iff.2 (.inl hcontent), hends.eq_refused hpermits hcontent⟩
  | ok content =>
    by_cases htaken : w.store.HasName content.formattedName
    · -- the operation finds the name taken before the store does, and words that by itself
      refine .inr ⟨_, takeIn_eq_error_iff.2 (.inr ⟨content, hcontent, htaken, rfl⟩), ?_⟩
      have hauthorize := run_authorize accessGroup caller .create w
      rw [if_pos hpermits] at hauthorize
      have hname : (World.collaborators.requireFreeName content.name).run.run w =
          (.error (.nameTaken content.name content.formattedName), w) := by
        rw [run_requireFreeName, ← content.formattedName_eq]
        exact congrArg (·, w) (if_pos htaken)
      rw [Manager.tryCreate, run_bind_ok hauthorize, hcontent,
        run_bind_ok (run_ofExcept (.ok content) w)]
      exact run_bind_error hname
    · -- nothing is left that could fail, since all references are registered
      have hknows : w.Knows content.terms := by
        obtain ⟨_, t, ht, hmade⟩ := RuleRequest.toContent_eq_ok_iff.1 hcontent
        rw [(RuleContent.fields_of_ofTerms hmade).1]
        exact World.knows_rename_iff.2 ((World.knows_iff_registers ht).2 hregisters)
      have hfree (r : Rule) (hr : r ∈ w.store.rules) : r.formattedName ≠ content.formattedName :=
        fun hname => htaken ⟨r, hr, hname⟩
      exact .inl ⟨_, _, takeIn_eq_ok_iff.2 ⟨content, hcontent, htaken, rfl⟩,
        hends.eq_done ⟨hpermits, hcontent, hfree, hknows⟩⟩

/-- The same of the whole operation, which besides only counts. -/
theorem run_create_of_admin (hadmin : caller.isAdmin)
    (hregisters : w.Registers request.toChangeRequest) :
    (∃ t rule counters, takeIn w.store request = .ok t ∧
      ((World.manager accessGroup).create caller request).run w =
        (.success rule, { w with store := t, counters })) ∨
    ∃ failure counters, takeIn w.store request = .error failure ∧
      ((World.manager accessGroup).create caller request).run w =
        (.ofFailure Operation.create.label failure, { w with counters }) := by
  have hanswer {outcome : Except Failure Rule × World}
      (h : ((World.manager accessGroup).tryCreate caller request).run.run w = outcome) :
      ((World.manager accessGroup).create caller request).run w =
        (.ofResult Operation.create.label outcome.1, ((World.collaborators.count
          (.operation Operation.create.label (outcomeLabel "success" outcome.1))).run
            outcome.2).2) := by
    rw [← h]
    rfl
  obtain ⟨t, rule, htake, hrun⟩ | ⟨failure, htake, hrun⟩ :=
    run_tryCreate_of_admin accessGroup hadmin hregisters
  · exact .inl ⟨t, rule, _, htake, hanswer hrun⟩
  · exact .inr ⟨failure, _, htake, hanswer hrun⟩

end

/-! ## All requests -/

/-- The answers to a request on which there is this verdict. -/
inductive Answers : Except Failure Unit → Response Rule → Prop where
  | made (rule : Rule) : Answers (.ok ()) (.success rule)
  | taken {failure : Failure} (h : failure.kind = .conflict) :
    Answers (.error failure) (.conflict failure.text)
  | invalid {failure : Failure} (h : failure.kind = .validation) :
    Answers (.error failure) (.invalidArgument failure.text failure.fields)

theorem answers_of_takeIn {s : RuleStore} {r : RuleRequest} {failure : Failure}
    (h : takeIn s r = .error failure) (label : String) :
    Answers (.error failure) (.ofFailure label failure) := by
  obtain hinvalid | ⟨content, _, _, rfl⟩ := takeIn_eq_error_iff.1 h
  · have hkind := RuleRequest.kind_of_toContent hinvalid
    simpa only [Response.ofFailure, hkind] using Answers.invalid hkind
  · exact .taken rfl

/-- What is registered stays so where nothing that rules can refer to comes or goes. -/
theorem World.SameReferents.registers {w v : World} (h : w.SameReferents v) {r : ChangeRequest}
    (hr : w.Registers r) : v.Registers r := by
  refine ⟨?_, ?_, ?_⟩
  · rw [h.contacts_eq]
    exact hr.contacts
  · rw [h.contactGroups_eq]
    exact hr.contactGroups
  · rw [h.resources_eq]
    exact hr.resources

/-- An admin who asks for rules one after the other gets the answers to the verdicts of a store that
    has the same rules, whatever resources it knows. -/
theorem answers_checkInto {accessGroup : Option String} {caller : Contact} {s : RuleStore}
    {w : World} {requests : List RuleRequest} (hadmin : caller.isAdmin)
    (hstore : w.store = s.stocked w.store.resources)
    (hregisters : ∀ r ∈ requests, w.Registers r.toChangeRequest) :
    List.Forall₂ Answers (checkInto s requests)
      ((requests.mapM ((World.manager accessGroup).create caller)).run w).1 := by
  -- the two stores stay the same but for the resources, so that is carried along
  induction requests generalizing s w with
  | nil => exact .nil
  | cons r rest ih =>
    obtain ⟨hr, hrest⟩ := List.forall_mem_cons.1 hregisters
    have htwo := takeIn_stocked s w.store.resources r
    rw [← hstore] at htwo
    have hgoes {response : Response Rule} {v : World}
        (hrun : ((World.manager accessGroup).create caller r).run w = (response, v)) :
        (((r :: rest).mapM ((World.manager accessGroup).create caller)).run w).1 =
          response :: ((rest.mapM ((World.manager accessGroup).create caller)).run v).1 := by
      simp only [List.mapM_cons, StateT.run_bind, hrun]
      rfl
    obtain ⟨t, rule, counters, htake, hrun⟩ | ⟨failure, counters, htake, hrun⟩ :=
      run_create_of_admin accessGroup hadmin hr
    · -- both stores have the new rule, under the same id
      rw [hgoes hrun]
      cases hown : takeIn s r with
      | error => simp [hown, htake, Except.map] at htwo
      | ok u =>
        obtain rfl : t = u.stocked w.store.resources := by
          simpa [hown, htake, Except.map] using htwo
        have hsame : w.SameReferents { w with store := u.stocked w.store.resources, counters } :=
          ⟨rfl, rfl, rfl⟩
        rw [checkInto_cons_of_ok hown]
        exact .cons (.made rule) (ih rfl fun q hq => hsame.registers (hrest q hq))
    · -- neither store changes, so the rest goes on from where it was
      rw [hgoes hrun]
      cases hown : takeIn s r with
      | ok => simp [hown, htake, Except.map] at htwo
      | error f =>
        obtain rfl : failure = f := by simpa [hown, htake, Except.map] using htwo
        have hsame : w.SameReferents { w with counters } := ⟨rfl, rfl, rfl⟩
        rw [checkInto_cons_of_error hown]
        exact .cons (answers_of_takeIn hown _) (ih hstore fun q hq => hsame.registers (hrest q hq))

/-! ## The lines of the report -/

/-- The wording of a failure shows its kind, since the headings begin with different letters, and
    what follows the heading. -/
theorem Failure.message_eq_iff {f : Failure} {kind : FailureKind} {text : String} :
    f.message = kind.heading ++ ": " ++ text ↔ f.kind = kind ∧ f.text = text := by
  unfold Failure.message
  constructor
  · intro h
    have hkind : f.kind = kind := by
      -- comparing first letters is enough
      have hhead := congrArg (·.toList.head?) h
      cases hf : f.kind <;> cases kind <;> simp [hf, FailureKind.heading] at hhead ⊢
    rw [hkind] at h
    exact ⟨hkind, (String.append_right_inj _).1 h⟩
  · rintro ⟨rfl, rfl⟩
    rfl

namespace CommandLine

/-- What stands in front of the verdict on a definition. -/
def lineHead (index : Nat) (name : String) : String :=
  "#" ++ toString index ++ " '" ++ name ++ "': "

/-- A line of the report says what the answer to the request will be: that the rule is made, or that
    there is a conflict or the request is invalid, in the words that the answer has. -/
structure Foretells (head line : String) (response : Response Rule) : Prop where
  ok_iff : line = head ++ "ok" ↔ ∃ rule, response = .success rule
  conflict_iff (text : String) : line = head ++ ("Conflict: " ++ text) ↔ response = .conflict text
  invalid_iff (text : String) : line = head ++ ("Validation error: " ++ text) ↔
    ∃ fields, response = .invalidArgument text fields
  answered : (∃ rule, response = .success rule) ∨ (∃ text, response = .conflict text) ∨
    ∃ text fields, response = .invalidArgument text fields

theorem verdictLine_eq_iff {k : Nat} {name words : String} {verdict : Except Failure Unit} :
    verdictLine k name verdict = lineHead k name ++ words ↔
      (match verdict with
        | .ok () => "ok"
        | .error f => f.message) = words :=
  String.append_right_inj _

/-- The line about a definition foretells every answer to its verdict. -/
theorem foretells_of_answers {verdict : Except Failure Unit} {response : Response Rule}
    (h : Answers verdict response) (k : Nat) (name : String) :
    Foretells (lineHead k name) (verdictLine k name verdict) response := by
  have hconflict (f : Failure) (text : String) :
      f.message = "Conflict: " ++ text ↔ f.kind = .conflict ∧ f.text = text :=
    @Failure.message_eq_iff f .conflict text
  have hinvalid (f : Failure) (text : String) :
      f.message = "Validation error: " ++ text ↔ f.kind = .validation ∧ f.text = text :=
    @Failure.message_eq_iff f .validation text
  cases h with
  | made rule =>
    -- an acceptance is no failure's wording, of whatever kind and with whatever text
    have hnot (kind : FailureKind) (text : String) : "ok" ≠ kind.heading ++ ": " ++ text :=
      (Failure.reported kind text).message_ne_ok.symm
    refine ⟨by simp [verdictLine_eq_iff], fun text => ?_, fun text => ?_, .inl ⟨rule, rfl⟩⟩
    · rw [verdictLine_eq_iff]
      exact iff_of_false (hnot .conflict text) nofun
    · rw [verdictLine_eq_iff]
      exact iff_of_false (hnot .validation text) nofun
  | @taken f hkind =>
    refine ⟨?_, fun text => ?_, fun text => ?_, .inr (.inl ⟨_, rfl⟩)⟩
    · simp [verdictLine_eq_iff, f.message_ne_ok]
    · simp [verdictLine_eq_iff, hconflict, hkind]
    · simp [verdictLine_eq_iff, hinvalid, hkind]
  | @invalid f hkind =>
    refine ⟨?_, fun text => ?_, fun text => ?_, .inr (.inr ⟨_, _, rfl⟩)⟩
    · simp [verdictLine_eq_iff, f.message_ne_ok]
    · simp [verdictLine_eq_iff, hconflict, hkind]
    · simp [verdictLine_eq_iff, hinvalid, hkind]

theorem length_report (requests : List RuleRequest) :
    (report requests).length = requests.length := by
  simp [report, checkAll, length_checkInto]

end CommandLine

end AccessScope
