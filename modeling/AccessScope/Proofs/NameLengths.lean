import AccessScope.Proofs.FieldChecks
import AccessScope.Proofs.NameForms
import AccessScope.Proofs.Predictions

/-!
# Lengths of names

A name is too long if its formatted form has more than 255 characters, but what is stored, and what
the message of the fault shows, is the name as it was given, without the white space around it. This
file says how far the two lengths can be apart. A formatted name is shorter by every blank that
stands directly in front of another one, since a run of white space becomes a single underscore. It
is longer by every `İ`, the only character whose lower case has two characters. Nothing else makes a
difference, so names without runs of white space and without `İ` have at most 255 characters
themselves.

## Key results

- `Text.length_joinRuns`, `Text.length_lower`: how the two steps of formatting change the length
- `RuleName.length_formatted`: the length of a formatted name
- `RuleContent.ofTerms_eq_nameTooLong_iff`: which terms are refused for the length of their name
- `nameTooLong_iff_of_trimmed`: the limit in terms of the names that are stored
- `name_longer_than_its_limit`: names that the two lengths judge differently
-/

namespace AccessScope

/-! ## Lengths of texts -/

namespace Text

/-- How many blanks stand directly in front of another one. -/
def surplusBlanks : List Char → Nat
  | [] => 0
  | c :: s => (if isBlank c ∧ startsBlank s then 1 else 0) + surplusBlanks s

/-- Of each run of blanks all but the last are surplus: one separator is left of it. -/
theorem length_joinRuns (separator : Char) (s : List Char) :
    (joinRuns separator s).length + surplusBlanks s = s.length := by
  induction s with
  | nil => rfl
  | cons c s ih =>
    -- a blank is written unless another one follows, and just then it is surplus
    rw [joinRuns_cons, surplusBlanks, List.length_cons]
    cases hc : isBlank c with
    | false =>
      simp only [Bool.false_eq_true, if_false, false_and, List.length_cons]
      omega
    | true =>
      cases hs : startsBlank s with
      | false =>
        simp only [Bool.false_eq_true, if_true, if_false, and_false, List.length_cons]
        omega
      | true =>
        simp only [if_true, and_self]
        omega

/-- Joining runs keeps every character that is neither blank nor the separator. -/
theorem count_joinRuns {separator d : Char} (s : List Char) (hblank : isBlank d = false)
    (hne : d ≠ separator) : (joinRuns separator s).count d = s.count d := by
  induction s with
  | nil => rfl
  | cons c s ih =>
    rw [joinRuns_cons, List.count_cons]
    by_cases hc : isBlank c
    · -- what is dropped or replaced is a blank, which `d` is not
      have hcd : c ≠ d := by
        rintro rfl
        simp [hc] at hblank
      by_cases hs : startsBlank s
      · simp [hc, hs, ih, hcd]
      · simp [hc, hs, ih, hcd, hne.symm]
    · simp [hc, ih, List.count_cons]

/-- One character alone has a lower case of two characters. -/
theorem length_lowerChar (c : Char) :
    (lowerChar c).length = 1 + if c = '\u0130' then 1 else 0 := by
  rw [lowerChar]
  split <;> rfl

private theorem length_lowerFrom (before s : List Char) :
    (lowerFrom before s).length = s.length + s.count '\u0130' := by
  -- only a sigma looks at what is in front, and its lower case has one character either way
  induction s generalizing before with
  | nil => rfl
  | cons c s ih =>
    rw [lowerFrom_cons, List.length_append, length_lowerAt, length_lowerChar, ih, List.length_cons,
      List.count_cons]
    simp only [beq_iff_eq]
    omega

/-- Lower case is longer by that character wherever it stands. -/
theorem length_lower (s : List Char) : (lower s).length = s.length + s.count '\u0130' :=
  length_lowerFrom [] s

end Text

/-! ## Lengths of names -/

namespace RuleName

/-- A formatted name has the characters of the trimmed name, but for the surplus blanks, and one
    more for each `İ`. -/
theorem length_formatted (raw : String) :
    (formatted raw).length + Text.surplusBlanks (trimmed raw).toList =
      (trimmed raw).length + (trimmed raw).toList.count '\u0130' := by
  have hjoined := Text.length_joinRuns '_' (Text.trim raw.toList)
  have hkept : (Text.joinRuns '_' (Text.trim raw.toList)).count '\u0130' =
      (Text.trim raw.toList).count '\u0130' := Text.count_joinRuns _ (by decide) (by decide)
  -- `İ` is neither white space nor an underscore, so joining leaves as many as there were
  rw [formatted, trimmed, String.length_ofList, String.length_ofList, String.toList_ofList,
    Text.length_lower, hkept]
  omega

theorem trimmed_ofList {cs : List Char} (h : Text.trim cs = cs) :
    trimmed (String.ofList cs) = String.ofList cs := by
  rw [trimmed, String.toList_ofList, h]

theorem length_formatted_ofList {cs : List Char} (h : Text.trim cs = cs) :
    (formatted (String.ofList cs)).length + Text.surplusBlanks cs =
      cs.length + cs.count '\u0130' := by
  have hlength := length_formatted (String.ofList cs)
  rwa [trimmed_ofList h, String.toList_ofList, String.length_ofList] at hlength

end RuleName

/-- Terms are refused for the length of their name exactly if the formatted name is too long, since
    the only fault that comes first is an empty name. The name is told as it was given. -/
theorem RuleContent.ofTerms_eq_nameTooLong_iff {t : RuleTerms} {name : String} :
    ofTerms t = .error (.nameTooLong name) ↔
      name = t.name ∧ 255 < (RuleName.formatted t.name).length := by
  rw [ofTerms_eq_error_iff, RuleTerms.check_eq_error_iff]
  constructor
  · exact And.left
  · intro hhas
    refine ⟨hhas, fun other hother => ?_⟩
    cases other with
    | emptyName =>
      -- an empty name is reported before a long one, but a name cannot be both
      have hnone : (RuleName.formatted t.name).length = 0 := hother
      omega
    | _ => simp [RuleFault.rank]

/-- The message shows the name as it was given, and the limit. -/
theorem RuleFault.message_nameTooLong (name : String) :
    (RuleFault.nameTooLong name).message =
      "Rule name '" ++ name ++ "' exceeds the maximum length of 255 characters" := by
  have hlimit : "' exceeds the maximum length of " ++ (toString RuleName.maxLength ++ " characters")
      = "' exceeds the maximum length of 255 characters" := by
    decide
  calc (RuleFault.nameTooLong name).message
    _ = "Rule name '" ++ name ++ "' exceeds the maximum length of " ++ toString RuleName.maxLength
          ++ " characters" := rfl
    _ = "Rule name '" ++ name ++ ("' exceeds the maximum length of " ++
          (toString RuleName.maxLength ++ " characters")) := by
        rw [String.append_assoc, String.append_assoc]
    _ = _ := congrArg _ hlimit

/-- The limit in terms of the names that are stored. Terms are refused for the length of their name
    exactly if the formatted name has more than 255 characters: if the trimmed name does, when each
    run of white space counts as one character and each `İ` as two. So for a trimmed name without
    runs and without `İ` the limit is 255 characters, and the name of a stored rule can have more
    only by the white space in its runs. The message shows the name as it was given. -/
theorem nameTooLong_iff_of_trimmed (t : RuleTerms) :
    let name := RuleName.trimmed t.name
    let TooLong := ∃ given, RuleContent.ofTerms t = .error (.nameTooLong given)
    (TooLong ↔ 255 < (RuleName.formatted t.name).length) ∧
      (TooLong ↔ 255 + Text.surplusBlanks name.toList < name.length + name.toList.count '\u0130') ∧
      (Text.surplusBlanks name.toList = 0 → '\u0130' ∉ name.toList →
        (TooLong ↔ 255 < name.length)) ∧
      (∀ given, RuleContent.ofTerms t = .error (.nameTooLong given) → given = t.name ∧
        (RuleFault.nameTooLong given).message =
          "Rule name '" ++ t.name ++ "' exceeds the maximum length of 255 characters") ∧
      ∀ w : World, ∀ r ∈ w.store.rules,
        r.name.length + r.name.toList.count '\u0130' ≤ 255 + Text.surplusBlanks r.name.toList := by
  intro name TooLong
  have hformatted : TooLong ↔ 255 < (RuleName.formatted t.name).length := by
    simp only [TooLong, RuleContent.ofTerms_eq_nameTooLong_iff, exists_eq_left]
  have hlength : (RuleName.formatted t.name).length + Text.surplusBlanks name.toList =
      name.length + name.toList.count '\u0130' := RuleName.length_formatted t.name
  have htrimmed : TooLong ↔
      255 + Text.surplusBlanks name.toList < name.length + name.toList.count '\u0130' := by
    rw [hformatted]
    omega
  refine ⟨hformatted, htrimmed, fun hruns hdots => ?_, fun given hgiven => ?_, fun w r _ => ?_⟩
  · rw [htrimmed, hruns, List.count_eq_zero.2 hdots]
    omega
  · obtain ⟨rfl, _⟩ := RuleContent.ofTerms_eq_nameTooLong_iff.1 hgiven
    exact ⟨rfl, RuleFault.message_nameTooLong t.name⟩
  · -- the name of a stored rule is trimmed already, so the same count applies to it
    have hle : (RuleName.formatted r.name).length ≤ 255 := r.acceptable.name_length_le
    have hrule := RuleName.length_formatted r.name
    rw [r.name_trimmed] at hrule
    omega

/-- A name of 255 letters and white space in front of them is within the limit. With one letter more
    it is not, and the message shows the white space, too. -/
theorem nameTooLong_iff_of_trimmed_letters :
    let letters (n : Nat) := List.replicate n 'a'
    let terms (n : Nat) : RuleTerms := ⟨String.ofList (' ' :: letters n), "", true, ∅, ∅, []⟩
    let given := (terms 256).name
    RuleName.trimmed (terms 255).name = String.ofList (letters 255) ∧
      RuleName.trimmed given = String.ofList (letters 256) ∧
      Text.surplusBlanks (letters 255) = 0 ∧ Text.surplusBlanks (letters 256) = 0 ∧
      (∀ n, '\u0130' ∉ letters n) ∧
      (¬ ∃ name, RuleContent.ofTerms (terms 255) = .error (.nameTooLong name)) ∧
      RuleContent.ofTerms (terms 256) = .error (.nameTooLong given) ∧
      (RuleFault.nameTooLong given).message =
        "Rule name '" ++ given ++ "' exceeds the maximum length of 255 characters" := by
  intro letters terms given
  have htrimmed (n : Nat) (h : Text.trim (' ' :: letters n) = letters n) :
      RuleName.trimmed (terms n).name = String.ofList (letters n) := by
    rw [RuleName.trimmed, String.toList_ofList, h]
  have hfirst : RuleName.trimmed (terms 255).name = String.ofList (letters 255) :=
    htrimmed 255 (by decide +kernel)
  have hsecond : RuleName.trimmed given = String.ofList (letters 256) :=
    htrimmed 256 (by decide +kernel)
  have hruns : Text.surplusBlanks (letters 255) = 0 ∧ Text.surplusBlanks (letters 256) = 0 := by
    decide +kernel
  have hdots (n : Nat) : '\u0130' ∉ letters n := by simp [letters]
  obtain ⟨_, _, hwithin, _⟩ := nameTooLong_iff_of_trimmed (terms 255)
  obtain ⟨_, _, hexceeds, htold, _⟩ := nameTooLong_iff_of_trimmed (terms 256)
  rw [hfirst, String.toList_ofList, String.length_ofList, List.length_replicate] at hwithin
  rw [hsecond, String.toList_ofList, String.length_ofList, List.length_replicate] at hexceeds
  obtain ⟨name, hname⟩ := (hexceeds hruns.2 (hdots 256)).2 (by decide)
  obtain ⟨rfl, hmessage⟩ := htold name hname
  exact ⟨hfirst, hsecond, hruns.1, hruns.2, hdots,
    fun h => absurd ((hwithin hruns.1 (hdots 255)).1 h) (by decide), hname, hmessage⟩

/-! ## Names that the lengths judge differently -/

/-- Acceptable terms stay acceptable under any name that is within the limit. -/
theorem RuleTerms.Acceptable.rename {t : RuleTerms} {name : String} (h : t.Acceptable)
    (hlimit : RuleName.WithinLimit name) : Acceptable { t with name } where
  name_ne_empty := by
    intro hempty
    have hpos := hlimit.1
    rw [show RuleName.formatted name = "" from hempty] at hpos
    exact absurd hpos (by decide)
  name_length_le := hlimit.2
  description_length_le := h.description_length_le
  contacts_positive := h.contacts_positive
  contactGroups_positive := h.contactGroups_positive
  roots_differ := h.roots_differ

/-- And a valid request stays valid. -/
theorem RuleRequest.Valid.rename {r : RuleRequest} {name : String} (h : r.Valid)
    (hlimit : RuleName.WithinLimit name) : Valid { r with name } := by
  obtain ⟨hfields, t, content, ht, hcontent⟩ := h
  have hacceptable := RuleContent.exists_ofTerms_iff.1 ⟨content, hcontent⟩
  have hne : r.name ≠ "" := (ChangeRequest.fieldFaults_eq_nil_iff.1 hfields).2.2 _ rfl
  have hrenamed : toTerms { r with name } = .ok { t with name } := by
    rw [toTerms_rename, ht]
    rfl
  obtain ⟨content', hcontent'⟩ := RuleContent.exists_ofTerms_iff.2 (hacceptable.rename hlimit)
  refine ⟨?_, _, content', hrenamed, hcontent'⟩
  have hsame := ChangeRequest.fieldFaults_rename (r := r.toChangeRequest) rfl hne hlimit.ne_empty
  exact hsame.trans hfields

/-- An admin's valid request can be stored, under its trimmed name, if its references are there. -/
theorem World.exists_reachable_of_valid {w : World} {accessGroup : Option String} {caller : Contact}
    {request : RuleRequest} (hfresh : w.store.Fresh) (hadmin : caller.isAdmin)
    (hregisters : w.Registers request.toChangeRequest) (hvalid : request.Valid) :
    ∃ v : World, v.Reachable accessGroup ∧
      ∃ r ∈ v.store.rules, r.name = RuleName.trimmed request.name := by
  let v := w.after accessGroup [.call caller (.create request)]
  obtain ⟨t, rule, counters, htake, hrun⟩ | ⟨failure, _, htake, _⟩ :=
    run_create_of_admin accessGroup hadmin hregisters
  · obtain ⟨content, hcontent, _, rfl⟩ := takeIn_eq_ok_iff.1 htake
    have hname : content.name = RuleName.trimmed request.name := by
      obtain ⟨_, terms, hterms, hmade⟩ := RuleRequest.toContent_eq_ok_iff.1 hcontent
      rw [← RuleRequest.name_of_toTerms hterms]
      exact congrArg RuleTerms.name (RuleContent.fields_of_ofTerms hmade).1
    have hstore : v.store = w.store.added content := congrArg (·.2.store) hrun
    refine ⟨v, ⟨w, _, hfresh, rfl⟩, content.withId w.store.nextId, ?_, hname⟩
    rw [hstore]
    exact RuleStore.mem_store.2 (.inl rfl)
  · -- no name is taken where there are no rules
    obtain ⟨content, hcontent⟩ := RuleRequest.valid_iff.1 hvalid
    obtain hrefused | ⟨_, _, ⟨r, hr, _⟩, _⟩ := takeIn_eq_error_iff.1 htake
    · cases hcontent.symm.trans hrefused
    · rw [hfresh.1] at hr
      cases hr

theorem smallWorld_registers_hostRequest (name : String) :
    smallWorld.Registers (hostRequest name 7).toChangeRequest := by
  have hroot : ∃ c ∈ smallWorld.directory.contacts, c.id = root.id := by decide
  have hhost : (Category.host, (7 : Id)) ∈ smallWorld.store.resources := by decide
  refine ⟨?_, ?_, ?_⟩
  · simpa [RuleRequest.toChangeRequest, hostRequest] using hroot
  · simp [RuleRequest.toChangeRequest, hostRequest]
  · simp [RuleRequest.toChangeRequest, hostRequest, Chain.levels, hhost]

/-- Two letters with 254 spaces between them. -/
def spacedName : List Char := 'a' :: List.replicate 254 ' ' ++ ['b']

/-- All but one of the spaces are surplus. -/
theorem spacedName_lengths :
    Text.trim spacedName = spacedName ∧ spacedName.length = 256 ∧
      (RuleName.formatted (String.ofList spacedName)).length = 3 := by
  have htrim : Text.trim spacedName = spacedName := by decide +kernel
  have hlength : spacedName.length = 256 := by decide +kernel
  have hsurplus : Text.surplusBlanks spacedName = 253 := by decide +kernel
  have hdots : spacedName.count '\u0130' = 0 := by decide +kernel
  have hformatted := RuleName.length_formatted_ofList htrim
  exact ⟨htrim, hlength, by omega⟩

/-- The one letter whose lower case has two characters, 128 times. -/
def dottedName : List Char := List.replicate 128 '\u0130'

theorem dottedName_lengths :
    Text.trim dottedName = dottedName ∧ dottedName.length = 128 ∧
      (RuleName.formatted (String.ofList dottedName)).length = 256 := by
  have htrim : Text.trim dottedName = dottedName := by decide +kernel
  have hlength : dottedName.length = 128 := by decide +kernel
  have hsurplus : Text.surplusBlanks dottedName = 0 := by decide +kernel
  have hdots : dottedName.count '\u0130' = 128 := by decide +kernel
  have hformatted := RuleName.length_formatted_ofList htrim
  exact ⟨htrim, hlength, by omega⟩

/-- A name of 256 characters that rules may have, and one is stored in a world that can be reached.
    A name of 128 characters is refused as too long. -/
theorem name_longer_than_its_limit :
    let spaced := String.ofList spacedName
    let dotted := String.ofList dottedName
    let terms : RuleTerms := ⟨spaced, "", true, ∅, ∅, []⟩
    ((RuleName.trimmed spaced).length = 256 ∧ ∃ c, RuleContent.ofTerms terms = .ok c) ∧
      (RuleName.trimmed dotted ≠ "" ∧ (RuleName.trimmed dotted).length = 128 ∧
        RuleContent.ofTerms { terms with name := dotted } = .error (.nameTooLong dotted)) ∧
      ∃ w : World, w.Reachable none ∧ ∃ r ∈ w.store.rules, r.name.length = 256 := by
  intro spaced dotted terms
  obtain ⟨hspaced, hspacedLength, hfew⟩ := spacedName_lengths
  obtain ⟨hdotted, hdottedLength, hmany⟩ := dottedName_lengths
  have hlong : (RuleName.trimmed spaced).length = 256 := by
    rw [RuleName.trimmed_ofList hspaced, String.length_ofList, hspacedLength]
  have hshort : (RuleName.trimmed dotted).length = 128 := by
    rw [RuleName.trimmed_ofList hdotted, String.length_ofList, hdottedLength]
  have hnotEmpty : RuleName.trimmed dotted ≠ "" := by
    intro hempty
    simp [hempty] at hshort
  have hlimit : RuleName.WithinLimit spaced := by
    rw [RuleName.WithinLimit, hfew]
    decide
  have hmade : ∃ c, RuleContent.ofTerms terms = .ok c := by
    have hnamed : RuleTerms.Acceptable ⟨"Ops", "", true, ∅, ∅, []⟩ :=
      RuleTerms.check_eq_ok_iff.1 (by decide +kernel)
    exact RuleContent.exists_ofTerms_iff.2 (hnamed.rename hlimit)
  have hrefused :
      RuleContent.ofTerms { terms with name := dotted } = .error (.nameTooLong dotted) := by
    have hexceeds : 255 < (RuleName.formatted dotted).length := by
      rw [hmany]
      decide
    exact RuleContent.ofTerms_eq_nameTooLong_iff.2 ⟨rfl, hexceeds⟩
  have hvalid : (hostRequest spaced 7).Valid :=
    RuleRequest.Valid.rename (r := hostRequest "Ops" 7) (by decide +kernel) hlimit
  obtain ⟨w, hw, r, hr, hname⟩ :=
    @World.exists_reachable_of_valid smallWorld none root (hostRequest spaced 7) ⟨rfl, rfl⟩ rfl
      (smallWorld_registers_hostRequest spaced) hvalid
  exact ⟨⟨hlong, hmade⟩, ⟨hnotEmpty, hshort, hrefused⟩, w, hw, r, hr, hname ▸ hlong⟩

end AccessScope
