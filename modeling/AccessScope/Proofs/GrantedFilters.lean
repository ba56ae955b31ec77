import AccessScope.Proofs.FilterFaults
import AccessScope.Proofs.Joining
import Mathlib.Data.List.Induction
import Mathlib.Data.List.Nodup

/-!
# Granted filters

A contact is granted the filters of its rules that are in force, each filter once. They are
collected rule by rule, and a filter that was collected before is passed over. Of such a collection
nothing is left but the first copies of what was gone through: going one item further keeps it or
passes it over, and the first copies of one more item do the same. Two filters are copies of each
other if all their levels are the same, however far they agree from the root.

## Key results

- `firstCopies`, `firstCopies_concat`: the items of a list that none in front of them equals
- `foldl_collect`: passing over what was collected before leaves the first copies
- `grantedFilters_eq_foldl`: the filters of rules are collected rule by rule
- `effectiveFilters_exact`: the filters granted to a contact, for every world and every contact
-/

namespace AccessScope

/-! ## First copies -/

section FirstCopies

variable {α : Type} [DecidableEq α]

/-- The items of a list that no item in front of them equals. -/
def firstCopies (l : List α) : List α :=
  (l.zipIdx.filter fun (a, i) => a ∉ l.take i).map (·.1)

/-- A further item is a first copy unless it is in the list already. The items in front of it are
    first copies as before. -/
theorem firstCopies_concat (l : List α) (a : α) :
    firstCopies (l ++ [a]) = if a ∈ l then firstCopies l else firstCopies l ++ [a] := by
  -- what stands in front of an earlier place is the same in both lists
  have hbefore : l.zipIdx.filter (fun (b, i) => b ∉ (l ++ [a]).take i) =
      l.zipIdx.filter fun (b, i) => b ∉ l.take i := by
    apply List.filter_congr
    intro (b, i) hb
    have hi : i < l.length := by simpa using (List.mem_zipIdx hb).2.1
    have htake : (l ++ [a]).take i = l.take i := List.take_append_of_le_length (Nat.le_of_lt hi)
    simp only [htake]
  unfold firstCopies
  rw [List.zipIdx_append, List.filter_append, List.map_append, hbefore]
  by_cases ha : a ∈ l <;> simp [ha]

theorem mem_firstCopies {l : List α} {a : α} : a ∈ firstCopies l ↔ a ∈ l := by
  induction l using List.reverseRecOn with
  | nil => rfl
  | append_singleton l b ih =>
    rw [firstCopies_concat]
    by_cases hb : b ∈ l
    · -- passing over the last item loses nothing
      rw [if_pos hb, ih, List.mem_append, List.mem_singleton]
      exact ⟨.inl, fun h => h.elim id fun he => he ▸ hb⟩
    · rw [if_neg hb, List.mem_append, List.mem_append, ih]

theorem nodup_firstCopies (l : List α) : (firstCopies l).Nodup := by
  induction l using List.reverseRecOn with
  | nil => exact List.nodup_nil
  | append_singleton l b ih =>
    rw [firstCopies_concat]
    split
    · exact ih
    · next hb =>
      have hnew : b ∉ firstCopies l := mt mem_firstCopies.1 hb
      rw [← List.concat_eq_append]
      exact ih.concat hnew

/-- Adds an item to what was collected, unless it was collected before. -/
def collect (collected : List α) (a : α) : List α :=
  if a ∈ collected then collected else collected ++ [a]

/-- Collecting one item after the other leaves the first copies. -/
theorem foldl_collect (l : List α) : l.foldl collect [] = firstCopies l := by
  induction l using List.reverseRecOn with
  | nil => rfl
  | append_singleton l a ih =>
    rw [List.foldl_append, ih, firstCopies_concat]
    simp only [List.foldl_cons, List.foldl_nil, collect, mem_firstCopies]

/-- Erasing what comes again leaves the first copies. -/
theorem eraseDups_eq_firstCopies (l : List α) : l.eraseDups = firstCopies l := by
  induction l using List.reverseRecOn with
  | nil => rfl
  | append_singleton l a ih =>
    rw [List.eraseDups_append, ih, firstCopies_concat]
    by_cases ha : a ∈ l <;> simp [List.removeAll, List.eraseDups_cons, ha]

end FirstCopies

/-! ## Rule by rule -/

/-- The filters that rules in force have, rule by rule. -/
def carriedFilters (rules : List Rule) : List Filter :=
  (rules.filter (·.isEnabled)).flatMap (·.filters)

/-- Adds the filters of a rule to those collected, unless the rule is not in force. -/
def Rule.collectFilters (collected : List Filter) (r : Rule) : List Filter :=
  if r.isEnabled then r.filters.foldl collect collected else collected

/-- Going through the rules one by one is going through the filters that they carry. -/
theorem foldl_collectFilters (rules : List Rule) (collected : List Filter) :
    rules.foldl Rule.collectFilters collected = (carriedFilters rules).foldl collect collected := by
  induction rules generalizing collected with
  | nil => rfl
  | cons r rules ih =>
    rw [List.foldl_cons, ih, carriedFilters, carriedFilters, Rule.collectFilters, List.filter_cons]
    split
    · rw [List.flatMap_cons, List.foldl_append]
    · rfl

theorem grantedFilters_eq_firstCopies (rules : List Rule) :
    grantedFilters rules = firstCopies (carriedFilters rules) :=
  eraseDups_eq_firstCopies _

/-- The granted filters are those that are collected when the rules are gone through one by one. -/
theorem grantedFilters_eq_foldl (rules : List Rule) :
    grantedFilters rules = rules.foldl Rule.collectFilters [] := by
  rw [grantedFilters_eq_firstCopies, foldl_collectFilters, foldl_collect]

/-- Two filters are the same exactly if all their levels are. -/
theorem Filter.eq_iff_levels {f g : Filter} : f = g ↔ f.levels = g.levels := by
  constructor
  · intro h
    rw [h]
  · intro h
    exact Filter.ext (Chain.ext_levels h)

/-! ## Filters of a contact -/

/-- The filters that are granted to a contact, in every world. Going through the rules that reach
    the contact, by ascending id, those in force add their filters, each in its own order, unless
    they were added before. So the granted filters are the first copies of all filters that these
    rules have, no two of them have the same levels, a filter is granted exactly if a rule in force
    that reaches the contact has it, and one that only rules not in force have is not granted. -/
theorem effectiveFilters_exact (w : World) (contact : Contact) :
    ∃ rules filters, w.effectiveRules contact = .ok rules ∧
      w.effectiveFilters contact = .ok filters ∧
      rules.Pairwise (fun r q => r.id < q.id) ∧
      (∀ r, r ∈ rules ↔ r ∈ w.store.rules ∧ r.Reaches w.directory contact) ∧
      filters = rules.foldl Rule.collectFilters [] ∧
      filters = firstCopies (carriedFilters rules) ∧
      filters.Pairwise (fun f g => f.levels ≠ g.levels) ∧
      (∀ f, f ∈ filters ↔ ∃ r ∈ rules, r.isEnabled ∧ f ∈ r.filters) ∧
      ∀ f, (∀ r ∈ rules, f ∈ r.filters → ¬ r.isEnabled) → f ∉ filters := by
  let rules := w.rulesFor contact
  have hcopies : grantedFilters rules = firstCopies (carriedFilters rules) :=
    grantedFilters_eq_firstCopies rules
  refine ⟨rules, grantedFilters rules, w.effectiveRules_eq contact, w.effectiveFilters_eq contact,
    World.ascending_rulesFor, fun r => World.mem_rulesFor, grantedFilters_eq_foldl rules, hcopies,
    ?_, fun f => mem_grantedFilters, ?_⟩
  · -- equal levels would make two granted filters the same, and no filter comes twice
    have hnodup : (grantedFilters rules).Nodup := hcopies ▸ nodup_firstCopies _
    exact hnodup.imp fun hne => mt Filter.eq_iff_levels.2 hne
  · intro f hoff hf
    obtain ⟨r, hr, henabled, hcarried⟩ := mem_grantedFilters.1 hf
    exact hoff r hr hcarried henabled

/-- The small world with a service and four rules for the admin. The first rule and the last one
    are for one host. The second is not in force, and for the other host. The third is for the
    service on the first host, and for both hosts. -/
def sharedWorld : World :=
  { smallWorld with store := smallWorld.store.withResources .service [20] }.after none
    [.call root (.create (hostRequest "Ops" 7)),
      .call root (.create { hostRequest "Off" 8 with isEnabled := false }),
      .call root (.create { hostRequest "Both" 7 with
        filters := [.narrowed .host [7] (.leaf .service [20]), .leaf .host [8, 7]] }),
      .call root (.create (hostRequest "Again" 7))]

/-- The admin is granted the first host once, the service on it as well, and both hosts, but not the
    other host alone. -/
theorem effectiveFilters_exact_shared_host :
    ∃ filters f, sharedWorld.effectiveFilters root = .ok filters ∧
      filters.map (·.levels) = [[(.host, .ofList [7])],
        [(.host, .ofList [7]), (.service, .ofList [20])], [(.host, .ofList [7, 8])]] ∧
      (∃ r ∈ sharedWorld.store.rules, f ∈ r.filters) ∧ f ∉ filters := by
  obtain ⟨rules, filters, _, hfilters, _, hrules, _, _, _, _, hoff⟩ :=
    effectiveFilters_exact sharedWorld root
  have hgranted : filters = grantedFilters (sharedWorld.rulesFor root) :=
    Except.ok.inj (hfilters.symm.trans (sharedWorld.effectiveFilters_eq root))
  have hcarried : ∃ r ∈ sharedWorld.store.rules, ∃ f ∈ r.filters,
      f.levels = [(.host, .ofList [8])] := by decide +kernel
  have hdisabled : ∀ r ∈ sharedWorld.store.rules, ∀ f ∈ r.filters,
      f.levels = [(.host, .ofList [8])] → ¬ r.isEnabled := by decide +kernel
  obtain ⟨r, hr, f, hf, hlevels⟩ := hcarried
  have hnot : f ∉ filters := by
    apply hoff
    intro q hq hfq
    exact hdisabled q ((hrules q).1 hq).1 f hfq hlevels
  refine ⟨filters, f, hfilters, ?_, ⟨r, hr, hf⟩, hnot⟩
  rw [hgranted]
  decide +kernel

end AccessScope
