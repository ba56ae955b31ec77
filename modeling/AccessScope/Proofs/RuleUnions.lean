import AccessScope.Proofs.WorldRuns

/-!
# Unions of lists of rules

A union of two lists of rules is made by putting one rule after the other into an ascending list.
The lists may be in any order, repeat ids, and hold different rules under one id; then the first of
these rules stays. So looking an id up in a union is looking it up in the one list and then in the
other, and that determines the union. Its laws follow from those of looking up.

## Key results

- `find?_unionRules`: what is found in a union under an id
- `unionRules_eq_iff`: unions are compared by what is found in their lists
- `unionRules_assoc`, `unionRules_self`, `unionRules_comm`: the laws of unions
- `unionRules_first_wins`: what a union consists of, and its laws
-/

namespace AccessScope

variable {a b c d : List Rule} {r : Rule}

/-! ## Looking up in a union -/

/-- Under an id a union has the first rule of the two lists. -/
theorem find?_unionRules (a b : List Rule) (id : Id) :
    (unionRules a b).find? (·.id = id) =
      (a.find? (·.id = id)).or (b.find? (·.id = id)) := by
  rw [← List.find?_append]
  refine Option.ext fun r => ?_
  rw [(ascending_unionRules a b).find?_eq_some_iff, mem_unionRules]
  constructor
  · rintro ⟨hfirst, rfl⟩
    exact hfirst
  · intro hfirst
    have hid : r.id = id := by simpa using List.find?_some hfirst
    exact ⟨hid ▸ hfirst, hid⟩

/-- Unions are the same if the same is found in their lists, one after the other. -/
theorem unionRules_eq_iff : unionRules a b = unionRules c d ↔
    ∀ id, (a.find? (·.id = id)).or (b.find? (·.id = id)) =
      (c.find? (·.id = id)).or (d.find? (·.id = id)) := by
  simp only [← find?_unionRules]
  constructor
  · intro h id
    rw [h]
  · exact (ascending_unionRules a b).ext_find? (ascending_unionRules c d)

/-- A union holds of each id the first rule in the two lists. -/
theorem mem_unionRules_iff_first : r ∈ unionRules a b ↔
    ∃ before after, a ++ b = before ++ r :: after ∧ ∀ q ∈ before, q.id ≠ r.id := by
  rw [mem_unionRules, List.find?_eq_some_iff_append]
  simp

/-- The ids in a union are those in the two lists. -/
theorem mem_ids_unionRules {id : Id} : id ∈ (unionRules a b).map (·.id) ↔
    id ∈ a.map (·.id) ∨ id ∈ b.map (·.id) := by
  -- an id occurs in a list exactly if something is found under it
  have hfound (l : List Rule) : id ∈ l.map (·.id) ↔ (l.find? (·.id = id)).isSome := by
    simp [List.find?_isSome]
  rw [hfound, hfound, hfound, find?_unionRules, Option.isSome_or, Bool.or_eq_true]

/-! ## Laws -/

theorem unionRules_assoc (a b c : List Rule) :
    unionRules (unionRules a b) c = unionRules a (unionRules b c) := by
  refine unionRules_eq_iff.2 fun id => ?_
  rw [find?_unionRules, find?_unionRules, Option.or_assoc]

/-- A list adds nothing to itself. -/
theorem unionRules_self (a : List Rule) : unionRules a a = unionRules a [] := by
  refine unionRules_eq_iff.2 fun id => ?_
  rw [Option.or_self, List.find?_nil, Option.or_none]

/-- Lists that agree about the ids that they share can change places. -/
theorem unionRules_comm (h : ∀ r ∈ a, ∀ q ∈ b, r.id = q.id → r = q) :
    unionRules a b = unionRules b a := by
  refine unionRules_eq_iff.2 fun id => ?_
  cases ha : a.find? (·.id = id) with
  | none => rw [Option.none_or, Option.or_none]
  | some r =>
    cases hb : b.find? (·.id = id) with
    | none => rfl
    | some q =>
      -- both lists have a rule under this id, so they agree about it
      have hr : r.id = id := by simpa using List.find?_some ha
      have hq : q.id = id := by simpa using List.find?_some hb
      rw [h r (List.mem_of_find?_eq_some ha) q (List.mem_of_find?_eq_some hb) (hr.trans hq.symm)]

/-- A union of two lists of rules, whatever they are, is in strictly ascending order of the ids. Its
    ids are those in either list, and each of its rules is the first one with its id in the one list
    followed by the other. So unions can be grouped in any way, a list adds nothing to itself, and
    lists that hold the same rule wherever they share an id can change places. -/
theorem unionRules_first_wins (a b c : List Rule) :
    ((unionRules a b).Pairwise (fun r q => r.id < q.id) ∧
      (∀ id, id ∈ (unionRules a b).map (·.id) ↔ id ∈ a.map (·.id) ∨ id ∈ b.map (·.id)) ∧
      ∀ r, r ∈ unionRules a b ↔
        ∃ before after, a ++ b = before ++ r :: after ∧ ∀ q ∈ before, q.id ≠ r.id) ∧
    unionRules (unionRules a b) c = unionRules a (unionRules b c) ∧
    unionRules a a = unionRules a [] ∧
    ((∀ r ∈ a, ∀ q ∈ b, r.id = q.id → r = q) → unionRules a b = unionRules b a) := by
  refine ⟨⟨ascending_unionRules a b, ?_, ?_⟩, unionRules_assoc a b c, unionRules_self a,
    unionRules_comm⟩
  · exact fun id => mem_ids_unionRules
  · exact fun r => mem_unionRules_iff_first

/-- Two stored rules in reverse and one of them again make the same union whichever list comes
    first. A rule from elsewhere with the id of one of them does not: of the two, the first one
    stays. -/
theorem unionRules_first_wins_stored :
    let stored := pairWorld.store.rules
    let elsewhere := (smallWorld.after none [.call root (.create (hostRequest "Dev" 8))]).store.rules
    (∀ r ∈ stored.reverse, ∀ q ∈ stored.take 1, r.id = q.id → r = q) ∧
      unionRules stored.reverse (stored.take 1) = unionRules (stored.take 1) stored.reverse ∧
      (unionRules stored elsewhere).map (fun r => (r.id, r.name)) = [(1, "Ops"), (2, "Dev")] ∧
      (unionRules elsewhere stored).map (fun r => (r.id, r.name)) = [(1, "Dev"), (2, "Dev")] := by
  intro stored elsewhere
  have hagree : ∀ r ∈ stored.reverse, ∀ q ∈ stored.take 1, r.id = q.id → r = q := by
    intro r hr q hq hid
    exact pairWorld.store.ascending.eq_of_key (List.mem_reverse.1 hr) (List.mem_of_mem_take hq) hid
  obtain ⟨_, _, _, hcomm⟩ := unionRules_first_wins stored.reverse (stored.take 1) []
  exact ⟨hagree, hcomm hagree, by decide +kernel, by decide +kernel⟩

end AccessScope
