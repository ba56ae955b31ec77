import AccessScope.Filter.Basic

/-!
# The language of filters

A draft is checked level by level, each against its parent only. This file shows which sequences of
categories the checks let through as a whole: `all` alone, `metaService` alone, or a selection of
`Category.ladder` in its order. The ladder is a total order, so a chain that passes never names a
category twice, has at most six levels, and passes still when levels are left out of it.

## Key results

- `cons_sublist_below`: one step of the table is one step down the ladder
- `Chain.lawful_iff_levels`: a chain is lawful if its levels are and its categories go down the
  ladder
- `Draft.check_eq_ok_iff_grammar`: the drafts that pass, said without the table
-/

namespace AccessScope

/-! ## The ladder of categories -/

namespace Category

/-- The categories that can stand in one chain with others, each above those that may narrow it. -/
def ladder : List Category :=
  [hostGroup, hostCategory, host, serviceGroup, serviceCategory, service]

/-- The categories further down the ladder; none for a category that is not on it. -/
def below (c : Category) : List Category :=
  (ladder.dropWhile (· ≠ c)).tail

/-- The table admits exactly what stands further down the ladder. -/
theorem mem_below_iff {c d : Category} : d ∈ c.below ↔ c.admits d := by
  cases c <;> cases d <;> decide

/-- What stands below a category further down is what is left of the ladder behind it. -/
theorem tail_dropWhile_below {c d : Category} (h : d ∈ c.below) :
    (c.below.dropWhile (· ≠ d)).tail = d.below := by
  revert h
  cases c <;> cases d <;> decide

end Category

/-- A selection of a list starts with one of its members and goes on behind the first place where
    that stands. -/
theorem cons_sublist_iff_tail {α : Type} [DecidableEq α] {a : α} {as l : List α} :
    (a :: as).Sublist l ↔ a ∈ l ∧ as.Sublist (l.dropWhile (· ≠ a)).tail := by
  induction l with
  | nil => simp
  | cons b l ih =>
    by_cases hab : b = a
    · subst hab
      simp
    · have hba : ¬ a = b := fun h => hab h.symm
      rw [List.sublist_cons_iff, ih]
      simp [hab, hba]

/-- One step of the table is one step down the ladder. -/
theorem cons_sublist_below {c d : Category} {ds : List Category} :
    (d :: ds).Sublist c.below ↔ c.admits d ∧ ds.Sublist d.below := by
  rw [cons_sublist_iff_tail, Category.mem_below_iff]
  refine and_congr_right fun hd => ?_
  rw [Category.tail_dropWhile_below (Category.mem_below_iff.2 hd)]

/-- A way down from a chosen category: it has no way down, or it is on the ladder. -/
theorem descends_iff (c : Category) (cs : List Category) :
    (∀ d ∈ c :: cs, d ≠ .unchosen) ∧ cs.Sublist c.below ↔
      c :: cs = [.all] ∨ c :: cs = [.metaService] ∨ (c :: cs).Sublist Category.ladder := by
  -- on the ladder no category is the unchosen one, and off it `below` is empty
  have hladder : (c :: cs).Sublist Category.ladder ↔
      c ∈ Category.ladder ∧ cs.Sublist c.below := cons_sublist_iff_tail
  have hchosen : ∀ d ∈ Category.ladder, d ≠ .unchosen := by decide
  by_cases hc : c ∈ Category.ladder
  · have hoff : Category.all ∉ Category.ladder ∧ Category.metaService ∉ Category.ladder := by decide
    have hall : c ≠ .all := fun h => hoff.1 (h ▸ hc)
    have hmeta : c ≠ .metaService := fun h => hoff.2 (h ▸ hc)
    simp only [List.cons.injEq, hall, hmeta, false_and, false_or]
    refine ⟨fun h => hladder.2 ⟨hc, h.2⟩, fun h => ⟨fun d hd => ?_, (hladder.1 h).2⟩⟩
    exact hchosen d (h.subset hd)
  · have hbelow : c.below = [] := by revert hc; cases c <;> decide
    rw [hladder, hbelow, List.sublist_nil]
    simp only [hc, false_and, or_false]
    constructor
    · intro h
      obtain ⟨hd, rfl⟩ := h
      have hcu := hd c List.mem_cons_self
      -- off the ladder there are only the two that stand alone and the unchosen one
      revert hc hcu
      cases c <;> decide
    · intro h
      obtain h | h := h <;> cases h <;> decide

/-! ## Chains -/

namespace Chain

variable {ρ : Type}

/-- The categories of the levels from the root to the leaf. -/
def categories (chain : Chain ρ) : List Category :=
  chain.levels.map (·.1)

theorem categories_eq_cons (chain : Chain ρ) :
    chain.categories = chain.category :: chain.categories.tail := by
  cases chain <;> rfl

/-- A chain is lawful exactly if its levels are and its categories go down the ladder. -/
theorem lawful_iff_levels {chain : Chain IdSet} :
    chain.Lawful ↔ (∀ level ∈ chain.levels, LawfulLevel level.1 level.2) ∧
      chain.categories.tail.Sublist chain.category.below := by
  induction chain with
  | leaf c ids => simp [Lawful, levels, categories]
  | narrowed c ids child ih =>
    have htail : (narrowed c ids child).categories.tail = child.categories := rfl
    have hroot : (narrowed c ids child).category = c := rfl
    rw [htail, hroot, child.categories_eq_cons, cons_sublist_below, Lawful, ih, levels,
      List.forall_mem_cons]
    constructor
    · intro h
      obtain ⟨hl, ha, hls, hs⟩ := h
      exact ⟨⟨hl, hls⟩, ha, hs⟩
    · intro h
      obtain ⟨⟨hl, hls⟩, ha, hs⟩ := h
      exact ⟨hl, ha, hls, hs⟩

end Chain

/-! ## Drafts -/

namespace Draft

/-- Settling a draft keeps its categories. -/
theorem categories_settled (draft : Draft) : draft.settled.categories = draft.categories := by
  simp [settled, Chain.categories, Chain.levels_map]

/-- The levels of a settled draft are lawful exactly if each one of the draft lists an id, only
    positive ones, and its category is chosen. -/
theorem lawful_levels_settled_iff {draft : Draft} :
    (∀ level ∈ draft.settled.levels, LawfulLevel level.1 level.2) ↔
      (∀ level ∈ draft.levels, level.2 ≠ [] ∧ ∀ id ∈ level.2, 0 < id) ∧
        ∀ c ∈ draft.categories, c ≠ .unchosen := by
  simp only [settled, Chain.levels_map, Chain.categories, List.forall_mem_map, ← forall_and]
  refine forall₂_congr fun level _ => ⟨fun h => ?_, fun h => ?_⟩
  · refine ⟨⟨fun he => ?_, fun id hid => h.positive id (IdSet.mem_ofList.2 hid)⟩, h.chosen⟩
    simpa [he] using h.nonempty
  · refine ⟨by simpa using h.1.1, h.2, fun id hid => h.1.2 id (IdSet.mem_ofList.1 hid)⟩

/-- A draft passes exactly if its levels list positive ids, and its categories go down the ladder or
    are one of the two that stand alone. -/
theorem check_eq_ok_iff_levels {draft : Draft} :
    draft.check = .ok () ↔
      (∀ level ∈ draft.levels, level.2 ≠ [] ∧ ∀ id ∈ level.2, 0 < id) ∧
        (draft.categories = [.all] ∨ draft.categories = [.metaService] ∨
          draft.categories.Sublist Category.ladder) := by
  have hdescends := descends_iff draft.category draft.categories.tail
  rw [← Chain.categories_eq_cons] at hdescends
  have hroot : draft.settled.category = draft.category := Chain.category_map _ draft
  rw [check_eq_ok_iff, Chain.lawful_iff_levels, lawful_levels_settled_iff, categories_settled,
    hroot, and_assoc, hdescends]

/-- A draft that passes is no longer than the ladder and repeats no category. -/
theorem depth_le_of_check {draft : Draft} (h : draft.check = .ok ()) :
    draft.depth ≤ 6 ∧ draft.categories.Nodup := by
  have hdepth : draft.depth = draft.categories.length := by simp [Chain.depth, Chain.categories]
  obtain ⟨_, hall | hmeta | hladder⟩ := check_eq_ok_iff_levels.1 h
  · rw [hdepth, hall]
    decide
  · rw [hdepth, hmeta]
    decide
  · have hnodup : Category.ladder.Nodup := by decide
    have hle := hladder.length_le
    rw [hdepth]
    exact ⟨hle, hnodup.sublist hladder⟩

/-- What is left of a draft that passes when levels are left out passes as well. -/
theorem check_of_levels_sublist {draft part : Draft} (h : draft.check = .ok ())
    (hpart : part.levels.Sublist draft.levels) : part.check = .ok () := by
  obtain ⟨hids, hgrammar⟩ := check_eq_ok_iff_levels.1 h
  have hcategories : part.categories.Sublist draft.categories := hpart.map _
  have hne : part.categories ≠ [] := by
    rw [part.categories_eq_cons]
    exact List.cons_ne_nil _ _
  refine check_eq_ok_iff_levels.2 ⟨fun level hl => hids level (hpart.subset hl), ?_⟩
  -- of a single category only itself can be left
  have halone (c : Category) (hc : draft.categories = [c]) : part.categories = [c] := by
    have hpos := List.length_pos_iff.2 hne
    rw [hc] at hcategories
    exact hcategories.eq_of_length_le hpos
  obtain hall | hmeta | hladder := hgrammar
  · exact .inl (halone _ hall)
  · exact .inr (.inl (halone _ hmeta))
  · exact .inr (.inr (hcategories.trans hladder))

/-- The drafts that pass, without the table: every level lists ids and only positive ones, and the
    categories from the root to the leaf are `all` alone, `metaService` alone, or a selection of the
    ladder in its order. So a draft that passes has at most six levels, names no category twice, and
    passes still when some of its levels are left out. -/
theorem check_eq_ok_iff_grammar (draft : Draft) :
    (draft.check = .ok () ↔
      (∀ level ∈ draft.levels, level.2 ≠ [] ∧ ∀ id ∈ level.2, 0 < id) ∧
        (draft.categories = [.all] ∨ draft.categories = [.metaService] ∨
          draft.categories ≠ [] ∧ draft.categories.Sublist
            [.hostGroup, .hostCategory, .host, .serviceGroup, .serviceCategory, .service])) ∧
    (draft.check = .ok () →
      draft.depth ≤ 6 ∧ draft.categories.Nodup ∧
        ∀ part : Draft, part.levels.Sublist draft.levels → part.check = .ok ()) := by
  have hne : draft.categories ≠ [] := by
    rw [draft.categories_eq_cons]
    exact List.cons_ne_nil _ _
  refine ⟨?_, fun h => ?_⟩
  · rw [check_eq_ok_iff_levels]
    simp only [hne, ne_eq, not_false_eq_true, true_and, Category.ladder]
  · obtain ⟨hdepth, hnodup⟩ := depth_le_of_check h
    exact ⟨hdepth, hnodup, fun part hpart => check_of_levels_sublist h hpart⟩

/-- Leaving the middle level out of hosts of a group, narrowed to their services. -/
theorem check_eq_ok_of_middle_left_out :
    let draft : Draft :=
      .narrowed .hostGroup [12, 11, 12] (.narrowed .host [110] (.leaf .service [5]))
    let part : Draft := .narrowed .hostGroup [12, 11, 12] (.leaf .service [5])
    draft.check = .ok () ∧ part.levels.Sublist draft.levels ∧ part.check = .ok () := by
  intro draft part
  have hdraft : draft.check = .ok () := by rfl
  have hpart : part.levels.Sublist draft.levels := by decide
  exact ⟨hdraft, hpart, ((check_eq_ok_iff_grammar draft).2 hdraft).2.2 part hpart⟩

end Draft

end AccessScope
