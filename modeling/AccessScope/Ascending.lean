import AccessScope.Id

/-!
# Lists in ascending order of a key

A finite map from ids is kept as the list of its values, strictly ascending by the id that each
value carries. Such a list is determined by its members, so it can be compared for equality.

* `Ascending.put`  putting a value in keeps the order
* `Ascending.mem_put`  the members afterwards: the value, and the members with other keys
* `Ascending.ext`  two ascending lists with the same members are equal
* `Ascending.ext_find?`  and so are two in which the same is found under each key
-/

namespace AccessScope

variable {α : Type}

/-- The keys of the list are strictly ascending. -/
def Ascending (key : α → Id) (l : List α) : Prop :=
  l.Pairwise (key · < key ·)

/-- Puts a value into an ascending list, in the place of the value with the same key if there is
one. -/
def put (key : α → Id) (a : α) : List α → List α
  | [] => [a]
  | b :: l =>
    if key a < key b then a :: b :: l
    else if key a = key b then a :: l
    else b :: put key a l

variable {key : α → Id}

theorem mem_of_mem_put {a b : α} {l : List α} (h : b ∈ put key a l) : b = a ∨ b ∈ l := by
  induction l with
  | nil => simpa [put] using h
  | cons c l ih =>
    simp only [put] at h
    split at h
    · simpa using h
    · split at h
      · rcases List.mem_cons.1 h with rfl | h
        · exact .inl rfl
        · exact .inr (List.mem_cons_of_mem _ h)
      · rcases List.mem_cons.1 h with rfl | h
        · exact .inr List.mem_cons_self
        · exact (ih h).imp id (List.mem_cons_of_mem _)

theorem mem_put_self (key : α → Id) (a : α) (l : List α) : a ∈ put key a l := by
  induction l with
  | nil => simp [put]
  | cons b l ih =>
    simp only [put]
    split
    · exact List.mem_cons_self
    · split
      · exact List.mem_cons_self
      · exact List.mem_cons_of_mem _ ih

namespace Ascending

/-- Putting a value in keeps the order. -/
theorem put {a : α} {l : List α} (h : Ascending key l) : Ascending key (put key a l) := by
  induction l with
  | nil => simp [AccessScope.put, Ascending]
  | cons b l ih =>
    have hb := List.pairwise_cons.1 h
    simp only [AccessScope.put]
    split
    · next hab =>
      refine List.pairwise_cons.2 ⟨fun c hc => ?_, h⟩
      rcases List.mem_cons.1 hc with rfl | hc
      · exact hab
      · exact Int64.lt_trans hab (hb.1 c hc)
    · split
      · next hab => exact List.pairwise_cons.2 ⟨fun c hc => hab ▸ hb.1 c hc, hb.2⟩
      · next hlt hne =>
        refine List.pairwise_cons.2 ⟨fun c hc => ?_, ih hb.2⟩
        rcases mem_of_mem_put hc with rfl | hc
        · exact (Int64.lt_or_lt_of_ne hne).resolve_left hlt
        · exact hb.1 c hc

/-- The members after a value was put in. -/
theorem mem_put {a b : α} {l : List α} (h : Ascending key l) :
    b ∈ AccessScope.put key a l ↔ b = a ∨ b ∈ l ∧ key b ≠ key a := by
  induction l with
  | nil => simp [AccessScope.put]
  | cons c l ih =>
    have hc := List.pairwise_cons.1 h
    simp only [AccessScope.put]
    split
    · next hac =>
      have hne : ∀ d ∈ c :: l, key d ≠ key a := by
        intro d hd he
        rcases List.mem_cons.1 hd with rfl | hd
        · exact Int64.lt_irrefl (he ▸ hac)
        · exact Int64.lt_irrefl (he ▸ Int64.lt_trans hac (hc.1 d hd))
      rw [List.mem_cons]
      exact ⟨fun h => h.imp id fun h => ⟨h, hne b h⟩, fun h => h.imp id And.left⟩
    · split
      · next hac =>
        have hne : ∀ d ∈ l, key d ≠ key a := fun d hd he =>
          Int64.lt_irrefl (hac ▸ he ▸ hc.1 d hd)
        rw [List.mem_cons]
        constructor
        · exact fun h => h.imp id fun h => ⟨List.mem_cons_of_mem _ h, hne b h⟩
        · rintro (h | ⟨h, hk⟩)
          · exact .inl h
          · rcases List.mem_cons.1 h with rfl | h
            · exact absurd hac.symm hk
            · exact .inr h
      · next hac =>
        rw [List.mem_cons, ih hc.2, List.mem_cons]
        constructor
        · rintro (rfl | h | ⟨h, hk⟩)
          · exact .inr ⟨.inl rfl, fun he => hac he.symm⟩
          · exact .inl h
          · exact .inr ⟨.inr h, hk⟩
        · rintro (h | ⟨rfl | h, hk⟩)
          · exact .inr (.inl h)
          · exact .inl rfl
          · exact .inr (.inr ⟨h, hk⟩)

/-- Two members with the same key are one. -/
theorem eq_of_key {a b : α} {l : List α} (h : Ascending key l) (ha : a ∈ l) (hb : b ∈ l)
    (hk : key a = key b) : a = b := by
  induction l with
  | nil => cases ha
  | cons c l ih =>
    have hc := List.pairwise_cons.1 h
    rcases List.mem_cons.1 ha with rfl | ha' <;> rcases List.mem_cons.1 hb with rfl | hb'
    · rfl
    · exact absurd (hk ▸ hc.1 b hb') Int64.lt_irrefl
    · exact absurd (hk ▸ hc.1 a ha') Int64.lt_irrefl
    · exact ih hc.2 ha' hb'

/-- An ascending list is determined by its members. -/
theorem ext {l m : List α} (hl : Ascending key l) (hm : Ascending key m)
    (h : ∀ a, a ∈ l ↔ a ∈ m) : l = m := by
  induction l generalizing m with
  | nil =>
    cases m with
    | nil => rfl
    | cons b m => exact absurd ((h b).2 List.mem_cons_self) List.not_mem_nil
  | cons a l ih =>
    cases m with
    | nil => exact absurd ((h a).1 List.mem_cons_self) List.not_mem_nil
    | cons b m =>
      have ha := List.pairwise_cons.1 hl
      have hb := List.pairwise_cons.1 hm
      have hab : a = b := by
        rcases List.mem_cons.1 ((h a).1 List.mem_cons_self) with he | ham
        · exact he
        · rcases List.mem_cons.1 ((h b).2 List.mem_cons_self) with he | hbl
          · exact he.symm
          · exact absurd (Int64.lt_trans (ha.1 b hbl) (hb.1 a ham)) Int64.lt_irrefl
      subst hab
      refine congrArg _ (ih ha.2 hb.2 fun c => ⟨fun hc => ?_, fun hc => ?_⟩)
      · refine (List.mem_cons.1 ((h c).1 (List.mem_cons_of_mem _ hc))).resolve_left ?_
        rintro rfl
        exact Int64.lt_irrefl (ha.1 c hc)
      · refine (List.mem_cons.1 ((h c).2 (List.mem_cons_of_mem _ hc))).resolve_left ?_
        rintro rfl
        exact Int64.lt_irrefl (hb.1 c hc)

/-- A member is found exactly under its own key. -/
theorem find?_eq_some_iff {a : α} {l : List α} {i : Id} (h : Ascending key l) :
    l.find? (key · = i) = some a ↔ a ∈ l ∧ key a = i := by
  constructor
  · intro hf
    exact ⟨List.mem_of_find?_eq_some hf, by simpa using List.find?_some hf⟩
  · intro ⟨ha, hk⟩
    cases hf : l.find? (key · = i) with
    | none => exact absurd hk (by simpa using List.find?_eq_none.1 hf a ha)
    | some b =>
      have hb : key b = i := by simpa using List.find?_some hf
      rw [h.eq_of_key (List.mem_of_find?_eq_some hf) ha (hb.trans hk.symm)]

/-- An ascending list is determined by what is found under each key. -/
theorem ext_find? {l m : List α} (hl : Ascending key l) (hm : Ascending key m)
    (h : ∀ i, l.find? (key · = i) = m.find? (key · = i)) : l = m := by
  refine ext hl hm fun a => ?_
  have ha := h (key a)
  constructor
  · intro hal
    rw [hl.find?_eq_some_iff.2 ⟨hal, rfl⟩] at ha
    exact (hm.find?_eq_some_iff.1 ha.symm).1
  · intro ham
    rw [hm.find?_eq_some_iff.2 ⟨ham, rfl⟩] at ha
    exact (hl.find?_eq_some_iff.1 ha).1

/-- A part of an ascending list is ascending. -/
theorem filter {l : List α} (p : α → Bool) (h : Ascending key l) : Ascending key (l.filter p) :=
  List.Pairwise.filter p h

end Ascending

end AccessScope
