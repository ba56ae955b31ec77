import AccessScope.Proofs.LetterCase
import Mathlib.Data.List.Forall2

/-!
# Lower case of texts

A text is put into lower case letter by letter, and only the capital sigma is looked at in its
surroundings: at the end of a word it has a form of its own. The letters are taken one after the
other, with what was passed kept in reverse. Here the result is described place by place instead,
and two things follow: a text in lower case stays as it is, and two texts of the same letters come
out alike exactly if their capital sigmas at the ends of words stand at the same places.

## Key results

- `Text.lower_eq_lowerByPlace`: the lower case of a text, place by place
- `Text.lower_lower`: lower case is settled after one step
- `Text.lower_eq_lower_iff`: when two texts of the same letters have the same lower case
-/

namespace AccessScope.Text

/-! ## Place by place -/

/-- Does a capital sigma at the end of a word stand at place `i` of the text `s`, which stands
    behind the characters `before` (the nearest first)? Looking past what makes no difference to
    case, a cased letter stands before it and none after it. -/
def SigmaEnds (before s : List Char) (i : Nat) : Prop :=
  s[i]? = some 'Σ' ∧ facesCased ((s.take i).reverse ++ before) = true ∧
    facesCased (s.drop (i + 1)) = false

instance (before s : List Char) (i : Nat) : Decidable (SigmaEnds before s i) :=
  inferInstanceAs (Decidable (_ ∧ _ ∧ _))

/-- The lower case of a text: at each place that of the character, but for the capital sigmas at the
    ends of words. -/
def lowerByPlace (s : List Char) : List Char :=
  s.zipIdx.flatMap fun (c, i) => if SigmaEnds [] s i then ['ς'] else lowerChar c

theorem sigmaEnds_cons_succ {before s : List Char} {c : Char} {i : Nat} :
    SigmaEnds before (c :: s) (i + 1) ↔ SigmaEnds (c :: before) s i := by
  simp [SigmaEnds]

theorem not_sigmaEnds_nil {before : List Char} {i : Nat} : ¬ SigmaEnds before [] i := by
  simp [SigmaEnds]

theorem SigmaEnds.lt_length {before s : List Char} {i : Nat} (h : SigmaEnds before s i) :
    i < s.length :=
  (List.getElem?_eq_some_iff.1 h.1).1

/-- The capital sigma is the only letter whose surroundings matter. -/
theorem lowerAt_eq (before : List Char) (c : Char) (after : List Char) :
    lowerAt before c after =
      if SigmaEnds before (c :: after) 0 then ['ς'] else lowerChar c := by
  by_cases hc : c = 'Σ'
  · subst hc
    simp [lowerAt, SigmaEnds, lowerChar_sigma]
  · simp [lowerAt, SigmaEnds, hc]

private theorem lowerFrom_eq_flatMap (before s : List Char) :
    lowerFrom before s =
      s.zipIdx.flatMap fun (c, i) => if SigmaEnds before s i then ['ς'] else lowerChar c := by
  induction s generalizing before with
  | nil => rfl
  | cons c s ih =>
    -- behind the first letter each place counts one more, with that letter in front of it
    have hshift : s.zipIdx 1 = s.zipIdx.map fun (d, i) => (d, i + 1) := by
      rw [List.zipIdx_eq_map_add]
      simp [Nat.add_comm]
    rw [lowerFrom_cons, lowerAt_eq, ih, List.zipIdx_cons, List.flatMap_cons, hshift,
      List.flatMap_map]
    simp only [sigmaEnds_cons_succ]

/-- The letters are lower-cased each at its place. -/
theorem lower_eq_lowerByPlace (s : List Char) : lower s = lowerByPlace s :=
  lowerFrom_eq_flatMap [] s

/-! ## What lower case leaves -/

/-- All of a lower-cased text is lower case of its characters, or the final form of sigma. -/
theorem mem_lower {s : List Char} {d : Char} (h : d ∈ lower s) :
    d = 'ς' ∨ ∃ c ∈ s, d ∈ lowerChar c := by
  rw [lower_eq_lowerByPlace, lowerByPlace, List.mem_flatMap] at h
  obtain ⟨⟨c, i⟩, hci, hd⟩ := h
  dsimp only at hd
  split at hd
  · exact .inl (List.mem_singleton.1 hd)
  · exact .inr ⟨c, List.fst_mem_of_mem_zipIdx hci, hd⟩

/-- Nothing is left only of nothing. -/
theorem lower_eq_nil_iff {s : List Char} : lower s = [] ↔ s = [] := by
  cases s with
  | nil => simp
  | cons c s =>
    rw [lower, lowerFrom_cons, lowerAt_eq]
    split <;> simp [lowerChar_ne_nil]

/-- A text of characters that are their own lower case stays as it is. -/
theorem lower_eq_self {s : List Char} (h : ∀ c ∈ s, lowerChar c = [c]) : lower s = s := by
  have hfrom (before : List Char) : lowerFrom before s = s := by
    induction s generalizing before with
    | nil => rfl
    | cons c s ih =>
      obtain ⟨hc, hs⟩ := List.forall_mem_cons.1 h
      -- a capital sigma is not its own lower case
      have hsigma : ¬ SigmaEnds before (c :: s) 0 := by
        rintro ⟨hsigma, _⟩
        cases hsigma
        simp [lowerChar_sigma] at hc
      rw [lowerFrom_cons, lowerAt_eq, if_neg hsigma, hc, ih hs]
      rfl
  exact hfrom []

/-- Every character of a lower-cased text is its own lower case. -/
theorem lowerChar_of_mem_lower {s : List Char} {d : Char} (h : d ∈ lower s) :
    lowerChar d = [d] := by
  obtain rfl | ⟨c, _, hd⟩ := mem_lower h
  · decide +kernel
  · exact lowerChar_of_mem hd

/-- Lower case is settled after one step. -/
theorem lower_lower (s : List Char) : lower (lower s) = lower s :=
  lower_eq_self fun _ => lowerChar_of_mem_lower

/-! ## Texts of the same letters -/

/-- One letter comes out alike in two places exactly if it is a capital sigma at the end of a word
    in both or in neither. -/
private theorem lowerAt_eq_lowerAt_iff {before before' after after' : List Char} {c d : Char}
    (h : SameLetter c d) :
    lowerAt before c after = lowerAt before' d after' ↔
      (SigmaEnds before (c :: after) 0 ↔ SigmaEnds before' (d :: after') 0) := by
  rw [lowerAt_eq, lowerAt_eq]
  by_cases hc : SigmaEnds before (c :: after) 0 <;>
    by_cases hd : SigmaEnds before' (d :: after') 0
  · simp [hc, hd]
  · -- the other form of sigma is not that at the end of a word
    obtain rfl : c = 'Σ' := by simpa using hc.1
    simp [hc, hd, ← h.lowerChar_eq, lowerChar_sigma]
  · obtain rfl : d = 'Σ' := by simpa using hd.1
    simp [hc, hd, h.lowerChar_eq, lowerChar_sigma]
  · simp [hc, hd, h.lowerChar_eq]

/-- The surroundings of a letter make no difference to the length of its lower case. -/
theorem length_lowerAt (before : List Char) (c : Char) (after : List Char) :
    (lowerAt before c after).length = (lowerChar c).length := by
  rw [lowerAt_eq]
  split
  · next hsigma =>
    obtain rfl : c = 'Σ' := by simpa using hsigma.1
    rw [lowerChar_sigma]
    rfl
  · rfl

private theorem lowerFrom_eq_lowerFrom_iff {before before' s t : List Char}
    (h : List.Forall₂ SameLetter s t) :
    lowerFrom before s = lowerFrom before' t ↔
      ∀ i, SigmaEnds before s i ↔ SigmaEnds before' t i := by
  induction h generalizing before before' with
  | nil => simp [not_sigmaEnds_nil]
  | @cons c d s t hcd _ ih =>
    -- the two letters leave texts of one length, so what stands behind them lines up
    have hlength : (lowerAt before c s).length = (lowerAt before' d t).length := by
      rw [length_lowerAt, length_lowerAt, hcd.lowerChar_eq]
    have happend : lowerFrom before (c :: s) = lowerFrom before' (d :: t) ↔
        lowerAt before c s = lowerAt before' d t ∧
          lowerFrom (c :: before) s = lowerFrom (d :: before') t := by
      rw [lowerFrom_cons, lowerFrom_cons]
      exact ⟨fun heq => List.append_inj heq hlength, fun heq => by rw [heq.1, heq.2]⟩
    rw [happend, lowerAt_eq_lowerAt_iff hcd, ih]
    constructor
    · rintro ⟨hfirst, hrest⟩ i
      cases i with
      | zero => exact hfirst
      | succ i => exact sigmaEnds_cons_succ.trans ((hrest i).trans sigmaEnds_cons_succ.symm)
    · intro hall
      refine ⟨hall 0, fun i => ?_⟩
      exact sigmaEnds_cons_succ.symm.trans ((hall (i + 1)).trans sigmaEnds_cons_succ)

/-- Two texts of the same letters have the same lower case exactly if capital sigmas end words at
    the same places of both. -/
theorem lower_eq_lower_iff {s t : List Char} (h : List.Forall₂ SameLetter s t) :
    lower s = lower t ↔ ∀ i, SigmaEnds [] s i ↔ SigmaEnds [] t i :=
  lowerFrom_eq_lowerFrom_iff h

end AccessScope.Text
