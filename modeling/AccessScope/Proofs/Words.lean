import AccessScope.Text.Blank
import Mathlib.Data.List.DropRight

/-!
# The words of a text

White space is cut off both ends of a text, and each run of it inside becomes one separator. The
first is done from both sides and the second in one pass from the right, with a flag for what
stands behind; neither looks for words. This file shows what comes out of both: the words of the
text, with one separator between any two.

## Key results

- `Text.words_append_blank`: the words on both sides of a blank
- `Text.words_cons`: the words, character by character
- `Text.words_trim`: trimming loses no word
- `Text.joinRuns_trim`: a trimmed text with its runs of blanks joined is its words, joined
-/

namespace AccessScope.Text

/-! ## Words and blanks -/

/-- The pieces between the blanks are those of the core library. -/
theorem pieces_eq_splitOnP (s : List Char) : pieces s = s.splitOnP isBlank := by
  induction s with
  | nil => simp [pieces]
  | cons c s ih =>
    obtain ⟨p, ps, hps⟩ := List.exists_cons_of_ne_nil (List.splitOnP_ne_nil isBlank s)
    rw [pieces, List.foldr_cons, ← pieces, ih, List.splitOnP_cons_eq_if_modifyHead, hps]
    rfl

/-- The words are the pieces that are not empty. -/
theorem words_eq (s : List Char) : words s = (s.splitOnP isBlank).filter (!·.isEmpty) := by
  rw [words, pieces_eq_splitOnP]

@[simp] theorem words_nil : words [] = [] := rfl

/-- A blank divides the words in front of it from those behind it. -/
theorem words_append_blank {b : Char} (hb : isBlank b) (s t : List Char) :
    words (s ++ b :: t) = words s ++ words t := by
  simp only [words_eq, List.splitOnP_append_cons s t hb, List.filter_append]

/-- A text without blanks is one word. -/
theorem words_eq_singleton {s : List Char} (hne : s ≠ []) (h : ∀ c ∈ s, isBlank c = false) :
    words s = [s] := by
  rw [words_eq, List.splitOnP_eq_singleton fun c hc => by simp [h c hc]]
  simp [hne]

/-! ## Character by character -/

/-- Does the text begin with a blank? -/
def startsBlank (s : List Char) : Bool := s.head?.any isBlank

/-- Does the text begin with a word? -/
def startsWord (s : List Char) : Bool := s.head?.any (!isBlank ·)

@[simp] theorem startsBlank_cons (c : Char) (s : List Char) : startsBlank (c :: s) = isBlank c :=
  rfl

@[simp] theorem startsWord_nil : startsWord [] = false := rfl

@[simp] theorem startsWord_cons (c : Char) (s : List Char) : startsWord (c :: s) = !isBlank c :=
  rfl

/-- There is always a first piece, and it is empty unless the text begins with a word. -/
private theorem exists_splitOnP_eq (s : List Char) :
    ∃ p ps, s.splitOnP isBlank = p :: ps ∧ p.isEmpty = !startsWord s := by
  cases s with
  | nil => exact ⟨[], [], by simp, rfl⟩
  | cons c s =>
    obtain ⟨p, ps, hps⟩ := List.exists_cons_of_ne_nil (List.splitOnP_ne_nil isBlank s)
    rw [List.splitOnP_cons_eq_if_modifyHead, hps]
    cases hc : isBlank c with
    | true => exact ⟨[], p :: ps, rfl, by simp [hc]⟩
    | false => exact ⟨c :: p, ps, rfl, by simp [hc]⟩

/-- A blank belongs to no word. Any other character goes to the word behind it, if one begins
    there, and else is a word. -/
theorem words_cons (c : Char) (s : List Char) :
    words (c :: s) =
      if isBlank c then words s
      else if startsWord s then (words s).modifyHead (c :: ·)
      else [c] :: words s := by
  cases hc : isBlank c with
  | true => simpa using words_append_blank hc [] s
  | false =>
    obtain ⟨p, ps, hps, hempty⟩ := exists_splitOnP_eq s
    rw [words_eq, words_eq, List.splitOnP_cons_eq_if_modifyHead, hps]
    cases hs : startsWord s with
    | true => simp [hc, hempty, hs]
    | false =>
      have hp : p = [] := by simpa [hs] using hempty
      simp [hc, hp]

/-- A text has no words exactly if it is nothing but blanks. -/
theorem words_eq_nil_iff {s : List Char} : words s = [] ↔ ∀ c ∈ s, isBlank c := by
  induction s with
  | nil => simp
  | cons c s ih =>
    rw [words_cons, List.forall_mem_cons]
    cases hc : isBlank c with
    | true => simp [ih]
    | false =>
      -- where a word begins behind `c`, there is one to put `c` in front of
      cases s with
      | nil => simp
      | cons d s => cases hd : isBlank d <;> simp [hd, ih]

/-- Words are made of the characters that are not blank. -/
theorem mem_flatten_words {s : List Char} {d : Char} :
    d ∈ (words s).flatten ↔ d ∈ s ∧ isBlank d = false := by
  induction s with
  | nil => simp
  | cons c s ih =>
    have hcons : d ∈ (words (c :: s)).flatten ↔
        (d = c ∧ isBlank c = false) ∨ d ∈ (words s).flatten := by
      rw [words_cons]
      cases hc : isBlank c with
      | true => simp
      | false =>
        cases hwords : words s with
        | cons w ws => cases hs : startsWord s <;> simp
        | nil =>
          -- without words behind `c`, none begins there
          have hs : startsWord s = false := by
            cases s with
            | nil => rfl
            | cons e s => simp [words_eq_nil_iff.1 hwords e]
          simp [hs]
    rw [hcons, ih, List.mem_cons]
    constructor
    · rintro (⟨rfl, hc⟩ | ⟨hd, hblank⟩)
      · exact ⟨.inl rfl, hc⟩
      · exact ⟨.inr hd, hblank⟩
    · rintro ⟨rfl | hd, hblank⟩
      · exact .inl ⟨rfl, hblank⟩
      · exact .inr ⟨hd, hblank⟩

/-! ## Trimming -/

/-- Trimming drops blanks from the front, and then from the end. -/
private theorem trim_eq_rdropWhile (s : List Char) : trim s = (trimStart s).rdropWhile isBlank :=
  rfl

/-- Trimming loses no word. -/
theorem words_trim (s : List Char) : words (trim s) = words s := by
  have hstart (t : List Char) : words (trimStart t) = words t := by
    induction t with
    | nil => rfl
    | cons c t ih =>
      cases hc : isBlank c with
      | true => simpa [trimStart, hc, words_cons] using ih
      | false => simp [trimStart, hc]
  have hend (t : List Char) : words (t.rdropWhile isBlank) = words t := by
    induction t using List.reverseRecOn with
    | nil => rfl
    | append_singleton t b ih =>
      by_cases hb : isBlank b
      · rw [List.rdropWhile_concat_pos _ _ _ hb, ih, words_append_blank hb, words_nil,
          List.append_nil]
      · rw [List.rdropWhile_concat_neg _ _ _ hb]
  rw [trim_eq_rdropWhile, hend, hstart]

/-- Nothing is left by trimming exactly if there was nothing but blanks. -/
theorem trim_eq_nil_iff {s : List Char} : trim s = [] ↔ ∀ c ∈ s, isBlank c := by
  constructor
  · intro h
    rw [← words_eq_nil_iff, ← words_trim, h, words_nil]
  · intro h
    have hstart : trimStart s = [] := List.dropWhile_eq_nil_iff.2 h
    rw [trim, hstart]
    rfl

/-- Trimming takes away what blanks were put in front of a text and behind it. -/
theorem trim_pad {before after : List Char} (hbefore : ∀ c ∈ before, isBlank c)
    (hafter : ∀ c ∈ after, isBlank c) (s : List Char) : trim (before ++ s ++ after) = trim s := by
  have hfront (t : List Char) : trimStart (before ++ t) = trimStart t :=
    List.dropWhile_append_of_pos hbefore
  have hback (t : List Char) : trimStart (after.reverse ++ t) = trimStart t :=
    List.dropWhile_append_of_pos fun c hc => hafter c (List.mem_reverse.1 hc)
  by_cases hs : trimStart s = []
  · -- all is blank
    have hblank : ∀ c ∈ s, isBlank c := List.dropWhile_eq_nil_iff.1 hs
    rw [trim_eq_nil_iff.2 hblank, trim_eq_nil_iff]
    intro c hc
    simp only [List.mem_append] at hc
    obtain (hc | hc) | hc := hc
    · exact hbefore c hc
    · exact hblank c hc
    · exact hafter c hc
  · have hkept : trimStart (s ++ after) = trimStart s ++ after := by
      rw [trimStart, List.dropWhile_append, ← trimStart, if_neg (by simpa using hs)]
    rw [trim, List.append_assoc, hfront, hkept, List.reverse_append, hback]
    rfl

/-- No blank stands at the end of a trimmed text. -/
private theorem not_isBlank_getLast_trim {s : List Char} (h : trim s ≠ []) :
    ¬ isBlank ((trim s).getLast h) :=
  List.rdropWhile_last_not _ _ h

/-- No blank stands at the beginning of a trimmed text. -/
private theorem startsBlank_trim (s : List Char) : startsBlank (trim s) = false := by
  cases htrim : trim s with
  | nil => rfl
  | cons c t =>
    have hpre : trim s <+: trimStart s := List.rdropWhile_prefix ..
    have hhead := List.head?_dropWhile_not isBlank s
    obtain ⟨rest, hrest⟩ := hpre
    rw [← trimStart, ← hrest, htrim] at hhead
    simpa using hhead

/-! ## Joining runs -/

/-- A blank is written as the separator unless another blank stands behind it. -/
theorem joinRuns_cons (separator c : Char) (s : List Char) :
    joinRuns separator (c :: s) =
      if isBlank c then
        if startsBlank s then joinRuns separator s else separator :: joinRuns separator s
      else c :: joinRuns separator s := by
  -- the flag says whether a blank stands in front of what is finished
  have hflag : (s.foldr (joinRunsStep separator) ([], false)).2 = startsBlank s := by
    cases s with
    | nil => rfl
    | cons d s => cases hd : isBlank d <;> simp [joinRunsStep, hd]
  rw [← hflag]
  simp only [joinRuns, List.foldr_cons, joinRunsStep]
  split <;> rfl

/-- A character in front of the first word stands in front of the joined words. -/
private theorem intercalate_modifyHead {separator c : Char} {ws : List (List Char)} (h : ws ≠ []) :
    [separator].intercalate (ws.modifyHead (c :: ·)) = c :: [separator].intercalate ws := by
  cases ws with
  | nil => exact absurd rfl h
  | cons w ws => cases ws <;> simp

/-- Joining the runs of a text that does not end in a blank gives the words, joined, behind a
    separator if a blank stands in front. -/
private theorem joinRuns_eq {separator : Char} {s : List Char}
    (hlast : ∀ h : s ≠ [], ¬ isBlank (s.getLast h)) :
    joinRuns separator s =
      (if startsBlank s then [separator] else []) ++ [separator].intercalate (words s) := by
  induction s with
  | nil => rfl
  | cons c s ih =>
    cases s with
    | nil =>
      have hc : isBlank c = false := by simpa using hlast
      simp [joinRuns, joinRunsStep, words_cons, hc]
    | cons d s =>
      -- the last character is behind `c`, so there is a word there
      have hwords : words (d :: s) ≠ [] := fun hnil =>
        hlast (by simp) (words_eq_nil_iff.1 hnil _ (by simp))
      have hrest := ih fun _ => by simpa using hlast
      rw [joinRuns_cons, hrest, words_cons c]
      cases hc : isBlank c with
      | true => cases hd : isBlank d <;> simp [hc, hd]
      | false =>
        cases hd : isBlank d with
        | true => simp [hc, hd, List.intercalate_cons_of_ne_nil hwords]
        | false => simp [hc, hd, intercalate_modifyHead hwords]

/-- Trimmed, and with each run of blanks written as a separator, a text is its words with one
    separator between any two. -/
theorem joinRuns_trim (separator : Char) (s : List Char) :
    joinRuns separator (trim s) = [separator].intercalate (words s) := by
  rw [joinRuns_eq not_isBlank_getLast_trim, startsBlank_trim, words_trim]
  simp

/-! ## Joined words -/

/-- Words are joined with nothing but separators between them. -/
theorem mem_intercalate_words {separator d : Char} {s : List Char}
    (h : d ∈ [separator].intercalate (words s)) :
    d = separator ∨ d ∈ s ∧ isBlank d = false := by
  rw [← mem_flatten_words]
  generalize words s = ws at h
  induction ws with
  | nil => simp at h
  | cons w ws ih =>
    cases ws with
    | nil => exact .inr (by simpa using h)
    | cons v vs =>
      simp only [List.intercalate_cons_cons, List.mem_append, List.mem_singleton] at h
      rw [List.flatten_cons, List.mem_append]
      obtain (h | h) | h := h
      · exact .inr (.inl h)
      · exact .inl h
      · exact (ih h).imp id .inr

/-- Nothing is joined exactly if there are no words. -/
theorem intercalate_words_eq_nil_iff {separator : Char} {s : List Char} :
    [separator].intercalate (words s) = [] ↔ ∀ c ∈ s, isBlank c := by
  rw [← words_eq_nil_iff]
  cases hwords : words s with
  | nil => simp
  | cons w ws =>
    have hw : w ≠ [] := by
      have : w ∈ words s := by simp [hwords]
      rw [words_eq] at this
      simpa using (List.mem_filter.1 this).2
    cases ws <;> simp [hw]

end AccessScope.Text
