import AccessScope.Proofs.FinalSigma
import AccessScope.Proofs.Words
import AccessScope.Proofs.WorldRuns

/-!
# Formatted names

Rules are told apart by the formatted forms of their names. This file says what such a form is
without following the steps that make it: the words of the name, joined by underscores, in lower
case. So white space makes no difference but where it divides words, and formatting is done after
one step. Letter case makes no difference either, with one exception: a capital sigma at the end of
a word becomes a final sigma, while a small sigma there stays as it is.

## Key results

- `RuleName.formatted_eq`: a formatted name is the lower case of the joined words
- `RuleName.formatted_from_words`: all that follows from that
- `RuleName.formatted_eq_iff_of_sameLetters`: when names of the same letters are formatted alike
- `RuleName.formatted_ne_of_final_sigma`: two names of the same letters that rules may both have
-/

namespace AccessScope.RuleName

/-! ## Names and their words -/

/-- The words of a name, with one underscore between any two. -/
def joined (raw : String) : List Char :=
  ['_'].intercalate (Text.words raw.toList)

/-- A formatted name is the lower case of the joined words. -/
theorem formatted_eq (raw : String) : formatted raw = String.ofList (Text.lower (joined raw)) := by
  rw [formatted, Text.joinRuns_trim, joined]

/-- The joined words hold no blanks. -/
theorem isBlank_of_mem_joined {raw : String} {c : Char} (h : c ∈ joined raw) :
    Text.isBlank c = false := by
  obtain rfl | ⟨_, hc⟩ := Text.mem_intercalate_words h
  · decide
  · exact hc

/-- Nor does a formatted name. -/
theorem isBlank_of_mem_formatted {raw : String} {c : Char} (h : c ∈ (formatted raw).toList) :
    Text.isBlank c = false := by
  rw [formatted_eq, String.toList_ofList] at h
  obtain rfl | ⟨d, hd, hc⟩ := Text.mem_lower h
  · decide
  · exact Text.isBlank_of_mem_lowerChar (isBlank_of_mem_joined hd) hc

/-- The joined words of a name without blanks are the name. -/
theorem joined_eq_self {raw : String} (h : ∀ c ∈ raw.toList, Text.isBlank c = false) :
    joined raw = raw.toList := by
  by_cases hempty : raw.toList = []
  · simp [joined, hempty]
  · simp [joined, Text.words_eq_singleton hempty h]

/-- A formatted name is empty exactly if the name is nothing but white space. -/
theorem formatted_eq_empty_iff {raw : String} :
    formatted raw = "" ↔ ∀ c ∈ raw.toList, Text.isBlank c := by
  rw [formatted_eq, ← String.toList_inj, String.toList_ofList, String.toList_empty,
    Text.lower_eq_nil_iff, joined, Text.intercalate_words_eq_nil_iff]

/-- What is formatted already stays as it is. -/
theorem formatted_formatted (raw : String) : formatted (formatted raw) = formatted raw := by
  calc formatted (formatted raw)
    _ = String.ofList (Text.lower (formatted raw).toList) := by
        rw [formatted_eq, joined_eq_self fun _ => isBlank_of_mem_formatted]
    _ = String.ofList (Text.lower (Text.lower (joined raw))) := by
        rw [formatted_eq raw, String.toList_ofList]
    _ = formatted raw := by
        rw [Text.lower_lower, formatted_eq]

/-- A formatted name is made of the words of the name, joined by underscores: at each place stands
    the lower case of the character there, and the final form of sigma for a capital sigma at the
    end of a word. So names of the same words are formatted alike, a formatted name holds no white
    space and is empty exactly if there is nothing else in the name, and neither trimming before nor
    formatting again makes a difference. -/
theorem formatted_from_words (raw : String) :
    formatted raw =
        String.ofList (Text.lowerByPlace (['_'].intercalate (Text.words raw.toList))) ∧
      (∀ other : String, Text.words other.toList = Text.words raw.toList →
        formatted other = formatted raw) ∧
      (∀ c ∈ (formatted raw).toList, Text.isBlank c = false) ∧
      (formatted raw = "" ↔ ∀ c ∈ raw.toList, Text.isBlank c) ∧
      formatted raw = formatted (trimmed raw) ∧
      formatted (formatted raw) = formatted raw := by
  refine ⟨?_, fun other hwords => ?_, fun c => isBlank_of_mem_formatted, formatted_eq_empty_iff,
    (formatted_trimmed raw).symm, formatted_formatted raw⟩
  · rw [formatted_eq, Text.lower_eq_lowerByPlace, joined]
  · rw [formatted_eq, formatted_eq, joined, joined, hwords]

/-- A name in which a sigma ends a word, one does not, and one character has two as its lower case;
    the other one has the same words between other white space. -/
theorem formatted_from_words_sigma :
    let raw := "\u2003ΟΔΟΣ\u00a0\t ΣΤΙΣ İ\n"
    let other := "ΟΔΟΣ ΣΤΙΣ İ"
    Text.words other.toList = Text.words raw.toList ∧ formatted raw = "οδος_στις_i\u0307" ∧
      formatted other = formatted raw ∧ formatted (formatted raw) = formatted raw := by
  intro raw other
  have hwords : Text.words other.toList = Text.words raw.toList := by decide +kernel
  obtain ⟨_, hsame, _, _, _, hagain⟩ := formatted_from_words raw
  exact ⟨hwords, by decide +kernel, hsame other hwords, hagain⟩

/-! ## Names of the same letters -/

section

variable {s t : List Char} (h : List.Forall₂ Text.SameLetter s t)
include h

private theorem trimStart_of_sameLetters :
    List.Forall₂ Text.SameLetter (Text.trimStart s) (Text.trimStart t) := by
  induction h with
  | nil => exact .nil
  | @cons c d s t hcd hst ih =>
    rw [Text.trimStart, Text.trimStart, List.dropWhile_cons, List.dropWhile_cons, hcd.isBlank_eq]
    split
    · exact ih
    · exact .cons hcd hst

private theorem joinRuns_of_sameLetters :
    List.Forall₂ Text.SameLetter (Text.joinRuns '_' s) (Text.joinRuns '_' t) := by
  induction h with
  | nil => exact .nil
  | @cons c d s t hcd hst ih =>
    have hstarts : Text.startsBlank s = Text.startsBlank t := by
      cases hst with
      | nil => rfl
      | cons hcd _ => simp [hcd.isBlank_eq]
    rw [Text.joinRuns_cons, Text.joinRuns_cons, hcd.isBlank_eq, hstarts]
    split
    · split
      · exact ih
      · exact .cons rfl ih
    · exact .cons hcd ih

end

/-- The joined words of names of the same letters are of the same letters. -/
theorem joined_of_sameLetters {a b : String}
    (h : List.Forall₂ Text.SameLetter a.toList b.toList) :
    List.Forall₂ Text.SameLetter (joined a) (joined b) := by
  -- trimming is dropping the blanks in front, twice, with the text turned round in between
  have hstart := trimStart_of_sameLetters h
  have htrim : List.Forall₂ Text.SameLetter (Text.trim a.toList) (Text.trim b.toList) :=
    List.forall₂_reverse_iff.2
      (trimStart_of_sameLetters (List.forall₂_reverse_iff.2 hstart))
  rw [joined, joined, ← Text.joinRuns_trim, ← Text.joinRuns_trim]
  exact joinRuns_of_sameLetters htrim

/-- Names of the same letters, each in one case or the other, are formatted alike exactly if capital
    sigmas end words at the same places of both, once the words are joined. In every world that can
    be reached, two rules with such names are the same rule, unless a capital sigma ends a word of
    one of them and not of the other. -/
theorem formatted_eq_iff_of_sameLetters {a b : String}
    (h : List.Forall₂ Text.SameLetter a.toList b.toList) :
    (formatted a = formatted b ↔
        ∀ i, Text.SigmaEnds [] (joined a) i ↔ Text.SigmaEnds [] (joined b) i) ∧
      ∀ (accessGroup : Option String) (w : World), w.Reachable accessGroup →
        ∀ r ∈ w.store.rules, ∀ q ∈ w.store.rules, r.name = a → q.name = b →
          r = q ∨ ∃ i, ¬ (Text.SigmaEnds [] (joined a) i ↔ Text.SigmaEnds [] (joined b) i) := by
  have hformatted : formatted a = formatted b ↔
      ∀ i, Text.SigmaEnds [] (joined a) i ↔ Text.SigmaEnds [] (joined b) i := by
    rw [formatted_eq, formatted_eq, String.ofList_inj]
    exact Text.lower_eq_lower_iff (joined_of_sameLetters h)
  refine ⟨hformatted, fun accessGroup w hw r hr q hq hra hqb => ?_⟩
  -- rules with one formatted name are one rule, in every world that can be reached
  by_cases hends : ∀ i, Text.SigmaEnds [] (joined a) i ↔ Text.SigmaEnds [] (joined b) i
  · refine .inl (hw.namesDiffer r hr q hq ?_)
    rw [r.formattedName_eq, q.formattedName_eq, hra, hqb]
    exact hformatted.2 hends
  · exact .inr (not_forall.1 hends)

/-- Behind each sigma of these names stands a letter of the same word, so no two rules have them. -/
theorem formatted_eq_of_inner_sigma :
    formatted "ΣΑ ΙΣΑ rule" = formatted "σα ισα RULE" ∧
      ∀ w : World, w.Reachable none → ∀ r ∈ w.store.rules, ∀ q ∈ w.store.rules,
        r.name = "ΣΑ ΙΣΑ rule" → q.name = "σα ισα RULE" → r = q := by
  have hletters : List.Forall₂ Text.SameLetter "ΣΑ ΙΣΑ rule".toList "σα ισα RULE".toList := by
    decide +kernel
  have hplaces : ∀ name ∈ ["ΣΑ ΙΣΑ rule", "σα ισα RULE"], ∀ i < (joined name).length,
      ¬ Text.SigmaEnds [] (joined name) i := by
    decide +kernel
  have hnone : ∀ name ∈ ["ΣΑ ΙΣΑ rule", "σα ισα RULE"], ∀ i, ¬ Text.SigmaEnds [] (joined name) i :=
    fun name hname i hends => hplaces name hname i hends.lt_length hends
  have hends : ∀ i, Text.SigmaEnds [] (joined "ΣΑ ΙΣΑ rule") i ↔
      Text.SigmaEnds [] (joined "σα ισα RULE") i := fun i =>
    iff_of_false (hnone _ (by simp) i) (hnone _ (by simp) i)
  obtain ⟨hformatted, hrules⟩ := formatted_eq_iff_of_sameLetters hletters
  refine ⟨hformatted.2 hends, fun w hw r hr q hq hrname hqname => ?_⟩
  exact (hrules none w hw r hr q hq hrname hqname).resolve_right (not_exists_not.2 hends)

/-- One word in capitals and in small letters, the last of which is a sigma: the formatted names
    differ, so a rule of each name can be stored. -/
theorem formatted_ne_of_final_sigma :
    List.Forall₂ Text.SameLetter "ΑΣ".toList "ασ".toList ∧ formatted "ΑΣ" ≠ formatted "ασ" ∧
      ∃ w : World, w.Reachable none ∧ ∃ r ∈ w.store.rules, ∃ q ∈ w.store.rules,
        r.id ≠ q.id ∧ r.name = "ΑΣ" ∧ q.name = "ασ" := by
  have hletters : List.Forall₂ Text.SameLetter "ΑΣ".toList "ασ".toList := by decide +kernel
  have hformatted : formatted "ΑΣ" ≠ formatted "ασ" := by decide +kernel
  -- the two rules are made one after the other
  let w := smallWorld.after none
    [.call root (.create (hostRequest "ΑΣ" 7)), .call root (.create (hostRequest "ασ" 8))]
  have hreachable : w.Reachable none := ⟨smallWorld, _, ⟨rfl, rfl⟩, rfl⟩
  have hrules : ∃ r ∈ w.store.rules, ∃ q ∈ w.store.rules,
      r.id ≠ q.id ∧ r.name = "ΑΣ" ∧ q.name = "ασ" := by
    decide +kernel
  exact ⟨hletters, hformatted, w, hreachable, hrules⟩

end AccessScope.RuleName
