import AccessScope.Text.Lower
import AccessScope.Text.Blank

/-!
# Letters and their lower case

The lower-case mapping of single characters is a table of runs, and white space is a table of
ranges. That lower case is settled after one step, and that white space has no part in it, are facts
of what the tables hold. They are compared run by run: the points of one run lie behind those of
another, or the points of one are even and those of the other odd. What comes out is put into words
for characters here, and texts are built on that.

## Key results

- `Text.lowerPoint_cases`: a code point is its own lower case, or the tables say what it becomes
- `Text.lowerChar_of_mem`: lower case is settled after one step
- `Text.isBlank_of_mem_lowerChar`: it brings in no blanks
- `Text.SameLetter.isBlank_eq`: forms of one letter are blanks both, or neither
-/

namespace AccessScope.Text

/-! ## Code points at one distance from each other -/

/-- The code points `first`, `first + stride`, … up to `last`. -/
structure Points where
  first : Nat
  last : Nat
  stride : Nat

namespace Points

/-- All code points from `first` to `last`. -/
def span (first last : Nat) : Points := ⟨first, last, 1⟩

/-- Is `n` one of the points? -/
def Has (p : Points) (n : Nat) : Prop :=
  p.first ≤ n ∧ n ≤ p.last ∧ (n - p.first) % p.stride = 0

theorem span_has {first last n : Nat} : (span first last).Has n ↔ first ≤ n ∧ n ≤ last := by
  simp [span, Has, Nat.mod_one]

/-- Do the ends of the two show that they have no point in common, or else that the points of one
    are even and those of the other odd? -/
def areApart (p q : Points) : Bool :=
  Nat.blt p.last q.first || (Nat.blt q.last p.first ||
    (q.stride == 2 && ((p.stride == 2 || p.first == p.last) && (p.first + q.first) % 2 == 1)))

theorem not_has_of_areApart {p q : Points} {n : Nat} (h : p.areApart q) (hp : p.Has n) :
    ¬ q.Has n := by
  obtain ⟨pfirst, plast, pstride⟩ := p
  obtain ⟨qfirst, qlast, qstride⟩ := q
  simp only [areApart, Bool.or_eq_true, Bool.and_eq_true, Nat.blt_eq, beq_iff_eq] at h
  simp only [Has] at hp ⊢
  -- one ends before the other begins, or the two differ in parity throughout
  obtain h | h | ⟨rfl, rfl | h, hparity⟩ := h <;> omega

end Points

namespace CaseRun

/-- The code points that the run moves. -/
def points (r : CaseRun) : Points := ⟨r.first, r.last, r.stride⟩

/-- The code points that it moves them to. -/
def images (r : CaseRun) : Points := ⟨(r.first + r.shift).toNat, (r.last + r.shift).toNat, r.stride⟩

theorem moves_iff {r : CaseRun} {n : Nat} : r.moves n ↔ r.points.Has n := by
  simp [moves, points, Points.Has, and_assoc]

theorem images_has {r : CaseRun} {n : Nat} (hfirst : 0 ≤ r.first + r.shift) (h : r.points.Has n) :
    r.images.Has (n + r.shift).toNat := by
  obtain ⟨first, last, stride, shift⟩ := r
  simp only [points, images, Points.Has] at h hfirst ⊢
  -- a shift keeps distances, so the images have the stride of the run
  have hdistance : ((n : Int) + shift).toNat - ((first : Int) + shift).toNat = n - first := by
    omega
  rw [hdistance]
  exact ⟨by omega, by omega, h.2.2⟩

end CaseRun

/-! ## What the tables hold -/

/-- Nothing is moved to where it would be moved again. -/
theorem images_apart_from_runs :
    (caseRuns.all fun r => caseRuns.all fun q => r.images.areApart q.points) = true := by
  decide +kernel

/-- No blank is moved, and nothing is moved to one. -/
theorem runs_apart_from_blanks :
    (caseRuns.all fun r => blankRanges.all fun b =>
      r.points.areApart (.span b.1 b.2) && r.images.areApart (.span b.1 b.2)) = true := by
  decide +kernel

/-- What is moved to is a character, and not the one whose lower case is two characters. -/
theorem images_valid :
    (caseRuns.all fun r =>
      0 ≤ r.first + r.shift && r.images.last < 0x110000 &&
        r.images.areApart (.span 0xD800 0xDFFF) && r.images.areApart (.span 0x130 0x130)) =
      true := by
  decide +kernel

/-! ## Lower case of code points -/

/-- Is the code point one of white space? -/
def IsBlankPoint (n : Nat) : Prop := ∃ b ∈ blankRanges, (Points.span b.1 b.2).Has n

theorem isBlank_iff {c : Char} : isBlank c ↔ IsBlankPoint c.toNat := by
  simp [isBlank, IsBlankPoint, Points.span_has]

/-- What is known of a code point `n` that has another one, `m`, as its lower case. -/
structure Lowered (n m : Nat) : Prop where
  not_blank : ¬ IsBlankPoint n
  image_not_blank : ¬ IsBlankPoint m
  image_valid : m.isValidChar
  image_ne_dotted : m ≠ 0x130
  /-- The lower case of the lower case is nothing new. -/
  settled : lowerPoint m = m

/-- What no run moves is its own lower case. -/
theorem lowerPoint_eq_self {n : Nat} (h : ∀ r ∈ caseRuns, ¬ r.moves n) : lowerPoint n = n := by
  unfold lowerPoint
  split
  · next r hr => rw [if_neg (h r (List.mem_of_find?_eq_some hr))]
  · rfl

/-- What a run of the table moves is lowered. -/
theorem CaseRun.lowered {r : CaseRun} (hr : r ∈ caseRuns) {n : Nat} (h : r.moves n) :
    Lowered n (n + r.shift).toNat := by
  have hruns := List.all_eq_true.1 images_apart_from_runs r hr
  have hblanks := List.all_eq_true.1 runs_apart_from_blanks r hr
  have hvalid := List.all_eq_true.1 images_valid r hr
  simp only [Bool.and_eq_true, decide_eq_true_eq] at hvalid
  obtain ⟨⟨⟨hfirst, hlast⟩, hsurrogate⟩, hdotted⟩ := hvalid
  -- each part is one comparison of the tables, taken at the run that moves `n`
  have hpoint := moves_iff.1 h
  have himage := images_has hfirst hpoint
  refine
    { not_blank := ?_, image_not_blank := ?_, image_valid := ?_, image_ne_dotted := ?_,
      settled := ?_ }
  · rintro ⟨b, hb, hn⟩
    have hapart := Bool.and_eq_true_iff.1 (List.all_eq_true.1 hblanks b hb)
    exact Points.not_has_of_areApart hapart.1 hpoint hn
  · rintro ⟨b, hb, hm⟩
    have hapart := Bool.and_eq_true_iff.1 (List.all_eq_true.1 hblanks b hb)
    exact Points.not_has_of_areApart hapart.2 himage hm
  · have hm := Points.not_has_of_areApart hsurrogate himage
    -- no surrogate, and below the end of the code points
    have hle := himage.2.1
    rw [Points.span_has] at hm
    simp only [Nat.isValidChar]
    omega
  · have hm := Points.not_has_of_areApart hdotted himage
    rw [Points.span_has] at hm
    omega
  · refine lowerPoint_eq_self fun q hq hmoved => ?_
    exact Points.not_has_of_areApart (List.all_eq_true.1 hruns q hq) himage (moves_iff.1 hmoved)

/-- A code point is its own lower case, or it is lowered. -/
theorem lowerPoint_cases (n : Nat) : lowerPoint n = n ∨ Lowered n (lowerPoint n) := by
  unfold lowerPoint
  split
  · next r hfind =>
    by_cases hmoves : r.moves n
    · rw [if_pos hmoves]
      exact .inr (CaseRun.lowered (List.mem_of_find?_eq_some hfind) hmoves)
    · rw [if_neg hmoves]
      exact .inl rfl
  · exact .inl rfl

/-! ## Lower case of characters -/

/-- But for one character, the lower case is a character that is its own lower case, and a blank
    exactly if the character is one. -/
theorem lowerChar_cases (c : Char) :
    (∃ d, lowerChar c = [d] ∧ lowerChar d = [d] ∧ isBlank d = isBlank c) ∨ c = '\u0130' := by
  by_cases hdotted : c = '\u0130'
  · exact .inr hdotted
  refine .inl ?_
  have hlower : lowerChar c = [Char.ofNat (lowerPoint c.toNat)] := if_neg hdotted
  -- a character that nothing moves is as settled as its lower case, namely itself
  obtain hself | h := lowerPoint_cases c.toNat
  · rw [hself, Char.ofNat_toNat] at hlower
    exact ⟨c, hlower, hlower, rfl⟩
  · -- what it is moved to is a code point, so nothing is lost by making a character of it
    have himage : (Char.ofNat (lowerPoint c.toNat)).toNat = lowerPoint c.toNat := by
      rw [Char.ofNat, dif_pos h.image_valid]
      rfl
    have hne : Char.ofNat (lowerPoint c.toNat) ≠ '\u0130' := fun heq =>
      h.image_ne_dotted (by rw [← himage, heq]; rfl)
    refine ⟨_, hlower, ?_, ?_⟩
    · rw [lowerChar, if_neg hne, himage, h.settled]
    · -- neither of the two is a blank
      rw [Bool.eq_iff_iff, isBlank_iff, isBlank_iff, himage]
      exact iff_of_false h.image_not_blank h.not_blank

/-- The one lower case that is two characters. -/
theorem mem_lowerChar_dotted {d : Char} (h : d ∈ lowerChar '\u0130') : d = 'i' ∨ d = '\u0307' := by
  simpa [lowerChar] using h

/-- Lower case is settled after one step. -/
theorem lowerChar_of_mem {c d : Char} (h : d ∈ lowerChar c) : lowerChar d = [d] := by
  obtain ⟨e, hlower, hsettled, _⟩ | rfl := lowerChar_cases c
  · rw [hlower] at h
    cases List.mem_singleton.1 h
    exact hsettled
  · obtain rfl | rfl := mem_lowerChar_dotted h <;> decide +kernel

/-- Lower case brings in no blanks. -/
theorem isBlank_of_mem_lowerChar {c d : Char} (hc : isBlank c = false) (h : d ∈ lowerChar c) :
    isBlank d = false := by
  obtain ⟨e, hlower, _, hblank⟩ | rfl := lowerChar_cases c
  · rw [hlower] at h
    cases List.mem_singleton.1 h
    exact hblank.trans hc
  · obtain rfl | rfl := mem_lowerChar_dotted h <;> decide

theorem lowerChar_sigma : lowerChar 'Σ' = ['σ'] := by
  decide +kernel

/-- Something is left of every character. -/
theorem lowerChar_ne_nil (c : Char) : lowerChar c ≠ [] := by
  unfold lowerChar
  split <;> simp

/-! ## Forms of one letter -/

/-- Have the two characters the same lower case? -/
def SameLetter (c d : Char) : Prop := lowerChar c = lowerChar d

instance (c d : Char) : Decidable (SameLetter c d) :=
  inferInstanceAs (Decidable (lowerChar c = lowerChar d))

namespace SameLetter

variable {c d : Char}

theorem lowerChar_eq (h : SameLetter c d) : lowerChar c = lowerChar d := h

/-- The lower case of two characters is that of no other character. -/
theorem eq_dotted (h : SameLetter c '\u0130') : c = '\u0130' := by
  simpa [SameLetter, lowerChar] using h

/-- Two forms of a letter are blanks both, or neither. -/
theorem isBlank_eq (h : SameLetter c d) : isBlank c = isBlank d := by
  -- both are blank as their common lower case is, unless they are the character that has two
  obtain ⟨e, hc, _, hce⟩ | rfl := lowerChar_cases c
  · obtain ⟨f, hd, _, hdf⟩ | rfl := lowerChar_cases d
    · have hef : e = f := by simpa [SameLetter, hc, hd] using h
      rw [← hce, ← hdf, hef]
    · rw [h.eq_dotted]
  · rw [eq_dotted h.symm]

end SameLetter

end AccessScope.Text
