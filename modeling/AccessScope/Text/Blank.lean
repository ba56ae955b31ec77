/-!
# White space

The characters with the Unicode property `White_Space`, and what names need of them: cutting them
off both ends of a text, writing each run of them as one separator, and listing the words between
them.

* `blank_of_isWhitespace`  the core library's white space is blank
* `trim_trim`  a trimmed text has nothing left to trim
-/

namespace AccessScope.Text

/-- The ranges of code points with the property `White_Space`, ascending. -/
def blankRanges : List (Nat × Nat) :=
  [ (0x9, 0xD), (0x20, 0x20), (0x85, 0x85), (0xA0, 0xA0), (0x1680, 0x1680), (0x2000, 0x200A),
    (0x2028, 0x2029), (0x202F, 0x202F), (0x205F, 0x205F), (0x3000, 0x3000)]

/-- Has the character the property `White_Space`? -/
def isBlank (c : Char) : Bool :=
  blankRanges.any fun r => r.1 ≤ c.toNat && c.toNat ≤ r.2

/-- Every character that the core library takes for white space is blank. -/
theorem blank_of_isWhitespace {c : Char} (h : c.isWhitespace) : isBlank c := by
  simp only [Char.isWhitespace, Bool.or_eq_true, decide_eq_true_eq] at h
  rcases h with ((rfl | rfl) | rfl) | rfl <;> decide

/-- The characters without the blanks in front. -/
def trimStart (s : List Char) : List Char :=
  s.dropWhile isBlank

/-- The characters without the blanks at either end. -/
def trim (s : List Char) : List Char :=
  (trimStart (trimStart s).reverse).reverse

private theorem not_isBlank_head_trimStart {s : List Char} {c : Char}
    (h : (trimStart s).head? = some c) : isBlank c = false := by
  have := List.head?_dropWhile_not isBlank s
  rw [trimStart] at h
  simpa [h] using this

private theorem trimStart_of_head {s : List Char} (h : ∀ c, s.head? = some c → isBlank c = false) :
    trimStart s = s := by
  cases s with
  | nil => rfl
  | cons c s => simp [trimStart, h c rfl]

/-- A trimmed text has nothing left to trim. -/
theorem trim_trim (s : List Char) : trim (trim s) = trim s := by
  have hback : trimStart (trimStart (trimStart s).reverse) = trimStart (trimStart s).reverse :=
    trimStart_of_head fun c hc => not_isBlank_head_trimStart hc
  have hpre : trim s <+: trimStart s := by
    rw [← List.reverse_suffix, trim, List.reverse_reverse]
    exact List.dropWhile_suffix _
  have hfront : trimStart (trim s) = trim s := by
    refine trimStart_of_head fun c hc => not_isBlank_head_trimStart (s := s) ?_
    obtain ⟨rest, hrest⟩ := hpre
    rw [← hrest, List.head?_append, hc]
    rfl
  rw [trim, hfront, trim, List.reverse_reverse, hback]

/-- One step of `joinRuns`, taken from the right: `c` in front of the finished text `done.1`, where
`done.2` says whether a blank stands right behind `c`. -/
def joinRunsStep (separator c : Char) (done : List Char × Bool) : List Char × Bool :=
  if isBlank c then (if done.2 then done.1 else separator :: done.1, true)
  else (c :: done.1, false)

/-- The characters with each run of blanks written as one separator. -/
def joinRuns (separator : Char) (s : List Char) : List Char :=
  (s.foldr (joinRunsStep separator) ([], false)).1

/-- The pieces between the blanks, empty ones included. -/
def pieces (s : List Char) : List (List Char) :=
  s.foldr
    (fun c ps => if isBlank c then [] :: ps else
      match ps with
      | [] => [[c]]
      | p :: ps => (c :: p) :: ps)
    [[]]

/-- The words of a text: its maximal runs of characters that are not blank. -/
def words (s : List Char) : List (List Char) :=
  (pieces s).filter (!·.isEmpty)

end AccessScope.Text
