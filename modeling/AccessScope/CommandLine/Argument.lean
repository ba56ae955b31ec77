/-!
# Arguments

How a single argument of a command line reads: as an option, as a plain word, or as the two hyphens
behind which everything is a word.

* `Argument.ofText`  what an argument reads as
* `ofText_eq_word_iff`  the words are the arguments that do not begin with a hyphen, and the hyphen
-/

namespace AccessScope.CommandLine

/-- An option as it is written: its name with the hyphens, and the value that is attached to it. -/
structure Flag where
  name : String
  value : Option String
deriving DecidableEq, Repr

/-- What a single argument reads as. -/
inductive Argument where
  /-- Two hyphens: all arguments behind them are words. -/
  | separator
  /-- An option. -/
  | flag (f : Flag)
  /-- Anything else, a single hyphen too. -/
  | word (text : String)
deriving DecidableEq, Repr

/-- What an argument reads as. An option behind two hyphens may carry a value behind an equals sign.
One hyphen stands before a group of options of one character each, of which the first is taken: it
is an option that nothing can follow, or it is unknown. -/
def Argument.ofText (text : String) : Argument :=
  match text.toList with
  | ['-', '-'] => .separator
  | '-' :: '-' :: option =>
    .flag
      { name := "--" ++ String.ofList (option.takeWhile (· ≠ '='))
        value := (option.dropWhile (· ≠ '=')).tail?.map String.ofList }
  | '-' :: letter :: _ => .flag ⟨String.ofList ['-', letter], none⟩
  | _ => .word text

/-- The words are the arguments that do not begin with a hyphen, and the hyphen alone. -/
theorem ofText_eq_word_iff (text word : String) :
    Argument.ofText text = .word word ↔
      text = word ∧ (text.toList.head? ≠ some '-' ∨ text.toList = ['-']) := by
  unfold Argument.ofText
  split
  · simp_all
  · simp_all
  · simp_all
  · rename_i hs
    have : text.toList.head? ≠ some '-' ∨ text.toList = ['-'] := by
      rcases h : text.toList with _ | ⟨c, _ | ⟨d, l⟩⟩
      · simp
      · by_cases hc : c = '-' <;> simp [hc]
      · left
        rintro hc
        simp only [List.head?_cons, Option.some.injEq] at hc
        exact hs d l (hc ▸ h)
    simp [this]

end AccessScope.CommandLine
