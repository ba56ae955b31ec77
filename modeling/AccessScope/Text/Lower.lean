import AccessScope.Text.CaseMap
import AccessScope.Text.CaseContext

/-!
# Lower case of a text

The lower-case mapping of Unicode on whole texts. It is the mapping of single characters but for
the capital sigma, which becomes `ς` at the end of a word and `σ` elsewhere.

* `lower_nil`, `lowerFrom_cons`  the text is mapped letter by letter, each in its surroundings
-/

namespace AccessScope.Text

/-- The lower-case image of `c` between the characters `before` (the nearest first) and `after`. -/
def lowerAt (before : List Char) (c : Char) (after : List Char) : List Char :=
  if c = 'Σ' then
    -- final: a cased letter before it and none after it
    if facesCased before && !facesCased after then ['ς'] else ['σ']
  else lowerChar c

/-- Maps the characters that stand behind `before` (the nearest first); what is already mapped is
kept reversed in `done`. -/
def lowerOnto (before done : List Char) : List Char → List Char
  | [] => done.reverse
  | c :: after => lowerOnto (c :: before) ((lowerAt before c after).reverse ++ done) after

/-- The lower-case image of the characters that stand behind `before` (the nearest first). -/
def lowerFrom (before s : List Char) : List Char :=
  lowerOnto before [] s

/-- The lower-case image of a text. -/
def lower (s : List Char) : List Char :=
  lowerFrom [] s

private theorem lowerOnto_eq (before done s : List Char) :
    lowerOnto before done s = done.reverse ++ lowerOnto before [] s := by
  induction s generalizing before done with
  | nil => simp [lowerOnto]
  | cons c s ih =>
    rw [lowerOnto, lowerOnto, ih, ih _ ((lowerAt before c s).reverse ++ [])]
    simp

@[simp] theorem lowerFrom_nil (before : List Char) : lowerFrom before [] = [] := rfl

/-- Each letter is mapped in its surroundings. -/
@[simp] theorem lowerFrom_cons (before : List Char) (c : Char) (after : List Char) :
    lowerFrom before (c :: after) = lowerAt before c after ++ lowerFrom (c :: before) after := by
  rw [lowerFrom, lowerOnto, lowerOnto_eq]
  simp [lowerFrom]

@[simp] theorem lower_nil : lower [] = [] := rfl

end AccessScope.Text
