/-!
# Ids

Contacts, contact groups, access groups, rules and monitored resources are each known by a signed
64-bit number. Only positive numbers name something.
-/

namespace AccessScope

/-- The number that a contact, a group, a rule or a resource is known by. -/
abbrev Id := Int64

namespace Id

/-- The id with this value, if 64 bits hold it. -/
def ofInt? (n : Int) : Option Id :=
  if Int64.minValue.toInt ≤ n ∧ n ≤ Int64.maxValue.toInt then some (Int64.ofInt n) else none

theorem toInt_of_ofInt? {n : Int} {a : Id} (h : ofInt? n = some a) : a.toInt = n := by
  have hmin : Int64.minValue.toInt = -9223372036854775808 := by decide
  have hmax : Int64.maxValue.toInt = 9223372036854775807 := by decide
  simp only [ofInt?] at h
  split at h
  · cases h
    exact Int64.toInt_ofInt_of_le (by omega) (by omega)
  · cases h

@[simp] theorem ofInt?_toInt (a : Id) : ofInt? a.toInt = some a := by
  have hmin : Int64.minValue.toInt = -9223372036854775808 := by decide
  have hmax : Int64.maxValue.toInt = 9223372036854775807 := by decide
  have := Int64.le_toInt a
  have := Int64.toInt_lt a
  rw [ofInt?, if_pos (by omega), Int64.ofInt_toInt]

/-- The ids in decimal, separated by commas, as messages list them. -/
def joined (ids : List Id) : String :=
  ", ".intercalate (ids.map toString)

end Id

end AccessScope
