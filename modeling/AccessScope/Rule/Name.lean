import AccessScope.Text.Blank
import AccessScope.Text.Lower

/-!
# Names of rules

A rule keeps its name without the white space around it. Two rules may not have names with the same
formatted form, in which white space and letter case make no difference: each run of white space is
one underscore, and all letters are lower case.

* `RuleName.trimmed_trimmed`  a trimmed name stays as it is
* `RuleName.formatted_trimmed`  trimming does not change the formatted form
-/

namespace AccessScope.RuleName

/-- The name as a rule keeps it. -/
def trimmed (raw : String) : String :=
  String.ofList (Text.trim raw.toList)

/-- The form of a name that no two rules may share. -/
def formatted (raw : String) : String :=
  String.ofList (Text.lower (Text.joinRuns '_' (Text.trim raw.toList)))

/-- The greatest number of characters of a formatted name. -/
def maxLength : Nat := 255

@[simp] theorem trimmed_trimmed (raw : String) : trimmed (trimmed raw) = trimmed raw := by
  simp [trimmed, Text.trim_trim]

@[simp] theorem formatted_trimmed (raw : String) : formatted (trimmed raw) = formatted raw := by
  simp [trimmed, formatted, Text.trim_trim]

end AccessScope.RuleName
