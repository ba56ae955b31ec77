/-!
# Counters

How often each operation ended in which outcome, and how often the rules that reach a contact were
looked up. The counts are shown in the Prometheus text format, one line a series.

* `Counters.count_increment`  counting adds one to one series and leaves the others
* `Counters.exposition`  the lines that show the counts
-/

namespace AccessScope

/-- What is counted. -/
inductive Series where
  /-- Runs of an operation with one outcome. -/
  | operation (name outcome : String)
  /-- Look-ups of the rules that reach a contact, for admins and for others. -/
  | effectiveRules (admin : Bool)
deriving DecidableEq, Repr

namespace Series

/-- The name of the counter that the series belongs to. -/
def metric : Series → String
  | operation _ _ => "resource_access_use_case_total"
  | effectiveRules _ => "resource_access_effective_rules_total"

/-- What the counter of the series counts, in words. -/
def help : Series → String
  | operation _ _ => "Resource access use case executions by operation and outcome"
  | effectiveRules _ => "Effective rule resolutions by contact kind (admin/direct)"

/-- The labels that tell the series of one counter apart. -/
def labels : Series → List (String × String)
  | operation name outcome => [("operation", name), ("outcome", outcome)]
  | effectiveRules admin => [("contact", if admin then "admin" else "non_admin")]

end Series

/-- One step of writing a label's value: the text so far, the last character first, and whether a
backslash is still held back. A line end becomes `\n`, a quote `\"`, and a backslash is doubled
unless it already stands in front of a quote or another backslash. -/
def labelStep (done : List Char × Bool) (c : Char) : List Char × Bool :=
  let (out, held) := done
  if c = '\n' then ('n' :: '\\' :: out, held)
  else if c = '"' then ('"' :: '\\' :: out, false)
  else if c = '\\' then (if held then '\\' :: '\\' :: out else out, !held)
  else (c :: (if held then '\\' :: '\\' :: out else out), false)

/-- The value of a label as it is written between quotes. -/
def labelValue (value : String) : String :=
  let (out, held) := value.toList.foldl labelStep ([], false)
  String.ofList (if held then '\\' :: '\\' :: out else out).reverse

/-- A series as it is written in front of its count. -/
def Series.text (s : Series) : String :=
  let label (l : String × String) : String := l.1 ++ "=\"" ++ labelValue l.2 ++ "\""
  s.metric ++ "\x7b" ++ ",".intercalate (s.labels.map label) ++ "\x7d"

/-- The counts of all series, and whether the counters are described. -/
structure Counters where
  counts : List (Series × Nat)
  described : Bool
deriving DecidableEq

namespace Counters

/-- Nothing is counted yet. -/
def empty : Counters := ⟨[], false⟩

/-- The count of a series. -/
def count (c : Counters) (s : Series) : Nat :=
  (c.counts.lookup s).getD 0

/-- Adds to the count of a series in a list; a series that is not there yet is added at the end. -/
def addTo (s : Series) (n : Nat) : List (Series × Nat) → List (Series × Nat)
  | [] => [(s, n)]
  | (t, m) :: rest => if s = t then (t, m + n) :: rest else (t, m) :: addTo s n rest

/-- Counts a series once more. -/
def increment (c : Counters) (s : Series) : Counters :=
  { c with counts := addTo s 1 c.counts }

/-- Describes the counters, and shows one series of each from the start. -/
def describe (c : Counters) : Counters :=
  { counts :=
      addTo (.effectiveRules true) 0
        (addTo (.operation "partial_update_rule" "no_content") 0 c.counts)
    described := true }

private theorem lookup_addTo (s t : Series) (n : Nat) (l : List (Series × Nat)) :
    ((addTo s n l).lookup t).getD 0 = (l.lookup t).getD 0 + if t = s then n else 0 := by
  induction l with
  | nil =>
    by_cases hts : t = s
    · simp [addTo, hts]
    · have : (t == s) = false := by simpa using hts
      simp [addTo, List.lookup_cons, this, hts]
  | cons p l ih =>
    obtain ⟨u, m⟩ := p
    rw [addTo]
    by_cases hsu : s = u
    · subst hsu
      by_cases hts : t = s
      · simp [hts]
      · have : (t == s) = false := by simpa using hts
        simp [List.lookup_cons, this, hts]
    · by_cases htu : t = u
      · subst htu
        have hts : t ≠ s := fun h => hsu h.symm
        simp [hsu, hts]
      · have : (t == u) = false := by simpa using htu
        simp [hsu, List.lookup_cons, this, ih]

/-- Counting adds one to one series and leaves the others. -/
theorem count_increment (c : Counters) (s t : Series) :
    (c.increment s).count t = c.count t + if t = s then 1 else 0 :=
  lookup_addTo s t 1 c.counts

/-- Describing the counters changes no count. -/
theorem count_describe (c : Counters) (t : Series) : c.describe.count t = c.count t := by
  rw [count, describe, lookup_addTo, lookup_addTo]
  simp [count]

/-- The lines that show the counts, in order. Series that are written alike share one line, with the
count of the first of them. -/
def lines (c : Counters) : List String :=
  let shown := (c.counts.map fun (s, n) => (s.text, n)).eraseDupsBy fun a b => a.1 == b.1
  (shown.map fun (text, n) => text ++ " " ++ toString n).mergeSort fun a b => !(b < a)

/-- The lines that show the counts, each counter's type and, if they are described, each counter's
description, in order. -/
def exposition (c : Counters) : List String :=
  -- a counter is mentioned only if one of its series is counted
  let metrics := (c.counts.map fun (s, _) => (s.metric, s.help)).eraseDups
  let types := metrics.map fun (name, _) => "# TYPE " ++ name ++ " counter"
  let helps := if c.described then metrics.map fun (name, text) => "# HELP " ++ name ++ " " ++ text
    else []
  (helps ++ types ++ c.lines).mergeSort fun a b => !(b < a)

end Counters

end AccessScope
