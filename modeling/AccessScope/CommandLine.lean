import AccessScope.CommandLine.Command
import AccessScope.Json.Text
import AccessScope.Memory.RuleStore
import AccessScope.Rule.Json
import AccessScope.Settings
import AccessScope.UseCase.Intake

/-!
# The command line

Two commands: one checks a file of rule definitions, the other prints which categories may narrow
which. What a run prints and how it ends is a function of the arguments, the variables and the
files.

* `checkAll`  the verdicts on definitions that are taken in one after the other
* `CommandLine.run`  the outcome of a run
-/

namespace AccessScope

/-- The verdict on one definition that is taken into a store: the store with the new rule, or why it
is refused. -/
def takeIn (s : RuleStore) (r : RuleRequest) : Except Failure RuleStore := do
  let content ← r.toContent
  let (s, _) ← s.add content
  return s

/-- The verdicts on definitions that are taken into a store one after the other. A definition that
is refused leaves the store as it was. -/
def checkInto (s : RuleStore) : List RuleRequest → List (Except Failure Unit)
  | [] => []
  | r :: rest =>
    match takeIn s r with
    | .ok s => .ok () :: checkInto s rest
    | .error f => .error f :: checkInto s rest

/-- The verdicts on a list of definitions. -/
def checkAll (requests : List RuleRequest) : List (Except Failure Unit) :=
  checkInto .empty requests

/-- The number of definitions that are refused. -/
def countRefused (verdicts : List (Except Failure Unit)) : Nat :=
  verdicts.countP fun v => !v.isOk

namespace CommandLine

/-- How many lists and objects may be nested in a file. -/
def maxNesting : Nat := 127

/-- The rule definitions that a file holds. -/
def readDefinitions (text : String) : Option (List RuleRequest) := do
  Json.readList RuleRequest.read maxNesting (← Json.parse? text)

/-- How a run ends, what it prints, and its complaint if there is one. -/
structure Outcome where
  exit : Nat
  output : String
  complaint : Option String
deriving DecidableEq, Repr

/-- The line about one definition. -/
def verdictLine (index : Nat) (name : String) (verdict : Except Failure Unit) : String :=
  "#" ++ toString index ++ " '" ++ name ++ "': "
    ++ match verdict with
      | .ok () => "ok"
      | .error f => f.message

/-- The lines about all definitions, in their order. -/
def report (requests : List RuleRequest) : List String :=
  (requests.zip (checkAll requests)).mapIdx fun index (r, verdict) =>
    verdictLine index r.name verdict

/-- The outcome of checking a file of rule definitions; `content` is its text, if it has one. -/
def validateFile (path : String) (content : Option String) : Outcome :=
  match content with
  | none => ⟨1, "", some ("Error: Failed to read " ++ path)⟩
  | some text =>
    match readDefinitions text with
    | none => ⟨1, "", some ("Error: Failed to parse rule definitions in " ++ path)⟩
    | some requests =>
      let refused := countRefused (checkAll requests)
      let output := unlines (report requests)
      if refused = 0 then ⟨0, output, none⟩
      else
        ⟨1, output,
          some ("Error: " ++ toString refused ++ " invalid rule definition(s) in " ++ path)⟩

/-- The line about what may narrow a category, the category's name being filled up to 17
characters. -/
def narrowingLine (c : Category) : String :=
  let name := c.tag ++ String.ofList (List.replicate (17 - c.tag.length) ' ')
  if c.isLeaf then name ++ " (leaf)"
  else name ++ " -> " ++ ", ".intercalate (c.narrowings.map (·.tag))

/-- The outcome of a task, where `textOf` gives the text of a file. -/
def Task.outcome (textOf : String → Option String) : Task → Outcome
  | validate path => validateFile path (textOf path)
  | compatibility => ⟨0, unlines (Category.values.map narrowingLine), none⟩

/-- The outcome of a run with these arguments and variables, where `textOf` gives the text of a
file. The settings are read before a task is done. -/
def run (arguments : List String) (lookup : String → Option String)
    (textOf : String → Option String) : Outcome :=
  match Command.ofArguments arguments with
  | .error fault => ⟨2, "", some fault.message⟩
  | .ok .help => ⟨0, unlines helpLines, none⟩
  | .ok .version => ⟨0, unlines [versionLine], none⟩
  | .ok (.task task) =>
    match Settings.ofVariables lookup with
    | .error fault => ⟨1, "", some ("Error: " ++ fault.headline)⟩
    | .ok _ => task.outcome textOf

end CommandLine

end AccessScope
