import AccessScope.CommandLine.Argument
import AccessScope.Text.Control

/-!
# Commands

What the arguments of a command line ask for, or what is wrong with them. The first fault in reading
order is the one that counts, and an option that asks for the help or the version ends the reading.

* `Command.ofArguments`  the command that the arguments ask for
* `UsageFault.message`  the wording of a fault
-/

namespace AccessScope.CommandLine

/-- What there is to do. -/
inductive Task where
  | compatibility
  | validate (path : String)
deriving DecidableEq, Repr

/-- What the arguments ask for. -/
inductive Command where
  | help
  | version
  | task (t : Task)
deriving DecidableEq, Repr

/-- What can be wrong with the arguments. -/
inductive UsageFault where
  | noCommand
  | unknownCommand (argument : String)
  | noFile
  | emptyFile
  | unexpected (argument : String)
  | needlessValue (flag value : String)
deriving DecidableEq, Repr

/-- The name and the version of the program. -/
def versionLine : String := "resource-access 0.9.0"

/-- The commands and what they do. -/
def commands : List (String × String) :=
  [ ("validate", "Check a JSON array of rule definitions for structural errors and formatted name "
      ++ "collisions"),
    ("compatibility", "Print which filter types may narrow which"),
    ("help", "Print this message")]

/-- Is this the name of a command? -/
def isCommand (text : String) : Bool :=
  commands.any (·.1 == text)

/-- The lines that tell how the program is called. -/
def helpLines : List String :=
  let column (name : String) : String :=
    "  " ++ name ++ String.ofList (List.replicate (15 - name.length) ' ')
  ["Resource access rule tooling", "", "Usage: resource-access <COMMAND>", "", "Commands:"]
    ++ commands.map (fun (name, about) => column name ++ about)
    ++ ["", "Options:", column "-h, --help" ++ "Print help",
      column "-V, --version" ++ "Print version"]

/-- The text of lines that each end. -/
def unlines (lines : List String) : String :=
  String.join (lines.map (· ++ "\n"))

/-- A text as it is quoted in a complaint. -/
def quoted (text : String) : String :=
  "'" ++ String.ofList (Text.visible text.toList) ++ "'"

/-- The wording of a fault. Where no command is named, the help takes its place. -/
def UsageFault.message : UsageFault → String
  | noCommand => "\n".intercalate helpLines
  | unknownCommand argument => "error: unrecognized subcommand " ++ quoted argument
  | noFile => "error: the following required arguments were not provided:"
  | emptyFile => "error: a value is required for '<FILE>' but none was supplied"
  | unexpected argument => "error: unexpected argument " ++ quoted argument ++ " found"
  | needlessValue flag value =>
    "error: unexpected value " ++ quoted value ++ " for " ++ quoted flag
      ++ " found; no more were expected"

/-- The flags that ask for the help, everywhere. -/
def helpFlags : List (String × Command) := [("--help", .help), ("-h", .help)]

/-- The flags that ask for the version, in front of a command only. -/
def versionFlags : List (String × Command) := [("--version", .version), ("-V", .version)]

/-- The command that a flag asks for, where `known` lists the flags that ask for one. -/
def Command.ofFlag (known : List (String × Command)) (f : Flag) : Except UsageFault Command :=
  match known.lookup f.name, f.value with
  | none, _ => .error (.unexpected f.name)
  | some _, some value => .error (.needlessValue f.name value)
  | some command, none => .ok command

/-- The words among the arguments of a command that takes at most `room` of them. With them comes
the command that a flag behind them asks for instead, if there is such a flag. -/
def readWords : Nat → List String → Except UsageFault (List String × Option Command)
  | _, [] => .ok ([], none)
  | room, argument :: rest =>
    match Argument.ofText argument with
    | .separator =>
      match rest.drop room with
      | [] => .ok (rest, none)
      | text :: _ => .error (.unexpected text)
    | .flag f => do return ([], some (← Command.ofFlag helpFlags f))
    | .word text =>
      match room with
      | 0 => .error (.unexpected text)
      | room + 1 => do
        let (words, instead) ← readWords room rest
        return (text :: words, instead)

/-- The command that the arguments ask for. -/
def Command.ofArguments : List String → Except UsageFault Command
  | [] => .error .noCommand
  | "compatibility" :: rest => do
    let (_, instead) ← readWords 0 rest
    return instead.getD (.task .compatibility)
  | "validate" :: rest => do
    match ← readWords 1 rest with
    -- a file without a name is refused before the help is shown
    | ("" :: _, _) => .error .emptyFile
    | (_, some instead) => return instead
    | (path :: _, none) => return .task (.validate path)
    | ([], none) => .error .noFile
  | ["help"] => .ok .help
  | "help" :: topic :: rest =>
    match rest with
    | other :: _ => .error (.unknownCommand (if isCommand topic then other else topic))
    | [] => if isCommand topic then .ok .help else .error (.unknownCommand topic)
  | argument :: rest =>
    match Argument.ofText argument, rest with
    | .flag f, _ => Command.ofFlag (helpFlags ++ versionFlags) f
    | .word text, _ => .error (.unknownCommand text)
    | .separator, [] => .error .noCommand
    | .separator, text :: _ =>
      .error (if isCommand text then .unexpected text else .unknownCommand text)

/-- The file that a command reads. -/
def Command.path? : Command → Option String
  | task (.validate path) => some path
  | task .compatibility | help | version => none

end AccessScope.CommandLine
