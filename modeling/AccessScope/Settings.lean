import AccessScope.Text.Blank

/-!
# Settings

How the program is set up, from named variables of its environment. A variable that is not set has
a default.

* `Settings.ofVariables`  the settings, or the first variable that cannot be understood
-/

namespace AccessScope

/-- The access group whose members may manage rules when no other is named. -/
def defaultAccessGroup : String := "customer_admin_acl"

/-- How the program is set up. -/
structure Settings where
  /-- The access group that a caller must belong to, if any. -/
  accessGroup : Option String
  logFormat : String
  metricsEnabled : Bool
  serviceName : String
deriving DecidableEq

/-- What can be wrong with a variable. -/
inductive SettingsFault where
  | logFormat (value : String)
  /-- The variable `name` is no truth value; `value` is what it was understood as. -/
  | notBoolean (name value : String)
deriving DecidableEq, Repr

namespace SettingsFault

/-- The wording of a fault. -/
def headline : SettingsFault → String
  | logFormat value => "Invalid LOG_FORMAT '" ++ value ++ "': expected 'text' or 'json'"
  | notBoolean name _ => "Invalid " ++ name

/-- The wording of what lies behind a fault, if there is more to say. -/
def cause? : SettingsFault → Option String
  | logFormat _ => none
  | notBoolean _ value => some ("expected a boolean, got '" ++ value ++ "'")

/-- The wording of a fault and of what lies behind it. -/
def message (f : SettingsFault) : String :=
  match f.cause? with
  | none => f.headline
  | some cause => f.headline ++ " | " ++ cause

end SettingsFault

/-- A value without the white space around it. -/
def trimmedValue (value : String) : String :=
  String.ofList (Text.trim value.toList)

namespace Settings

/-- The access group that a value names: none if it is blank, the default without a value. -/
def readAccessGroup : Option String → Option String
  | none => some defaultAccessGroup
  | some value => if trimmedValue value = "" then none else some (trimmedValue value)

/-- The truth value that a variable holds. White space around it and the case of ASCII letters make
no difference. -/
def readBoolean (name : String) (default : Bool) : Option String → Except SettingsFault Bool
  | none => .ok default
  | some value =>
    let word := String.ofList ((trimmedValue value).toList.map Char.toLower)
    if ["1", "true", "yes", "on"].contains word then .ok true
    else if ["0", "false", "no", "off"].contains word then .ok false
    else .error (.notBoolean name word)

/-- The settings that the variables describe. -/
def ofVariables (lookup : String → Option String) : Except SettingsFault Settings := do
  let logFormat := (lookup "LOG_FORMAT").getD "text"
  unless logFormat = "text" ∨ logFormat = "json" do
    throw (.logFormat logFormat)
  let metricsEnabled ← readBoolean "METRICS_ENABLED" false (lookup "METRICS_ENABLED")
  return {
    accessGroup := readAccessGroup (lookup "RESOURCE_ACCESS_AUTHORIZED_ACL_GROUP")
    logFormat
    metricsEnabled
    serviceName := (lookup "SERVICE_NAME").getD "resource-access-core" }

/-- The settings when no variable is set. -/
def default : Settings where
  accessGroup := some defaultAccessGroup
  logFormat := "text"
  metricsEnabled := false
  serviceName := "resource-access-core"

/-- Without variables the settings are the defaults. -/
theorem ofVariables_none : ofVariables (fun _ => none) = .ok default := rfl

end Settings

end AccessScope
