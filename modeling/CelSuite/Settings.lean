import CelSuite.Document.Error
import CelSuite.Log
import CelSuite.Text.Characters
import CelSuite.Unicode.CaseMap
import CelSuite.Verify

/-! # Settings

The match policy and the log level of a run, from named texts such as the environment. Blanks around a
setting and its case do not matter; one that is missing or empty has its default. -/

namespace CelSuite

/-- The settings of a run. -/
structure Settings where
  policy : MatchPolicy
  level : LogLevel

namespace Settings

/-- Errors of any category match, and warnings are logged. -/
def standard : Settings := ⟨.any, .warn⟩

/-- The name of the setting of the match policy. -/
def policyVariable : String := "CEL_CONFORMANCE_MATCH"

/-- The name of the setting of the log level. -/
def levelVariable : String := "CEL_CONFORMANCE_LOG_LEVEL"

/-- The option that a text names; a missing or empty text names the default. -/
def readOption {α : Type} (options : List α) (name : α → String) (default : α) (source : String) :
    Option String → Except DocumentError α
  | none => .ok default
  | some raw =>
    if raw = "" then .ok default
    else
      match options.find? fun a => name a == Text.lower (Text.trim raw) with
      | some a => .ok a
      | none => .error (.badSetting source (options.map name) raw)

/-- The match policy that a text names. -/
def readPolicy (source : String) (raw : Option String) : Except DocumentError MatchPolicy :=
  readOption MatchPolicy.all (·.name) standard.policy source raw

/-- The log level that a text names. -/
def readLevel (raw : Option String) : Except DocumentError LogLevel :=
  readOption LogLevel.all (·.name) standard.level levelVariable raw

/-- The settings of an environment. -/
def ofEnvironment (env : List (String × String)) : Except DocumentError Settings := do
  let policy ← readPolicy policyVariable (Assoc.get? policyVariable env)
  let level ← readLevel (Assoc.get? levelVariable env)
  return ⟨policy, level⟩

/-- The policy of user data. -/
def policyOfUserData (data : List (String × String)) : Except DocumentError MatchPolicy :=
  readPolicy "match" (Assoc.get? "match" data)

end Settings

end CelSuite
