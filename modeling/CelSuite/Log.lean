/-! # Log lines

Messages have one of four levels. A logger writes the messages that reach its level, with the level in
capitals and a fixed text in front. A level of another name ranks below all four. -/

namespace CelSuite

/-- How much a message matters. -/
inductive LogLevel where
  | debug
  | info
  | warn
  | error
  deriving DecidableEq

/-- The name of a level in settings and lines. -/
def LogLevel.name : LogLevel → String
  | .debug => "debug"
  | .info => "info"
  | .warn => "warn"
  | .error => "error"

/-- Every level, the least important first. -/
def LogLevel.all : List LogLevel := [.debug, .info, .warn, .error]

/-- The level of a name, if it is one of the four. -/
def LogLevel.ofName? (name : String) : Option LogLevel :=
  all.find? (·.name == name)

/-- The rank of a level among the four, from 1; anything else has rank 0. -/
def LogLevel.rank : Option LogLevel → Nat
  | none => 0
  | some .debug => 1
  | some .info => 2
  | some .warn => 3
  | some .error => 4

/-- The level in capitals, filled up to five characters. -/
def LogLevel.label : LogLevel → String
  | .debug => "DEBUG"
  | .info => "INFO "
  | .warn => "WARN "
  | .error => "ERROR"

/-- A message with its level. -/
structure LogEntry where
  level : LogLevel
  message : String

/-- What has been logged, in order. -/
abbrev Log := List LogEntry

/-- Writes the messages from a level on; a silent logger writes none. -/
structure Logger where
  level : Option LogLevel
  lead : String
  silent : Bool

namespace Logger

/-- A logger that writes warnings and errors, with the name of the suite in front. -/
def standard : Logger := ⟨some .warn, "[cel-conformance]", false⟩

/-- A logger that writes nothing, whatever its level. -/
def quiet : Logger := ⟨none, "", true⟩

/-- The logger at another level. -/
def setLevel (l : Logger) (level : Option LogLevel) : Logger := { l with level := level }

/-- The line of a message after its time, if the logger writes it. -/
def line? (l : Logger) (e : LogEntry) : Option String :=
  if l.silent || LogLevel.rank (some e.level) < LogLevel.rank l.level then none
  else some (e.level.label ++ " " ++ l.lead ++ " " ++ e.message)

end Logger

end CelSuite
