import CelSuite.Classify.Classifier
import CelSuite.Environment
import CelSuite.Expr.Scope
import CelSuite.Fixture.Value

/-! # Scenarios

A scenario holds what one case needs: the expression, its container, its variables and its type
environment. It records one outcome, a value or a classified error, and never a second one. -/

namespace CelSuite

/-- What an evaluation gave. -/
inductive Outcome where
  | value (v : Value)
  | error (message : String) (category : Category)
  deriving Inhabited

/-- The word for an outcome in messages. -/
def Outcome.kind : Outcome → String
  | .value _ => "value"
  | .error _ _ => "error"

/-- A scenario that is driven out of order. -/
inductive ScenarioError where
  | noExpression
  | alreadyRecorded (kind : String)
  deriving DecidableEq

/-- The text of a scenario error. -/
def ScenarioError.message : ScenarioError → String
  | .noExpression => "no expression to evaluate"
  | .alreadyRecorded kind => "outcome already recorded (" ++ kind ++ "); a scenario evaluates once"

/-- What one case needs, and the outcome once it is recorded. -/
structure Scenario where
  expression : Option String := none
  container : String := ""
  disableCheck : Bool := false
  bindings : Activation := []
  typeEnv : List EnvEntry := []
  outcome : Option Outcome := none

namespace Scenario

/-- The message of a recorded error. -/
def errorMessage (s : Scenario) : Option String :=
  match s.outcome with
  | some (.error message _) => some message
  | _ => none

/-- Refuses a scenario with an outcome. -/
def requireOpen (s : Scenario) : Except ScenarioError Unit :=
  match s.outcome with
  | none => .ok ()
  | some o => .error (.alreadyRecorded o.kind)

theorem requireOpen_eq_ok {s : Scenario} : s.requireOpen = .ok () ↔ s.outcome = none := by
  unfold requireOpen
  cases s.outcome <;> simp

/-- Records the outcome. -/
def record (s : Scenario) (o : Outcome) : Except ScenarioError Scenario :=
  s.requireOpen.map fun _ => { s with outcome := some o }

/-- Binds a variable, in place of an earlier value. -/
def bind (s : Scenario) (name : String) (v : Value) : Scenario :=
  { s with bindings := Assoc.put name v s.bindings }

/-- Adds an entry to the type environment. -/
def declare (s : Scenario) (e : EnvEntry) : Scenario :=
  { s with typeEnv := s.typeEnv ++ [e] }

/-- Binds variables to literals in turn, up to the first literal without a value; the variables before it
    stay bound. -/
def applyBindings (s : Scenario) (r : Registry) : List (String × Node) → Scenario × Except Defect Unit
  | [] => (s, .ok ())
  | (name, n) :: rest =>
    match n.toValue r with
    | .ok v => applyBindings (s.bind name v) r rest
    | .error e => (s, .error e)

end Scenario

end CelSuite
