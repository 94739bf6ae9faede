import CelSuite.Expr.Check
import CelSuite.Expr.Eval
import CelSuite.Expr.Lexer
import CelSuite.Expr.Parser
import CelSuite.Log
import CelSuite.Scenario
import CelSuite.StandIns
import CelSuite.Text.Quotes
import CelSuite.Value.Render

/-! # Evaluation attempts

An evaluator is any function from a request to a program, and a program any function from an activation
to a value; both may fail with an error message or crash. One attempt hands the evaluator the environment
of a scenario. A value or an error becomes the scenario's outcome, a crash leaves it open. -/

namespace CelSuite

/-- A failure that is no outcome. -/
inductive Crash where
  | invalidCodePoint (n : Nat)
  | other (message : String)
  deriving DecidableEq

/-- How an evaluator fails: with an error message, or by crashing. -/
inductive Failure where
  | error (message : String)
  | crash (c : Crash)
  deriving DecidableEq

/-- What an evaluator compiles. -/
structure Request where
  expression : String
  declarations : Declarations
  container : String
  disableCheck : Bool

/-- An expression made ready: it gives a value for an activation, or fails. -/
abbrev Program := Activation → Except Failure Value

/-- Makes requests ready, or fails. -/
abbrev Evaluator := Request → Except Failure Program

/-- The crash of an exception that nothing caught. -/
def Exception.crash : Exception → Crash
  | .invalidCodePoint n => .invalidCodePoint n
  | x => .other x.message

/-- The failure of a text that is no expression. An exception is a crash, all else an error. -/
def SyntaxError.failure : SyntaxError → Failure
  | .exception x => .crash x.crash
  | e => .error e.message

/-- The failure of an expression without a value. An exception is a crash, all else an error. -/
def EvalError.failure : EvalError → Failure
  | .exception x => .crash x.crash
  | e => .error e.message

namespace Evaluator

/-- The tree of a text. -/
def parse (text : String) : Except SyntaxError Expr := do
  Parser.parse (← Lexer.tokenize text)

/-- The program of a tree in a scope. -/
def program [MessageSystem] (s : Scope) (e : Expr) : Program := fun act =>
  (e.eval s act).mapError EvalError.failure

/-- The evaluator of the expression language. -/
def standard [MessageSystem] : Evaluator := fun r =>
  match parse r.expression with
  | .error e => .error e.failure
  | .ok e =>
    let s : Scope := ⟨r.declarations, r.container⟩
    if r.disableCheck then .ok (program s e)
    else
      match e.check s with
      | .ok () => .ok (program s e)
      | .error err => .error err.failure

end Evaluator

/-- Why an attempt has no outcome. -/
inductive AttemptError where
  | state (e : ScenarioError)
  | binding (e : TypeBindingError)
  | crash (c : Crash)

/-- Message types for a container. -/
abbrev StandInProvider := String → List EnvEntry

/-- What an attempt leaves: the scenario, what was logged, what the evaluator was asked if it was, and the
    outcome or why there is none. -/
structure Attempt where
  scenario : Scenario
  log : Log
  request : Option Request
  result : Except AttemptError Outcome

/-- Names and texts in braces, for logs. -/
def braced (entries : List (String × String)) : String :=
  "\x7b" ++ ", ".intercalate (entries.map fun e => e.1 ++ ": " ++ e.2) ++ "\x7d"

namespace Scenario

/-- What an evaluator gives for a request: a value, an error message, or a crash. -/
def run (evaluator : Evaluator) (r : Request) (act : Activation) : Except Failure Value :=
  match evaluator r with
  | .ok p => p act
  | .error f => .error f

/-- The scenario with the message types of its container declared, if it has one. -/
def withStandIns (s : Scenario) (standIns : Option StandInProvider) : Scenario :=
  match standIns with
  | some provider =>
    if s.container = "" then s else { s with typeEnv := s.typeEnv ++ provider s.container }
  | none => s

theorem withStandIns_outcome (s : Scenario) (standIns : Option StandInProvider) :
    (s.withStandIns standIns).outcome = s.outcome := by
  unfold withStandIns
  cases standIns with
  | none => rfl
  | some provider =>
    dsimp only
    split <;> rfl

/-- The request for an expression of a scenario. -/
def request (s : Scenario) (expression : String) (ds : Declarations) : Request :=
  ⟨expression, ds, s.container, s.disableCheck⟩

/-- What is logged before an evaluation. -/
def environmentLog (s : Scenario) (ds : Declarations) : Log :=
  [⟨.debug, "annotations: " ++ braced (ds.map fun e => (e.1, e.2.describe))⟩,
    ⟨.debug, "activation: " ++ braced (s.bindings.map fun e => (e.1, e.2.render))⟩]

/-- Ends an attempt with an outcome, which is recorded. -/
def conclude (s : Scenario) (o : Outcome) (log : Log) (r : Request) : Attempt :=
  match s.record o with
  | .ok s => ⟨s, log, some r, .ok o⟩
  | .error e => ⟨s, log, some r, .error (.state e)⟩

theorem conclude_of_open {s : Scenario} (h : s.outcome = none) (o : Outcome) (log : Log) (r : Request) :
    s.conclude o log r = ⟨{ s with outcome := some o }, log, some r, .ok o⟩ := by
  rw [conclude, record, requireOpen_eq_ok.mpr h]
  rfl

/-- Evaluates the expression of a scenario and records the outcome. -/
def evaluate (s : Scenario) (evaluator : Evaluator) (classifier : Classifier)
    (standIns : Option StandInProvider) : Attempt :=
  match s.expression with
  | none => ⟨s, [], none, .error (.state .noExpression)⟩
  | some expression =>
    match s.requireOpen with
    | .error e => ⟨s, [], none, .error (.state e)⟩
    | .ok () =>
      let s := s.withStandIns standIns
      match Declarations.ofEntries s.typeEnv with
      | .error e => ⟨s, [], none, .error (.binding e)⟩
      | .ok ds =>
        let r := s.request expression ds
        let log := s.environmentLog ds
        match run evaluator r s.bindings with
        | .ok v => s.conclude (.value v) log r
        | .error (.crash c) => ⟨s, log, some r, .error (.crash c)⟩
        | .error (.error message) =>
          let category := classifier.classify message
          let entry : LogEntry :=
            ⟨.debug, "evaluation error " ++ Text.quote message ++ " classified as " ++ category⟩
          s.conclude (.error message category) (log ++ [entry]) r

/-- Evaluates text that stands between quotes: undoes the escapes of the quote, keeps the expression and
    evaluates it. -/
def evaluateText (s : Scenario) (text : String) (quote : Text.Quote) (evaluator : Evaluator)
    (classifier : Classifier) (standIns : Option StandInProvider) : Attempt :=
  match s.requireOpen with
  | .error e => ⟨s, [], none, .error (.state e)⟩
  | .ok () =>
    { s with expression := some (Text.expandEscapes quote text) }.evaluate evaluator classifier standIns

end Scenario

end CelSuite
