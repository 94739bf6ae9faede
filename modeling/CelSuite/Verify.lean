import CelSuite.Fixture.Parse
import CelSuite.Log
import CelSuite.Scenario
import CelSuite.Value.Map
import CelSuite.Value.Render

/-! # Verification

Compares what a scenario captured with what its case expects. Values are compared as values. Errors are
compared by category: under the exact policy the categories have to agree, otherwise a difference is
only logged. -/

namespace CelSuite

/-- How errors are compared: any error matches any, or the categories have to agree. -/
inductive MatchPolicy where
  | any
  | exact
  deriving DecidableEq

/-- The name of a policy in settings. -/
def MatchPolicy.name : MatchPolicy → String
  | .any => "any"
  | .exact => "exact"

/-- Every policy, in the order in which messages list them. -/
def MatchPolicy.all : List MatchPolicy := [.any, .exact]

/-- The policy of a name, if there is one. -/
def MatchPolicy.ofName? (name : String) : Option MatchPolicy :=
  all.find? (·.name == name)

/-- What an outcome lacks. -/
inductive Discrepancy where
  | noOutcome
  | failed
  | differs
  | wrongCategory
  | noError
  | unexpectedError
  deriving DecidableEq

/-- The text of a discrepancy. -/
def Discrepancy.message : Discrepancy → String
  | .noOutcome => "no outcome recorded"
  | .failed => "evaluation failed"
  | .differs => "result mismatch"
  | .wrongCategory => "error category mismatch"
  | .noError => "expected an error"
  | .unexpectedError => "unexpected error"

/-- A failed verification, with both sides. -/
structure Mismatch where
  discrepancy : Discrepancy
  expected : String
  actual : String

/-- The text of a mismatch, with both sides. -/
def Mismatch.message (m : Mismatch) : String :=
  m.discrepancy.message ++ ": expected " ++ m.expected ++ ", got " ++ m.actual

/-- Why a verification does not succeed. -/
inductive VerifyError where
  | mismatch (m : Mismatch)
  | defect (e : Defect)

/-- What verification goes by: the policy, and how messages and literals are read. -/
structure VerifyOptions where
  policy : MatchPolicy
  classifier : Classifier
  registry : Registry

namespace Scenario

/-- An error and its category, for messages. -/
def describeError (message : String) (category : Category) : String :=
  "error " ++ Text.quote message ++ " (" ++ category ++ ")"

/-- What was captured, for messages; an error is shown with a given category. -/
def describeActual (outcome : Option Outcome) (category : Category) : String :=
  match outcome with
  | none => "nothing"
  | some (.value v) => "value " ++ v.render
  | some (.error message _) => describeError message category

/-- The outcome has to be a value equal to `want`. -/
def verifyEqual (s : Scenario) (want : Value) : Except VerifyError Unit :=
  match s.outcome with
  | none => .error (.mismatch ⟨.noOutcome, want.render, "nothing"⟩)
  | some (.error message category) =>
    .error (.mismatch ⟨.failed, want.render, describeError message category⟩)
  | some (.value v) =>
    if v.equal want then .ok () else .error (.mismatch ⟨.differs, want.render, v.render⟩)

/-- The outcome has to be a value equal to that of a literal, or null if there is none. -/
def verifyValue (s : Scenario) (expected : Option Node) (o : VerifyOptions) : Except VerifyError Unit :=
  match expected with
  | none => s.verifyEqual .null
  | some n =>
    match n.toValue o.registry with
    | .ok want => s.verifyEqual want
    | .error e => .error (.defect e)

/-- The outcome has to be an error. Its category has to be that of `text` under the exact policy; a
    difference is logged under the other. -/
def verifyError (s : Scenario) (text : String) (o : VerifyOptions) : Log × Except VerifyError Unit :=
  let expected := o.classifier.classify text
  let actual := o.classifier.classify? s.errorMessage
  let shown := describeActual s.outcome actual
  let described := expected ++ " (" ++ Text.quote text ++ ")"
  if expected ≠ actual ∧ o.policy = .exact then
    ([], .error (.mismatch ⟨.wrongCategory, expected, shown⟩))
  else
    let log : Log :=
      if expected = actual then []
      else [⟨.warn, "error category mismatch: expected " ++ described ++ ", got " ++ shown⟩]
    match s.errorMessage with
    | none => (log, .error (.mismatch ⟨.noError, described, shown⟩))
    | some _ => (log, .ok ())

/-- The outcome must not be an error. -/
def verifyNoError (s : Scenario) : Except VerifyError Unit :=
  match s.outcome with
  | some (.error message category) =>
    .error (.mismatch ⟨.unexpectedError, "no error", describeError message category⟩)
  | _ => .ok ()

/-- Compares the outcome with an expectation. -/
def verify (s : Scenario) (e : Expectation) (o : VerifyOptions) : Log × Except VerifyError Unit :=
  match e with
  | .value n => ([], s.verifyValue (some n) o)
  | .null => ([], s.verifyValue none o)
  | .error text => s.verifyError text o
  | .noError => ([], s.verifyNoError)

end Scenario

end CelSuite
