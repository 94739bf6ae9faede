import CelSuite.Attempt
import CelSuite.Fixture.Parse
import CelSuite.Verify

/-! # Cases

A fixture has a name and a list of cases. A case is an expression as it stands between quotes, its
environment, and what it is expected to give. Running a case sets up a scenario, evaluates it and
verifies the outcome. -/

namespace CelSuite

/-- One case of a fixture. -/
structure Case where
  fixture : String
  name : String
  expression : String
  quote : Text.Quote
  container : String
  disableCheck : Bool
  bindings : List Binding
  typeEnv : List TypeBinding
  expectation : Expectation

namespace Document

/-- A text. -/
def toText (what : String) : Document → Except DocumentError String
  | .string s => .ok s
  | _ => .error (.notText what)

/-- The document itself, or the default in place of a missing or null one. -/
def orElse (d default : Document) : Document :=
  match d with
  | .undefined | .null => default
  | d => d

/-- The quote of a case, single when none is given. -/
def toQuote (case : String) (d : Document) : Except DocumentError Text.Quote :=
  match d with
  | .undefined | .null => .ok .single
  | .string s =>
    match Text.Quote.ofString? s with
    | some q => .ok q
    | none => .error (.badQuote case d)
  | _ => .error (.badQuote case d)

/-- A case of a fixture. -/
def toCase (fixture : String) (d : Document) : Except DocumentError Case :=
  match d with
  | .object _ _ => do
    let name ← (d.get "name").toText "case name"
    let quote ← (d.get "quote").toQuote name
    match (d.get "type_env").orElse (.array []) with
    | .array entries => do
      let expression ← (d.get "expr").toText ("case '" ++ name ++ "' expr")
      let container ← match d.get "container" with
        | .undefined => .ok ""
        | c => c.toText ("case '" ++ name ++ "' container")
      let disableCheck := match d.get "disable_check" with
        | .bool b => b
        | _ => false
      let bindings ← ((d.get "bindings").orElse (.array [])).toBindings
      let typeEnv ← readAll toTypeBinding entries
      let expectation ← d.toExpectation
      return ⟨fixture, name, expression, quote, container, disableCheck, bindings, typeEnv, expectation⟩
    | _ => .error (.typeEnvNotArray name)
  | _ => .error (.notMapping "case")

/-- The cases of a fixture; an empty document has none. -/
def toCases (d : Document) : Except DocumentError (List Case) :=
  match d with
  | .undefined | .null => .ok []
  | .object _ _ => do
    let fixture ← (d.get "name").toText "fixture name"
    match d.get "cases" with
    | .array items => readAll (toCase fixture) items
    | _ => .error (.casesNotArray fixture)
  | _ => .error (.notMapping "fixture")

/-- The cases of several documents, in order. -/
def allCases (ds : List Document) : Except DocumentError (List Case) :=
  (readAll toCases ds).map List.flatten

end Document

/-- Why a run of a case does not succeed. -/
inductive RunError where
  | defect (e : Defect)
  | attempt (e : AttemptError)
  | verify (e : VerifyError)

/-- What a run of a case leaves. -/
structure CaseRun where
  outcome : Option Outcome
  log : Log
  result : Except RunError Unit

namespace Case

/-- The scenario of a case before its variables are bound. -/
def scenario (c : Case) : Scenario :=
  { container := c.container
    disableCheck := c.disableCheck
    typeEnv := c.typeEnv.map .type }

/-- Runs a case with an evaluator under a policy. -/
def run (c : Case) (evaluator : Evaluator) (policy : MatchPolicy) : CaseRun :=
  match c.scenario.applyBindings Registry.standard (c.bindings.map fun b => (b.key, b.value)) with
  | (s, .error e) => ⟨s.outcome, [], .error (.defect e)⟩
  | (s, .ok ()) =>
    let a := s.evaluateText c.expression c.quote evaluator Classifier.standard (some StandIns.entries)
    match a.result with
    | .error e => ⟨a.scenario.outcome, a.log, .error (.attempt e)⟩
    | .ok _ =>
      let (log, result) :=
        a.scenario.verify c.expectation ⟨policy, Classifier.standard, Registry.standard⟩
      ⟨a.scenario.outcome, a.log ++ log, result.mapError .verify⟩

end Case

end CelSuite
