import CelSuite.Proofs.Scenario.Attempts
import CelSuite.Verify

/-! # The outcome of a scenario

A scenario is driven by operations in any order. The outcome is written by an operation that finds none,
and then it stays: every later operation that would write one is refused and changes nothing. -/

namespace CelSuite

/-- What can be done to a scenario. A value or an error is recorded as the outcome that it is. -/
inductive Operation where
  | setExpression (text : Option String)
  | setContainer (name : String)
  | setDisableCheck (disable : Bool)
  | bind (name : String) (v : Value)
  | applyBindings (r : Registry) (bindings : List (String × Node))
  | declare (e : EnvEntry)
  | evaluate (m : Scenario.Means)
  | evaluateText (text : String) (quote : Text.Quote) (m : Scenario.Means)
  | record (o : Outcome)
  | verify (e : Expectation) (o : VerifyOptions)
  | verifyValue (expected : Option Node) (o : VerifyOptions)
  | verifyError (text : String) (o : VerifyOptions)
  | verifyNoError

/-- What an operation answers. -/
inductive Answer where
  | done
  | defect (e : Defect)
  | recorded (o : Outcome)
  | failed (e : AttemptError)
  | verified (result : Except VerifyError Unit)

/-- The scenario after an operation, what an evaluator was asked if one was, and the answer. -/
structure Performed where
  scenario : Scenario
  request : Option Request
  answer : Answer

/-- Whether an operation is there to write the outcome. -/
def Operation.writes : Operation → Bool
  | .evaluate _ | .evaluateText _ _ _ | .record _ => true
  | _ => false

/-- An attempt as an operation. -/
def Performed.ofAttempt (a : Attempt) : Performed :=
  ⟨a.scenario, a.request,
    match a.result with
    | .ok o => .recorded o
    | .error e => .failed e⟩

namespace Scenario

/-- Does one operation. -/
def perform (s : Scenario) : Operation → Performed
  | .setExpression text => ⟨{ s with expression := text }, none, .done⟩
  | .setContainer name => ⟨{ s with container := name }, none, .done⟩
  | .setDisableCheck disable => ⟨{ s with disableCheck := disable }, none, .done⟩
  | .bind name v => ⟨s.bind name v, none, .done⟩
  | .applyBindings r bindings =>
    match s.applyBindings r bindings with
    | (s, .ok ()) => ⟨s, none, .done⟩
    | (s, .error e) => ⟨s, none, .defect e⟩
  | .declare e => ⟨s.declare e, none, .done⟩
  | .evaluate m => .ofAttempt (s.attempt m)
  | .evaluateText text quote m =>
    .ofAttempt (s.evaluateText text quote m.evaluator m.classifier m.standIns)
  | .record o =>
    match s.record o with
    | .ok s => ⟨s, none, .recorded o⟩
    | .error e => ⟨s, none, .failed (.state e)⟩
  | .verify e o => ⟨s, none, .verified (s.verify e o).2⟩
  | .verifyValue expected o => ⟨s, none, .verified (s.verifyValue expected o)⟩
  | .verifyError text o => ⟨s, none, .verified (s.verifyError text o).2⟩
  | .verifyNoError => ⟨s, none, .verified s.verifyNoError⟩

/-- Does operations in turn. -/
def performAll (s : Scenario) (ops : List Operation) : Scenario :=
  ops.foldl (fun s op => (s.perform op).scenario) s

variable {s : Scenario} {op : Operation} {o : Outcome}

/-! ### One operation -/

theorem errorMessage_eq_some {message : String} :
    s.errorMessage = some message ↔ ∃ category, s.outcome = some (.error message category) := by
  unfold errorMessage
  cases s.outcome with
  | none => simp
  | some o =>
    cases o with
    | value v => simp
    | error text category => simp

theorem applyBindings_outcome (s : Scenario) (r : Registry) (bindings : List (String × Node)) :
    (s.applyBindings r bindings).1.outcome = s.outcome := by
  induction bindings generalizing s with
  | nil => rfl
  | cons b rest ih =>
    obtain ⟨name, n⟩ := b
    unfold applyBindings
    split
    · exact ih _
    · rfl

/-- An operation that is not there to write the outcome keeps it. -/
theorem perform_keeps (hop : op.writes = false) : (s.perform op).scenario.outcome = s.outcome := by
  cases op with
  | applyBindings r bindings =>
    have hkeep := applyBindings_outcome s r bindings
    rw [perform]
    split
    · rename_i h
      rw [← hkeep, h]
    · rename_i h
      rw [← hkeep, h]
  | evaluate | evaluateText | record => cases hop
  | _ => rfl

theorem attempt_refused (h : s.outcome = some o) (m : Means) :
    ∃ r, s.attempt m = ⟨s, [], none, .error (.state r)⟩ := by
  rcases attempt_cases s m with ⟨-, hr⟩ | ⟨-, hnone, -⟩ | ⟨-, hnone, -⟩
  · exact hr
  · rw [h] at hnone
    cases hnone
  · rw [h] at hnone
    cases hnone

/-- Once there is an outcome, an operation that would write one is refused. -/
theorem perform_refused (h : s.outcome = some o) (hop : op.writes = true) :
    ∃ e, s.perform op = ⟨s, none, .failed (.state e)⟩ := by
  cases op with
  | evaluate m =>
    obtain ⟨r, hr⟩ := attempt_refused h m
    refine ⟨r, ?_⟩
    rw [perform, hr]
    rfl
  | evaluateText text quote m =>
    refine ⟨.alreadyRecorded o.kind, ?_⟩
    rw [perform, Scenario.evaluateText, requireOpen, h]
    rfl
  | record o' =>
    refine ⟨.alreadyRecorded o.kind, ?_⟩
    rw [perform, Scenario.record, requireOpen, h]
    rfl
  | _ => cases hop

/-- One operation keeps the outcome that there is. -/
theorem perform_outcome (h : s.outcome = some o) (op : Operation) :
    (s.perform op).scenario.outcome = some o := by
  cases hop : op.writes with
  | false => rw [perform_keeps hop, h]
  | true =>
    obtain ⟨e, he⟩ := perform_refused h hop
    rw [he, h]

/-! ### Operations in turn -/

theorem performAll_outcome (h : s.outcome = some o) (ops : List Operation) :
    (s.performAll ops).outcome = some o := by
  induction ops generalizing s with
  | nil => exact h
  | cons op ops ih => exact ih (perform_outcome h op)

theorem performAll_append (s : Scenario) (ops later : List Operation) :
    s.performAll (ops ++ later) = (s.performAll ops).performAll later :=
  List.foldl_append

/-- After any operations: the error message is that of an outcome that is an error. An outcome that there is
    stays whatever is done later, and each operation that would write one is then refused, asks no evaluator
    and leaves the whole scenario as it is. -/
theorem outcome_written_once (s : Scenario) (ops : List Operation) :
    (∀ message, (s.performAll ops).errorMessage = some message ↔
        ∃ category, (s.performAll ops).outcome = some (.error message category)) ∧
      ∀ o, (s.performAll ops).outcome = some o → ∀ later : List Operation,
        (s.performAll (ops ++ later)).outcome = some o ∧
          ∀ op : Operation, op.writes = true → ∃ e,
            (s.performAll (ops ++ later)).perform op =
              ⟨s.performAll (ops ++ later), none, .failed (.state e)⟩ := by
  refine ⟨fun message => errorMessage_eq_some, fun o ho later => ?_⟩
  have hlater : (s.performAll (ops ++ later)).outcome = some o := by
    rw [performAll_append]
    exact performAll_outcome ho later
  exact ⟨hlater, fun op hop => perform_refused hlater hop⟩

/-- A value recorded by an attempt, and a second attempt in another container with an evaluator that crashes. -/
theorem second_attempt_refused :
    (({} : Scenario).performAll [.setExpression (some "x"),
        .evaluate ⟨fun _ => .ok fun _ => .ok .null, .standard, none⟩]).outcome = some (.value .null) ∧
      ∃ e, ((({} : Scenario).performAll ([.setExpression (some "x"),
          .evaluate ⟨fun _ => .ok fun _ => .ok .null, .standard, none⟩] ++ [.setContainer "acme.v1"])).perform
        (.evaluate ⟨fun _ => .error (.crash (.other "c")), .standard, some StandIns.entries⟩)).answer =
          .failed (.state e) := by
  have hvalue : (({} : Scenario).performAll [.setExpression (some "x"),
      .evaluate ⟨fun _ => .ok fun _ => .ok .null, .standard, none⟩]).outcome = some (.value .null) := rfl
  obtain ⟨-, hrefused⟩ := (outcome_written_once _ _).2 _ hvalue [.setContainer "acme.v1"]
  obtain ⟨e, he⟩ := hrefused (.evaluate ⟨fun _ => .error (.crash (.other "c")), .standard, some StandIns.entries⟩) rfl
  exact ⟨hvalue, e, congrArg Performed.answer he⟩

end Scenario

end CelSuite
