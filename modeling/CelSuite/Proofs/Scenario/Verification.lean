import CelSuite.Proofs.Scenario.Operations

/-! # What verification decides

An outcome meets an expectation or not, and verification succeeds exactly when it does. Otherwise it fails with a
mismatch, or with a defect when the literal that is expected has no value. What is met under the exact policy is met
under the other one as well, where categories that differ are only warned of. -/

namespace CelSuite

namespace Expectation

/-- The outcomes that an expectation asks for. A value has to be equal to that of the literal, or to null. An error
    has to be of the category of the text when the policy is exact. Without an outcome there is no error. -/
inductive Met (o : VerifyOptions) : Expectation → Option Outcome → Prop
  | value {n : Node} {v want : Value} (wanted : n.toValue o.registry = .ok want) (same : v.equal want = true) :
      Met o (.value n) (some (.value v))
  | null {v : Value} (same : v.equal .null = true) : Met o .null (some (.value v))
  | error {text message : String} {category : Category}
      (alike : o.policy = .exact → o.classifier.classify text = o.classifier.classify message) :
      Met o (.error text) (some (.error message category))
  | noError {outcome : Option Outcome} (unfailed : ∀ message category, outcome ≠ some (.error message category)) :
      Met o .noError outcome

/-- An expected literal without a value. -/
def Defective (o : VerifyOptions) (e : Expectation) (d : Defect) : Prop :=
  ∃ n, e = .value n ∧ n.toValue o.registry = .error d

/-- An expected error of another category than what was captured, under the policy that lets it pass. -/
def Warned (o : VerifyOptions) (captured : Option String) (e : Expectation) : Prop :=
  o.policy = .any ∧ ∃ text, e = .error text ∧ o.classifier.classify text ≠ o.classifier.classify? captured

variable {o o' : VerifyOptions} {e e' : Expectation} {outcome : Option Outcome} {text : String}

theorem Met.any (h : Met { o with policy := .exact } e outcome) : Met { o with policy := .any } e outcome := by
  cases h with
  | value wanted same => exact .value wanted same
  | null same => exact .null same
  | error => exact .error nofun
  | noError unfailed => exact .noError unfailed

/-- An outcome that meets the expectation of an error meets no other kind of expectation. -/
theorem Met.error_only (h : Met o (.error text) outcome) (h' : Met o' e' outcome) : ∃ text', e' = .error text' := by
  cases h with
  | error =>
    cases h' with
    | error => exact ⟨_, rfl⟩
    | noError unfailed => exact absurd rfl (unfailed _ _)

end Expectation

namespace Scenario

variable {s : Scenario} {o : VerifyOptions} {e : Expectation} {d : Defect} {text : String} {want : Value}

/-! ### Values -/

theorem verifyEqual_eq_ok :
    s.verifyEqual want = .ok () ↔ ∃ v, s.outcome = some (.value v) ∧ v.equal want = true := by
  rw [verifyEqual]
  split
  · simp_all
  · simp_all
  · rename_i v hv
    rw [hv]
    split
    · rename_i heq
      exact ⟨fun _ => ⟨v, rfl, heq⟩, fun _ => rfl⟩
    · rename_i hne
      constructor
      · intro h
        cases h
      · rintro ⟨_, hw, heq⟩
        cases hw
        exact absurd heq hne

/-- A value that is not as wanted is a mismatch. -/
theorem verifyEqual_refuses (s : Scenario) (want : Value) :
    Refuses (fun err => ∃ m, err = .mismatch m) (s.verifyEqual want) := by
  rw [verifyEqual]
  split
  · exact refuses_error ⟨_, rfl⟩
  · exact refuses_error ⟨_, rfl⟩
  · split
    · exact refuses_ok
    · exact refuses_error ⟨_, rfl⟩

/-! ### Errors -/

theorem verifyError_eq_ok : (s.verifyError text o).2 = .ok () ↔ ∃ message category,
    s.outcome = some (.error message category) ∧
      (o.policy = .exact → o.classifier.classify text = o.classifier.classify message) := by
  have hcaptured : (s.verifyError text o).2 = .ok () ↔ ∃ message, s.errorMessage = some message ∧
      (o.policy = .exact → o.classifier.classify text = o.classifier.classify message) := by
    unfold verifyError
    dsimp only
    split
    · rename_i hwrong
      constructor
      · intro h
        cases h
      · rintro ⟨message, hmessage, halike⟩
        rw [hmessage] at hwrong
        exact absurd (halike hwrong.2) hwrong.1
    · rename_i hpass
      cases hmessage : s.errorMessage with
      | none => simp
      | some message =>
        rw [hmessage] at hpass
        refine ⟨fun _ => ⟨message, rfl, fun hexact => ?_⟩, fun _ => rfl⟩
        by_contra hne
        exact hpass ⟨hne, hexact⟩
  rw [hcaptured]
  constructor
  · rintro ⟨message, hmessage, halike⟩
    obtain ⟨category, houtcome⟩ := errorMessage_eq_some.mp hmessage
    exact ⟨message, category, houtcome, halike⟩
  · rintro ⟨message, category, houtcome, halike⟩
    exact ⟨message, errorMessage_eq_some.mpr ⟨category, houtcome⟩, halike⟩

theorem verifyError_refuses (s : Scenario) (text : String) (o : VerifyOptions) :
    Refuses (fun err => ∃ m, err = .mismatch m) (s.verifyError text o).2 := by
  unfold verifyError
  dsimp only
  split
  · exact refuses_error ⟨_, rfl⟩
  · split
    · exact refuses_error ⟨_, rfl⟩
    · exact refuses_ok

/-- The warning of categories that differ: the category and text of what was expected, and what was captured. -/
def differenceWarning (s : Scenario) (text : String) (o : VerifyOptions) : LogEntry :=
  ⟨.warn, "error category mismatch: expected " ++ (o.classifier.classify text ++ " (" ++ Text.quote text ++ ")") ++
    ", got " ++ describeActual s.outcome (o.classifier.classify? s.errorMessage)⟩

/-- One warning is logged when the categories differ and the policy lets that pass, whether or not an error was
    captured. -/
theorem verifyError_log (s : Scenario) (text : String) (o : VerifyOptions) : (s.verifyError text o).1 =
    if o.policy = .any ∧ o.classifier.classify text ≠ o.classifier.classify? s.errorMessage then
      [s.differenceWarning text o]
    else [] := by
  unfold verifyError
  dsimp only
  split
  · rename_i hwrong
    rw [if_neg]
    rintro ⟨hany, -⟩
    cases hany.symm.trans hwrong.2
  · rename_i hpass
    by_cases halike : o.classifier.classify text = o.classifier.classify? s.errorMessage
    · rw [if_pos halike, if_neg fun hwarned => hwarned.2 halike]
      split <;> rfl
    · have hany : o.policy = .any := by
        cases hpolicy : o.policy with
        | any => rfl
        | exact => exact absurd ⟨halike, hpolicy⟩ hpass
      rw [if_neg halike, if_pos ⟨hany, halike⟩]
      split <;> rfl

/-! ### Expectations -/

theorem verify_eq_ok : (s.verify e o).2 = .ok () ↔ e.Met o s.outcome := by
  cases e with
  | value n =>
    rw [verify, verifyValue]
    constructor
    · intro h
      split at h
      · rename_i want hwant
        obtain ⟨v, hv, same⟩ := verifyEqual_eq_ok.mp h
        rw [hv]
        exact .value hwant same
      · cases h
    · intro h
      generalize hv : s.outcome = outcome at h
      cases h with
      | value wanted same =>
        rw [wanted]
        exact verifyEqual_eq_ok.mpr ⟨_, hv, same⟩
  | null =>
    rw [verify, verifyValue, verifyEqual_eq_ok]
    constructor
    · rintro ⟨v, hv, same⟩
      rw [hv]
      exact .null same
    · intro h
      generalize hv : s.outcome = outcome at h
      cases h with
      | null same => exact ⟨_, rfl, same⟩
  | error text =>
    rw [verify, verifyError_eq_ok]
    constructor
    · rintro ⟨message, category, houtcome, halike⟩
      rw [houtcome]
      exact .error halike
    · intro h
      generalize houtcome : s.outcome = outcome at h
      cases h with
      | error alike => exact ⟨_, _, rfl, alike⟩
  | noError =>
    rw [verify, verifyNoError]
    constructor
    · intro h
      refine .noError fun message category houtcome => ?_
      rw [houtcome] at h
      cases h
    · intro h
      cases h with
      | noError unfailed =>
        split
        · rename_i message category houtcome
          exact absurd houtcome (unfailed message category)
        · rfl

/-- A literal without a value is told before the outcome is looked at. -/
theorem verify_defective (h : e.Defective o d) : (s.verify e o).2 = .error (.defect d) := by
  obtain ⟨n, rfl, hn⟩ := h
  rw [verify, verifyValue, hn]

theorem verify_refuses (s : Scenario) (e : Expectation) (o : VerifyOptions) :
    Refuses (fun err => (∃ m, err = .mismatch m) ∨ ∃ d, err = .defect d ∧ e.Defective o d) (s.verify e o).2 := by
  intro err h
  cases e with
  | value n =>
    rw [verify, verifyValue] at h
    split at h
    · exact Or.inl (verifyEqual_refuses s _ err h)
    · rename_i d hd
      cases h
      exact Or.inr ⟨d, rfl, n, rfl, hd⟩
  | null => exact Or.inl (verifyEqual_refuses s _ err h)
  | error text => exact Or.inl (verifyError_refuses s text o err h)
  | noError =>
    rw [verify, verifyNoError] at h
    split at h
    · cases h
      exact Or.inl ⟨_, rfl⟩
    · cases h

theorem verify_log (s : Scenario) (e : Expectation) (o : VerifyOptions) :
    (∀ text, e = .error text → o.policy = .any →
        o.classifier.classify text ≠ o.classifier.classify? s.errorMessage →
        (s.verify e o).1 = [s.differenceWarning text o]) ∧
      (¬e.Warned o s.errorMessage → (s.verify e o).1 = []) := by
  constructor
  · rintro text rfl hany hdiffer
    rw [verify, verifyError_log, if_pos ⟨hany, hdiffer⟩]
  · intro hquiet
    cases e with
    | error text =>
      rw [verify, verifyError_log, if_neg fun hwarned => hquiet ⟨hwarned.1, text, rfl, hwarned.2⟩]
    | _ => rfl

/-! ### In a run -/

theorem verify_congr {s' : Scenario} (h : s.outcome = s'.outcome) (e : Expectation) (o : VerifyOptions) :
    s.verify e o = s'.verify e o := by
  have hmessage : s.errorMessage = s'.errorMessage := by rw [errorMessage, errorMessage, h]
  cases e with
  | value | null => simp only [verify, verifyValue, verifyEqual, h]
  | error text => rw [verify, verify, verifyError, verifyError, hmessage, h]
  | noError => rw [verify, verify, verifyNoError, verifyNoError, h]

/-- A scenario goes on as if it had not been verified. -/
theorem performAll_verify (s : Scenario) (before later : List Operation) (e : Expectation) (o : VerifyOptions) :
    s.performAll (before ++ .verify e o :: later) = s.performAll (before ++ later) := by
  rw [performAll_append, performAll_append]
  rfl

/-- A verdict on an outcome is final. -/
theorem verify_performAll (h : s.outcome ≠ none) (ops : List Operation) (e : Expectation) (o : VerifyOptions) :
    (s.performAll ops).verify e o = s.verify e o := by
  obtain ⟨r, hr⟩ := Option.ne_none_iff_exists'.mp h
  exact verify_congr ((performAll_outcome hr ops).trans hr.symm) e o

/-- Verification succeeds exactly when the outcome meets the expectation. It fails with the defect of the expected
    literal if there is one, whatever the outcome is, and else with a mismatch. What passes under the exact policy
    passes under the other, and no outcome passes both as an expected error and as anything else. One warning is
    logged when an error of another category is expected and the policy lets that pass, and nothing otherwise. A
    scenario goes on as if it had not been verified, and once it has an outcome the verdict stays what it is. -/
theorem verify_decides (s : Scenario) (e : Expectation) (o : VerifyOptions) :
    ((s.verify e o).2 = .ok () ↔ e.Met o s.outcome) ∧
      (∀ d, (s.verify e o).2 = .error (.defect d) ↔ e.Defective o d) ∧
      ((∃ m, (s.verify e o).2 = .error (.mismatch m)) ↔ ¬e.Met o s.outcome ∧ ¬∃ d, e.Defective o d) ∧
      ((s.verify e { o with policy := .exact }).2 = .ok () → (s.verify e { o with policy := .any }).2 = .ok ()) ∧
      (∀ text e' o', (s.verify (.error text) o).2 = .ok () → (s.verify e' o').2 = .ok () →
        ∃ text', e' = .error text') ∧
      (∀ text, e = .error text → o.policy = .any →
        o.classifier.classify text ≠ o.classifier.classify? s.errorMessage →
        (s.verify e o).1 = [s.differenceWarning text o]) ∧
      (¬e.Warned o s.errorMessage → (s.verify e o).1 = []) ∧
      (∀ before later, s.performAll (before ++ .verify e o :: later) = s.performAll (before ++ later)) ∧
      (s.outcome ≠ none → ∀ ops, (s.performAll ops).verify e o = s.verify e o) := by
  refine ⟨verify_eq_ok, fun d => ⟨fun h => ?_, verify_defective⟩, ⟨?_, ?_⟩, fun h => ?_, fun text e' o' h h' => ?_,
    (verify_log s e o).1, (verify_log s e o).2, fun before later => performAll_verify s before later e o,
    fun h ops => verify_performAll h ops e o⟩
  · rcases verify_refuses s e o _ h with ⟨m, hm⟩ | ⟨d', hd, hdefective⟩
    · cases hm
    · cases hd
      exact hdefective
  · rintro ⟨m, hm⟩
    refine ⟨fun hmet => ?_, ?_⟩
    · cases (verify_eq_ok.mpr hmet).symm.trans hm
    · rintro ⟨d, hd⟩
      cases (verify_defective hd).symm.trans hm
  · rintro ⟨hunmet, hsound⟩
    cases hresult : (s.verify e o).2 with
    | ok u => exact absurd (verify_eq_ok.mp hresult) hunmet
    | error err =>
      rcases verify_refuses s e o err hresult with ⟨m, rfl⟩ | ⟨d, -, hd⟩
      · exact ⟨m, rfl⟩
      · exact absurd ⟨d, hd⟩ hsound
  · exact verify_eq_ok.mpr (verify_eq_ok.mp h).any
  · exact (verify_eq_ok.mp h).error_only (verify_eq_ok.mp h')

/-- An error where one of another category is expected: it passes with a warning, and does not pass under the exact
    policy. -/
theorem other_category_warned_or_refused :
    let s : Scenario := { outcome := some (.error "modulus by zero" "modulus_by_zero") }
    let o : VerifyOptions := ⟨.any, .standard, .standard⟩
    (s.verify (.error "divide by zero") o).2 = .ok () ∧
      (s.verify (.error "divide by zero") o).1 = [s.differenceWarning "divide by zero" o] ∧
      ∃ m, (s.verify (.error "divide by zero") { o with policy := .exact }).2 = .error (.mismatch m) := by
  intro s o
  have hdiffer : o.classifier.classify "divide by zero" ≠ o.classifier.classify "modulus by zero" := by decide
  obtain ⟨haccepts, -, -, -, -, hwarns, -, -⟩ := verify_decides s (.error "divide by zero") o
  obtain ⟨-, -, hmismatch, -⟩ := verify_decides s (.error "divide by zero") { o with policy := .exact }
  refine ⟨haccepts.mpr (.error nofun), hwarns _ rfl rfl hdiffer, hmismatch.mpr ⟨fun hmet => ?_, ?_⟩⟩
  · cases hmet with
    | error alike => exact hdiffer (alike rfl)
  · rintro ⟨d, n, hn, -⟩
    cases hn

end Scenario

end CelSuite
