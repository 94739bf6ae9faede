import CelSuite.Attempt
import CelSuite.Proofs.Assoc
import CelSuite.Proofs.Except
import Mathlib.Data.List.Forall2

/-! # What an attempt leaves

An attempt is refused, fails or records an outcome. A refused attempt leaves the scenario as it was. Any
other one has declared the stand-ins of the container when it comes to its end, whatever that is: a failed
attempt keeps all of the scenario but its type environment, which is longer by them. Stand-ins that are
declared once more change no declaration, so a later attempt with them goes as the first would have. -/

namespace CelSuite

/-! ### Declaring again -/

namespace Declarations

variable {es : List EnvEntry} {ds ds' : Declarations}

theorem add_append (ds : Declarations) (es es' : List EnvEntry) :
    add ds (es ++ es') = (do add (← add ds es) es') := by
  induction es generalizing ds with
  | nil => rfl
  | cons e es ih =>
    rw [List.cons_append, add, add]
    cases e.declaration with
    | ok d => exact ih _
    | error b => rfl

theorem add_eq_ok : add ds es = .ok ds' ↔
    ∃ ps, List.Forall₂ (fun e p => e.declaration = .ok p.2 ∧ e.name = p.1) es ps ∧ ds' = Assoc.putAll ds ps := by
  induction es generalizing ds with
  | nil =>
    rw [add, Except.ok.injEq]
    constructor
    · rintro rfl
      exact ⟨[], .nil, rfl⟩
    · rintro ⟨ps, hps, rfl⟩
      cases hps
      rfl
  | cons e es ih =>
    rw [add]
    constructor
    · intro h
      split at h
      · rename_i d hd
        obtain ⟨ps, hps, rfl⟩ := ih.mp h
        exact ⟨(e.name, d) :: ps, .cons ⟨hd, rfl⟩ hps, rfl⟩
      · cases h
    · rintro ⟨ps, hps, rfl⟩
      cases hps with
      | cons hp hps =>
        obtain ⟨hd, hname⟩ := hp
        rw [hd, hname]
        exact ih.mpr ⟨_, hps, rfl⟩

/-- Entries that were declared last declare nothing new. -/
theorem add_again (h : add ds es = .ok ds') : add ds' es = .ok ds' := by
  obtain ⟨ps, hps, rfl⟩ := add_eq_ok.mp h
  exact add_eq_ok.mpr ⟨ps, hps, (Assoc.putAll_again ds ps).symm⟩

/-- Entries at the end count once. -/
theorem ofEntries_again (es last : List EnvEntry) :
    ofEntries (es ++ last ++ last) = ofEntries (es ++ last) := by
  unfold ofEntries
  rw [add_append]
  cases h : add [] (es ++ last) with
  | error b => rfl
  | ok ds =>
    obtain ⟨ds₀, -, hlast⟩ := bind_eq_ok.mp ((add_append [] es last).symm.trans h)
    exact add_again hlast

end Declarations

namespace Scenario

/-- What an attempt is made with. -/
structure Means where
  evaluator : Evaluator
  classifier : Classifier
  standIns : Option StandInProvider

/-- One attempt. -/
def attempt (s : Scenario) (m : Means) : Attempt :=
  s.evaluate m.evaluator m.classifier m.standIns

/-- The message types that a provider has for the container of a scenario. -/
def standIns (s : Scenario) : Option StandInProvider → List EnvEntry
  | some provider => if s.container = "" then [] else provider s.container
  | none => []

/-- The scenario after attempts in turn. -/
def afterAttempts (s : Scenario) (ms : List Means) : Scenario :=
  ms.foldl (fun s m => (s.attempt m).scenario) s

/-- Attempts in turn of which none has an outcome. -/
def Fails (s : Scenario) : List Means → Prop
  | [] => True
  | m :: ms => (∃ e, (s.attempt m).result = .error e) ∧ (s.attempt m).scenario.Fails ms

/-- The entries that a failure adds to the type environment. -/
def left (s : Scenario) (m : Means) : AttemptError → List EnvEntry
  | .state _ => []
  | .binding _ | .crash _ => s.standIns m.standIns

variable {s : Scenario} {m : Means} {ms : List Means} {e : AttemptError} {o : Outcome}

theorem withStandIns_eq (s : Scenario) (p : Option StandInProvider) :
    s.withStandIns p = { s with typeEnv := s.typeEnv ++ s.standIns p } := by
  unfold withStandIns standIns
  cases p with
  | none => rw [List.append_nil]
  | some provider =>
    dsimp only
    split
    · rw [List.append_nil]
    · rfl

/-! ### One attempt -/

/-- The three ways in which an attempt can go: it is refused, it fails past that, or it records what it
    answers. -/
theorem attempt_cases (s : Scenario) (m : Means) :
    ((s.expression = none ∨ s.outcome ≠ none) ∧ ∃ r, s.attempt m = ⟨s, [], none, .error (.state r)⟩) ∨
      (s.expression ≠ none ∧ s.outcome = none ∧ (s.attempt m).scenario = s.withStandIns m.standIns ∧
        ((∃ b, (s.attempt m).result = .error (.binding b)) ∨ ∃ c, (s.attempt m).result = .error (.crash c))) ∨
      (s.expression ≠ none ∧ s.outcome = none ∧ ∃ o, (s.attempt m).result = .ok o ∧
        (s.attempt m).scenario = { s.withStandIns m.standIns with outcome := some o }) := by
  unfold attempt evaluate requireOpen
  cases hx : s.expression with
  | none => exact Or.inl ⟨Or.inl rfl, _, rfl⟩
  | some x =>
    cases ho : s.outcome with
    | some o => exact Or.inl ⟨Or.inr nofun, _, rfl⟩
    | none =>
      have hopen : (s.withStandIns m.standIns).outcome = none := by rw [withStandIns_outcome, ho]
      refine Or.inr ?_
      dsimp only
      split
      · exact Or.inl ⟨nofun, rfl, rfl, Or.inl ⟨_, rfl⟩⟩
      · split
        · rw [conclude_of_open hopen]
          exact Or.inr ⟨nofun, rfl, _, rfl, rfl⟩
        · exact Or.inl ⟨nofun, rfl, rfl, Or.inr ⟨_, rfl⟩⟩
        · rw [conclude_of_open hopen]
          exact Or.inr ⟨nofun, rfl, _, rfl, rfl⟩

/-- A failed attempt keeps all of the scenario but the type environment. -/
theorem attempt_error (h : (s.attempt m).result = .error e) :
    (s.attempt m).scenario = { s with typeEnv := s.typeEnv ++ s.left m e } := by
  rcases attempt_cases s m with ⟨-, r, hr⟩ | ⟨-, -, hs, ⟨b, hb⟩ | ⟨c, hc⟩⟩ | ⟨-, -, o, ho, -⟩
  · rw [hr] at h ⊢
    cases h
    rw [left, List.append_nil]
  · rw [hb] at h
    cases h
    rw [hs, withStandIns_eq, left]
  · rw [hc] at h
    cases h
    rw [hs, withStandIns_eq, left]
  · rw [ho] at h
    cases h

theorem attempt_ok (h : (s.attempt m).result = .ok o) :
    (s.attempt m).scenario = { s with typeEnv := s.typeEnv ++ s.standIns m.standIns, outcome := some o } := by
  rcases attempt_cases s m with ⟨-, r, hr⟩ | ⟨-, -, -, ⟨b, hb⟩ | ⟨c, hc⟩⟩ | ⟨-, -, o', ho, hs⟩
  · rw [hr] at h
    cases h
  · rw [hb] at h
    cases h
  · rw [hc] at h
    cases h
  · rw [ho] at h
    cases h
    rw [hs, withStandIns_eq]

/-- An attempt that is not refused and fails adds the stand-ins. -/
theorem left_of_open (hx : s.expression ≠ none) (ho : s.outcome = none)
    (h : (s.attempt m).result = .error e) : s.left m e = s.standIns m.standIns := by
  rcases attempt_cases s m with ⟨hclosed, -⟩ | ⟨-, -, -, ⟨b, hb⟩ | ⟨c, hc⟩⟩ | ⟨-, -, o', ho', -⟩
  · rcases hclosed with hnone | hsome
    · exact absurd hnone hx
    · exact absurd ho hsome
  · rw [hb] at h
    cases h
    rfl
  · rw [hc] at h
    cases h
    rfl
  · rw [ho'] at h
    cases h

/-- What an attempt asks, logs and answers depends on the type environment through its declarations. -/
theorem attempt_congr {env : List EnvEntry}
    (h : Declarations.ofEntries (env ++ s.standIns m.standIns) =
      Declarations.ofEntries (s.typeEnv ++ s.standIns m.standIns)) :
    ({ s with typeEnv := env }.attempt m).result = (s.attempt m).result ∧
      ({ s with typeEnv := env }.attempt m).request = (s.attempt m).request ∧
      ({ s with typeEnv := env }.attempt m).log = (s.attempt m).log := by
  have hs : ({ s with typeEnv := env } : Scenario).standIns m.standIns = s.standIns m.standIns := rfl
  have hr : ({ s with typeEnv := env } : Scenario).requireOpen = s.requireOpen := rfl
  unfold attempt evaluate
  rw [withStandIns_eq, withStandIns_eq]
  dsimp only
  rw [hs, hr, h]
  split
  · exact ⟨rfl, rfl, rfl⟩
  · split
    · exact ⟨rfl, rfl, rfl⟩
    · rename_i hopen
      have hconclude {es : List EnvEntry} (o : Outcome) (log : Log) (r : Request) :=
        conclude_of_open (s := { s with typeEnv := es }) (requireOpen_eq_ok.mp hopen) o log r
      split
      · exact ⟨rfl, rfl, rfl⟩
      · dsimp only [request, environmentLog]
        split
        · rw [hconclude, hconclude]
          exact ⟨rfl, rfl, rfl⟩
        · exact ⟨rfl, rfl, rfl⟩
        · rw [hconclude, hconclude]
          exact ⟨rfl, rfl, rfl⟩

/-! ### Attempts in turn -/

theorem afterAttempts_eq (hx : s.expression ≠ none) (ho : s.outcome = none) (h : s.Fails ms) :
    s.afterAttempts ms = { s with typeEnv := s.typeEnv ++ ms.flatMap fun m => s.standIns m.standIns } := by
  induction ms generalizing s with
  | nil => simp [afterAttempts]
  | cons m ms ih =>
    obtain ⟨⟨e, he⟩, hms⟩ := h
    have hs := attempt_error he
    rw [left_of_open hx ho he] at hs
    have hafter : s.afterAttempts (m :: ms) = (s.attempt m).scenario.afterAttempts ms := rfl
    rw [hs] at hms hafter
    have htail := ih (s := { s with typeEnv := s.typeEnv ++ s.standIns m.standIns }) hx ho hms
    rw [hafter, htail, List.flatMap_cons, ← List.append_assoc]
    rfl

/-- Stand-ins that were declared by earlier attempts are declared once more to no effect. -/
theorem ofEntries_failed (s : Scenario) (m : Means) (hms : ∀ m' ∈ ms, m'.standIns = m.standIns) :
    Declarations.ofEntries ((s.typeEnv ++ ms.flatMap fun m' => s.standIns m'.standIns) ++ s.standIns m.standIns) =
      Declarations.ofEntries (s.typeEnv ++ s.standIns m.standIns) := by
  induction ms using List.reverseRecOn with
  | nil => rw [List.flatMap_nil, List.append_nil]
  | append_singleton ms m' ih =>
    have hm' : m'.standIns = m.standIns := hms m' (by simp)
    have hrest := ih fun m'' hm'' => hms m'' (by simp [hm''])
    rw [List.flatMap_append, List.flatMap_singleton, hm', ← List.append_assoc, Declarations.ofEntries_again, hrest]

/-- A failed attempt leaves all of a scenario but its type environment, to which it adds nothing if it is
    refused and the stand-ins of the container otherwise. So after any number of failed attempts the type
    environment is longer by the stand-ins of each. A further attempt with the same provider asks the
    evaluator the same, logs the same and answers the same as it would have alone. -/
theorem failed_attempts_leave_standIns (s : Scenario) (m : Means) :
    (∀ e, (s.attempt m).result = .error e →
        (s.attempt m).scenario = { s with typeEnv := s.typeEnv ++ s.left m e } ∧
          ((s.attempt m).scenario = s ↔ s.left m e = [])) ∧
      ∀ ms, s.Fails ms → s.expression ≠ none → s.outcome = none →
        (∀ o, ((s.afterAttempts ms).attempt m).result = .ok o →
          ((s.afterAttempts ms).attempt m).scenario.typeEnv =
            s.typeEnv ++ (ms.flatMap fun m => s.standIns m.standIns) ++ s.standIns m.standIns) ∧
        ((∀ m' ∈ ms, m'.standIns = m.standIns) →
          ((s.afterAttempts ms).attempt m).result = (s.attempt m).result ∧
            ((s.afterAttempts ms).attempt m).request = (s.attempt m).request ∧
            ((s.afterAttempts ms).attempt m).log = (s.attempt m).log) := by
  refine ⟨fun e he => ⟨attempt_error he, ?_⟩, fun ms hms hx ho => ?_⟩
  · rw [attempt_error he]
    constructor
    · intro hsame
      exact List.append_right_eq_self.mp (congrArg typeEnv hsame)
    · intro hnil
      rw [hnil, List.append_nil]
  · rw [afterAttempts_eq hx ho hms]
    refine ⟨fun o hok => ?_, fun hsame => attempt_congr (ofEntries_failed s m hsame)⟩
    rw [attempt_ok hok]
    rfl

/-- A crash in a container does not leave the type environment as it was, nor does a value after it leave the
    type environment that the value alone leaves. -/
theorem crash_extends_typeEnv :
    (({ expression := some "x", container := "acme.v1" } : Scenario).attempt
        ⟨fun _ => .error (.crash (.other "c")), .standard, some StandIns.entries⟩).result =
          .error (.crash (.other "c")) ∧
      (({ expression := some "x", container := "acme.v1" } : Scenario).attempt
        ⟨fun _ => .error (.crash (.other "c")), .standard, some StandIns.entries⟩).scenario.typeEnv ≠
          ({ expression := some "x", container := "acme.v1" } : Scenario).typeEnv ∧
      ((({ expression := some "x", container := "acme.v1" } : Scenario).afterAttempts
        [⟨fun _ => .error (.crash (.other "c")), .standard, some StandIns.entries⟩]).attempt
        ⟨fun _ => .ok fun _ => .ok .null, .standard, some StandIns.entries⟩).scenario.typeEnv ≠
          (({ expression := some "x", container := "acme.v1" } : Scenario).attempt
            ⟨fun _ => .ok fun _ => .ok .null, .standard, some StandIns.entries⟩).scenario.typeEnv := by
  refine ⟨rfl, fun h => ?_, fun h => ?_⟩
  · exact absurd (congrArg List.length h) (show ¬(2 = 0) by decide)
  · exact absurd (congrArg List.length h) (show ¬(4 = 2) by decide)

/-- A crash in a container and then a value: both message types of the container are declared twice. -/
theorem declared_twice_after_crash :
    ((({ expression := some "x", container := "acme.v1" } : Scenario).attempt
        ⟨fun _ => .error (.crash (.other "c")), .standard, some StandIns.entries⟩).scenario.typeEnv =
          StandIns.entries "acme.v1") ∧
      (((({ expression := some "x", container := "acme.v1" } : Scenario).afterAttempts
        [⟨fun _ => .error (.crash (.other "c")), .standard, some StandIns.entries⟩]).attempt
        ⟨fun _ => .ok fun _ => .ok .null, .standard, some StandIns.entries⟩).scenario.typeEnv =
          StandIns.entries "acme.v1" ++ StandIns.entries "acme.v1") := by
  constructor
  · rw [((failed_attempts_leave_standIns _ _).1 (.crash (.other "c")) rfl).1]
    rfl
  · have hfails : ({ expression := some "x", container := "acme.v1" } : Scenario).Fails
        [⟨fun _ => .error (.crash (.other "c")), .standard, some StandIns.entries⟩] := ⟨⟨_, rfl⟩, trivial⟩
    exact ((failed_attempts_leave_standIns _ _).2 _ hfails nofun rfl).1 (.value .null) rfl

end Scenario

end CelSuite
