import CelSuite.Proofs.Related
import CelSuite.Proofs.Scenario.Attempts

/-! # What an attempt hands over

A scenario is prepared by binding variables and declaring names, in any order and with repetitions. Of several
bindings of a variable the last one holds, of several declarations of a name the last one at the place of the
first. An attempt hands the evaluator just that, and what the evaluator answers becomes the outcome. -/

namespace CelSuite

/-! ### Declarations -/

namespace Declarations

variable {es pre post : List EnvEntry} {e : EnvEntry} {ds : Declarations} {b : TypeBindingError}

theorem add_of_valid (ds : Declarations) (h : ∀ e ∈ es, ∃ d, e.declaration = .ok d) : ∃ ds', add ds es = .ok ds' := by
  induction es generalizing ds with
  | nil => exact ⟨ds, rfl⟩
  | cons e es ih =>
    obtain ⟨⟨d, hd⟩, hes⟩ := List.forall_mem_cons.mp h
    rw [add, hd]
    exact ih _ hes

/-- The first entry that declares nothing is the error. -/
theorem ofEntries_first_error (hpre : ∀ e ∈ pre, ∃ d, e.declaration = .ok d) (he : e.declaration = .error b) :
    ofEntries (pre ++ e :: post) = .error b := by
  obtain ⟨ds, hds⟩ := add_of_valid [] hpre
  rw [ofEntries, add_append, hds]
  show add ds (e :: post) = .error b
  rw [add, he]

/-- The declarations of entries have their names, each at the place where it came first. -/
theorem names_ofEntries (h : ofEntries es = .ok ds) : ds.map (·.1) = (es.map EnvEntry.name).eraseDups := by
  obtain ⟨ps, hps, rfl⟩ := add_eq_ok.mp h
  have hnames : es.map EnvEntry.name = ps.map (·.1) := by
    rw [← List.forall₂_eq_eq_eq, List.forall₂_map_left_iff, List.forall₂_map_right_iff]
    exact hps.imp fun e p hp => hp.2
  rw [Assoc.keys_putAll, hnames]

/-- The last entry under a name holds. -/
theorem ofEntries_last (h : ofEntries (pre ++ e :: post) = .ok ds) (hpost : ∀ e' ∈ post, e'.name ≠ e.name) :
    ∃ d, e.declaration = .ok d ∧ Assoc.get? e.name ds = some d := by
  obtain ⟨ps, hps, rfl⟩ := add_eq_ok.mp h
  obtain ⟨us, ⟨name, d⟩, vs, rfl, ⟨hd, rfl⟩, hvs⟩ := forall₂_append_cons hps
  refine ⟨d, hd, Assoc.get?_putAll_last ?_⟩
  exact forall_right_of_forall₂ hvs hpost fun e' p hp hne => hp.2 ▸ hne

end Declarations

/-- What is left of the answer of an evaluator: a value is the outcome, an error is the outcome with its
    category, and a crash goes on to the caller and leaves the outcome open. -/
def Attempt.Records (a : Attempt) (classifier : Classifier) : Except Failure Value → Prop
  | .ok v => a.result = .ok (.value v) ∧ a.scenario.outcome = some (.value v)
  | .error (.error message) =>
    a.result = .ok (.error message (classifier.classify message)) ∧
      a.scenario.outcome = some (.error message (classifier.classify message))
  | .error (.crash c) => a.result = .error (.crash c) ∧ a.scenario.outcome = none

namespace Scenario

/-! ### Preparation -/

/-- A variable with the literal that it is bound to, and the registry for the objects in it. -/
structure Bound where
  name : String
  registry : Registry
  node : Node

/-- The scenario after some preparation of `s₀`, with all that was bound and all that was declared on the way. -/
inductive Prepared (s₀ : Scenario) : List Bound → List EnvEntry → Scenario → Prop
  | start : Prepared s₀ [] [] s₀
  | bind {bs : List Bound} {es : List EnvEntry} {s s' : Scenario} (h : Prepared s₀ bs es s) (r : Registry)
      (bindings : List (String × Node)) (hs' : s.applyBindings r bindings = (s', .ok ())) :
      Prepared s₀ (bs ++ bindings.map fun b => ⟨b.1, r, b.2⟩) es s'
  | declare {bs : List Bound} {es : List EnvEntry} {s : Scenario} (h : Prepared s₀ bs es s) (e : EnvEntry) :
      Prepared s₀ bs (es ++ [e]) (s.declare e)

/-- A variable under its name, with the value of its literal. -/
def Bound.Holds (b : Bound) (p : String × Value) : Prop := b.node.toValue b.registry = .ok p.2 ∧ b.name = p.1

variable {s₀ s s' : Scenario} {bs pre post : List Bound} {es : List EnvEntry} {b : Bound} {text name : String}

theorem applyBindings_ok {r : Registry} {bindings : List (String × Node)}
    (h : s.applyBindings r bindings = (s', .ok ())) :
    ∃ ps, List.Forall₂ Bound.Holds (bindings.map fun b => ⟨b.1, r, b.2⟩) ps ∧
      s' = { s with bindings := Assoc.putAll s.bindings ps } := by
  induction bindings generalizing s with
  | nil =>
    cases h
    exact ⟨[], .nil, rfl⟩
  | cons b rest ih =>
    obtain ⟨name, n⟩ := b
    unfold applyBindings at h
    split at h
    · rename_i v hv
      obtain ⟨ps, hps, rfl⟩ := ih h
      exact ⟨(name, v) :: ps, .cons ⟨hv, rfl⟩ hps, rfl⟩
    · cases h

/-- A preparation changes the variables and the type environment, and both only by what it adds to them. -/
theorem Prepared.eq (h : Prepared s₀ bs es s) :
    ∃ ps, List.Forall₂ Bound.Holds bs ps ∧
      s = { s₀ with bindings := Assoc.putAll s₀.bindings ps, typeEnv := s₀.typeEnv ++ es } := by
  induction h with
  | start =>
    refine ⟨[], .nil, ?_⟩
    rw [List.append_nil]
    rfl
  | bind h r bindings hs' ih =>
    obtain ⟨ps, hps, rfl⟩ := ih
    obtain ⟨qs, hqs, rfl⟩ := applyBindings_ok hs'
    exact ⟨ps ++ qs, List.rel_append hps hqs, by rw [Assoc.putAll_append]⟩
  | declare h e ih =>
    obtain ⟨ps, hps, rfl⟩ := ih
    exact ⟨ps, hps, by rw [Scenario.declare, List.append_assoc]⟩

/-- The last binding of a variable holds. -/
theorem Prepared.last (h : Prepared s₀ (pre ++ b :: post) es s) (hpost : ∀ b' ∈ post, b'.name ≠ b.name) :
    ∃ v, b.node.toValue b.registry = .ok v ∧ Assoc.get? b.name s.bindings = some v := by
  obtain ⟨ps, hps, rfl⟩ := h.eq
  obtain ⟨us, ⟨name, v⟩, vs, rfl, ⟨hv, rfl⟩, hvs⟩ := forall₂_append_cons hps
  refine ⟨v, hv, Assoc.get?_putAll_last ?_⟩
  exact forall_right_of_forall₂ hvs hpost fun b' p hp hne => hp.2 ▸ hne

/-- Other variables are as before. -/
theorem Prepared.other (h : Prepared s₀ bs es s) (hbs : ∀ b ∈ bs, b.name ≠ name) :
    Assoc.get? name s.bindings = Assoc.get? name s₀.bindings := by
  obtain ⟨ps, hps, rfl⟩ := h.eq
  refine Assoc.get?_putAll_of_not_mem ?_
  exact forall_right_of_forall₂ hps hbs fun b p hp hne => hp.2 ▸ hne

/-! ### The attempt -/

/-- A request and an activation that hand over an expression in the environment that `s₀` has after some
    bindings, with the declarations of some entries. -/
structure HandsOver (s₀ : Scenario) (text : String) (bs : List Bound) (env : List EnvEntry) (r : Request)
    (act : Activation) : Prop where
  expression : r.expression = text
  container : r.container = s₀.container
  disableCheck : r.disableCheck = s₀.disableCheck
  names : r.declarations.map (·.1) = (env.map EnvEntry.name).eraseDups
  declared : ∀ pre e post, env = pre ++ e :: post → (∀ e' ∈ post, e'.name ≠ e.name) →
    ∃ d, e.declaration = .ok d ∧ Assoc.get? e.name r.declarations = some d
  bound : ∀ pre b post, bs = pre ++ b :: post → (∀ b' ∈ post, b'.name ≠ b.name) →
    ∃ v, b.node.toValue b.registry = .ok v ∧ Assoc.get? b.name act = some v
  others : ∀ name, (∀ b ∈ bs, b.name ≠ name) → Assoc.get? name act = Assoc.get? name s₀.bindings

variable {m : Means} {ds : Declarations} {e : TypeBindingError}

/-- An attempt in an environment that is not valid fails before the evaluator is asked. -/
theorem attempt_invalid (htext : s.expression = some text) (hopen : s.outcome = none)
    (hds : Declarations.ofEntries (s.typeEnv ++ s.standIns m.standIns) = .error e) :
    s.attempt m = ⟨s.withStandIns m.standIns, [], none, .error (.binding e)⟩ := by
  have henv : (s.withStandIns m.standIns).typeEnv = s.typeEnv ++ s.standIns m.standIns := by rw [withStandIns_eq]
  unfold attempt evaluate requireOpen
  rw [htext, hopen]
  dsimp only
  rw [henv, hds]

/-- An attempt in a valid environment asks the evaluator about the expression and records its answer. -/
theorem attempt_valid (htext : s.expression = some text) (hopen : s.outcome = none)
    (hds : Declarations.ofEntries (s.typeEnv ++ s.standIns m.standIns) = .ok ds) :
    (s.attempt m).request = some (s.request text ds) ∧
      (s.attempt m).Records m.classifier (m.evaluator (s.request text ds) >>= fun p => p s.bindings) := by
  have hs := withStandIns_eq s m.standIns
  have hrun : Scenario.run m.evaluator (s.request text ds) s.bindings =
      m.evaluator (s.request text ds) >>= fun p => p s.bindings := by
    unfold Scenario.run
    cases m.evaluator (s.request text ds) <;> rfl
  unfold attempt evaluate requireOpen
  rw [htext, hopen, ← hrun, hs]
  dsimp only
  rw [hds]
  dsimp only
  have hr : ({ s with typeEnv := s.typeEnv ++ s.standIns m.standIns } : Scenario).request text ds =
      s.request text ds := rfl
  have hconclude (o : Outcome) (log : Log) (r : Request) :=
    conclude_of_open (s := { s with typeEnv := s.typeEnv ++ s.standIns m.standIns }) hopen o log r
  rw [hr]
  split
  · rename_i v hv
    rw [hv, hconclude]
    exact ⟨rfl, rfl, rfl⟩
  · rename_i c hc
    rw [hc]
    exact ⟨rfl, rfl, hopen⟩
  · rename_i message hmessage
    rw [hmessage, hconclude]
    exact ⟨rfl, rfl, rfl⟩

/-- An attempt after any preparation of an open scenario with an expression. The first declaration that is not
    valid is the error, and no evaluator is asked. If all are valid, every evaluator is asked the one request
    and a program that it makes is run on the variables of the scenario; these hand over the expression with
    the last declaration of each name and the last binding of each variable, and what comes back is recorded. -/
theorem prepared_attempt_hands_over (hprep : Prepared s₀ bs es s) (htext : s₀.expression = some text)
    (hopen : s₀.outcome = none) (p : Option StandInProvider) :
    (∀ pre e post b, s₀.typeEnv ++ es ++ s₀.standIns p = pre ++ e :: post →
        (∀ e' ∈ pre, ∃ d, e'.declaration = .ok d) → e.declaration = .error b → ∀ evaluator classifier,
        (s.attempt ⟨evaluator, classifier, p⟩).request = none ∧
          (s.attempt ⟨evaluator, classifier, p⟩).result = .error (.binding b) ∧
          (s.attempt ⟨evaluator, classifier, p⟩).scenario.outcome = none) ∧
      ((∀ e ∈ s₀.typeEnv ++ es ++ s₀.standIns p, ∃ d, e.declaration = .ok d) → ∃ r,
        HandsOver s₀ text bs (s₀.typeEnv ++ es ++ s₀.standIns p) r s.bindings ∧
          ∀ evaluator classifier, (s.attempt ⟨evaluator, classifier, p⟩).request = some r ∧
            (s.attempt ⟨evaluator, classifier, p⟩).Records classifier
              (evaluator r >>= fun program => program s.bindings)) := by
  obtain ⟨ps, hps, hs⟩ := hprep.eq
  have htext' : s.expression = some text := by rw [hs, htext]
  have hopen' : s.outcome = none := by rw [hs, hopen]
  have henv : s.typeEnv ++ s.standIns p = s₀.typeEnv ++ es ++ s₀.standIns p := by rw [hs]; rfl
  constructor
  · intro pre e post b hsplit hpre he evaluator classifier
    have hds : Declarations.ofEntries (s.typeEnv ++ s.standIns p) = .error b := by
      rw [henv, hsplit]
      exact Declarations.ofEntries_first_error hpre he
    rw [attempt_invalid htext' hopen' hds, withStandIns_eq]
    exact ⟨rfl, rfl, hopen'⟩
  · intro hvalid
    obtain ⟨ds, hds⟩ := Declarations.add_of_valid [] hvalid
    refine ⟨s.request text ds, ?_, fun evaluator classifier => attempt_valid htext' hopen' (henv ▸ hds)⟩
    exact {
      expression := rfl
      container := by rw [hs]; rfl
      disableCheck := by rw [hs]; rfl
      names := Declarations.names_ofEntries hds
      declared := fun pre e post hsplit hpost => by
        rw [hsplit] at hds
        exact Declarations.ofEntries_last hds hpost
      bound := fun pre b post hsplit hpost => by
        rw [hsplit] at hprep
        exact hprep.last hpost
      others := fun name hbs => hprep.other hbs }

/-- A variable that is bound and declared twice, in a container with stand-ins: the evaluator finds the second
    binding and the second declaration. -/
theorem second_binding_handed_over :
    ∃ s r, Prepared { expression := some "x", container := "acme.v1" }
        [⟨"x", .standard, .scalar "int64_value" (.integer 1)⟩, ⟨"x", .standard, .scalar "int64_value" (.integer 2)⟩]
        [.type ⟨"x", .primitive, .single "string"⟩, .type ⟨"x", .primitive, .single "int"⟩] s ∧
      (s.attempt ⟨fun _ => .ok fun act => .ok ((Assoc.get? "x" act).getD .null), .standard,
        some StandIns.entries⟩).request = some r ∧
      r.declarations.map (·.1) = ["x", "acme.v1.TestAllTypes", "acme.v1.NestedTestAllTypes"] ∧
      Assoc.get? "x" r.declarations = some (.ident "int") ∧
      (s.attempt ⟨fun _ => .ok fun act => .ok ((Assoc.get? "x" act).getD .null), .standard,
        some StandIns.entries⟩).scenario.outcome = some (.value (.int 2)) := by
  have hprep : Prepared { expression := some "x", container := "acme.v1" }
      [⟨"x", .standard, .scalar "int64_value" (.integer 1)⟩, ⟨"x", .standard, .scalar "int64_value" (.integer 2)⟩]
      [.type ⟨"x", .primitive, .single "string"⟩, .type ⟨"x", .primitive, .single "int"⟩] _ :=
    .declare (.bind (.declare (.bind .start .standard [("x", .scalar "int64_value" (.integer 1))] rfl)
      (.type ⟨"x", .primitive, .single "string"⟩)) .standard [("x", .scalar "int64_value" (.integer 2))] rfl)
      (.type ⟨"x", .primitive, .single "int"⟩)
  have hvalid : ∀ e ∈ [.type ⟨"x", .primitive, .single "string"⟩, .type ⟨"x", .primitive, .single "int"⟩] ++
      StandIns.entries "acme.v1", ∃ d, EnvEntry.declaration e = .ok d := by
    simp only [StandIns.entries, List.cons_append, List.nil_append, List.forall_mem_cons]
    exact ⟨⟨_, rfl⟩, ⟨_, rfl⟩, ⟨_, rfl⟩, ⟨_, rfl⟩, nofun⟩
  obtain ⟨r, hands, hanswer⟩ := (prepared_attempt_hands_over hprep rfl rfl (some StandIns.entries)).2 hvalid
  obtain ⟨hrequest, hrecords⟩ := hanswer (fun _ => .ok fun act => .ok ((Assoc.get? "x" act).getD .null)) .standard
  obtain ⟨d, hd, hget⟩ := hands.declared [.type ⟨"x", .primitive, .single "string"⟩]
    (.type ⟨"x", .primitive, .single "int"⟩) _ rfl (by decide)
  cases hd
  exact ⟨_, r, hprep, hrequest, hands.names.trans (by decide), hget, hrecords.2⟩

end Scenario

end CelSuite
