import CelSuite.Proofs.Escapes.Lexemes

/-! # Evaluating text that stands between quotes

An expression without literals between the quote around it has the same tree with and without the escapes
of that quote. So an attempt to evaluate the text as it stands comes to the same end as one to evaluate the
text unescaped. -/

namespace CelSuite

variable {q : Text.Quote} {text text' : String} {e : Expr}

namespace Grammar

theorem rewording_unescape (q : Text.Quote) : Rewording (unescapeWord q) where
  kind w := by
    unfold unescapeWord
    split <;> rfl
  op _ := rfl
  ident _ := rfl
  literal := Literal.unescape

end Grammar

open Lexer

theorem Evaluator.parse_expandEscapes (hparse : parse text = .ok e)
    (hq : ∀ ls, Lexes text.toList ls → ∀ l ∈ ls, l.delimiter? ≠ some q.char) :
    parse (Text.expandEscapes q text) = .ok e := by
  obtain ⟨ls, hls, hd⟩ := parse_ok_iff_lexes.mp hparse
  refine parse_ok_iff_lexes.mpr ⟨ls.map (Lexeme.unescape q), ?_, ?_⟩
  · rw [Text.expandEscapes, String.toList_ofList]
    exact hls.unescape (hq ls hls)
  · rw [hls.unescape_words]
    exact hd.reword (Grammar.rewording_unescape q)

/-- A request is answered by the tree of its expression alone. -/
theorem Evaluator.standard_congr [MessageSystem] (h : parse text = parse text') (ds : Declarations) (container : String)
    (disableCheck : Bool) :
    standard ⟨text, ds, container, disableCheck⟩ = standard ⟨text', ds, container, disableCheck⟩ := by
  unfold standard
  dsimp only
  rw [h]

namespace Scenario

variable {s : Scenario} {classifier : Classifier} {standIns : Option StandInProvider}

/-- Two attempts that end alike: the same value or error, the same log, the same outcome recorded. -/
structure Alike (a b : Attempt) : Prop where
  result : a.result = b.result
  log : a.log = b.log
  outcome : a.scenario.outcome = b.scenario.outcome

theorem withStandIns_expression (s : Scenario) (x : Option String) (standIns : Option StandInProvider) :
    { s with expression := x }.withStandIns standIns = { s.withStandIns standIns with expression := x } := by
  unfold withStandIns
  cases standIns with
  | none => rfl
  | some provider =>
    dsimp only
    split <;> rfl

theorem evaluate_alike [MessageSystem] (h : Evaluator.parse text = Evaluator.parse text') :
    Alike ({ s with expression := some text }.evaluate .standard classifier standIns)
      ({ s with expression := some text' }.evaluate .standard classifier standIns) := by
  have hopen := withStandIns_outcome s standIns
  unfold evaluate
  rw [withStandIns_expression s (some text), withStandIns_expression s (some text')]
  dsimp only [requireOpen]
  generalize s.withStandIns standIns = s' at hopen ⊢
  cases ho : s.outcome with
  | some o => constructor <;> rfl
  | none =>
    cases Declarations.ofEntries s'.typeEnv with
    | error e => constructor <;> rfl
    | ok ds =>
      have hrun := Evaluator.standard_congr h ds s'.container s'.disableCheck
      have hconclude {text : String} (o : Outcome) (log : Log) (r : Request) :=
        conclude_of_open (s := { s' with expression := some text }) (hopen.trans ho) o log r
      dsimp only [request, run, environmentLog]
      rw [hrun]
      split
      · simp only [hconclude]
        constructor <;> rfl
      · constructor <;> rfl
      · simp only [hconclude]
        constructor <;> rfl

end Scenario

/-- Undoing the escapes of a quote that delimits no literal keeps the tree of an expression. So evaluating
    the text that stands between quotes ends like evaluating the text as the expression. -/
theorem expandEscapes_keeps_meaning [MessageSystem] (hparse : Evaluator.parse text = .ok e)
    (hq : ∀ ls, Lexes text.toList ls → ∀ l ∈ ls, l.delimiter? ≠ some q.char) :
    Evaluator.parse (Text.expandEscapes q text) = .ok e ∧
      ∀ (s : Scenario) (classifier : Classifier) (standIns : Option StandInProvider), s.outcome = none →
        Scenario.Alike (s.evaluateText text q .standard classifier standIns)
          ({ s with expression := some text }.evaluate .standard classifier standIns) := by
  have hparse' := Evaluator.parse_expandEscapes hparse hq
  refine ⟨hparse', fun s classifier standIns hs => ?_⟩
  unfold Scenario.evaluateText
  rw [Scenario.requireOpen_eq_ok.mpr hs]
  exact Scenario.evaluate_alike (hparse'.trans hparse.symm)

/-- A text in single quotes, inside double quotes and with one of them escaped in it. -/
theorem escaped_quote_in_literal :
    Evaluator.parse (Text.expandEscapes .double "'\\\"'") = .ok (.text [0x22]) := by
  have hlexes : Lexes "'\\\"'".toList [⟨.string, ['\\', '"'], ['\x27', '\\', '"', '\x27']⟩] :=
    .of_leads (@Leads.string '\x27' ['\\', '"'] [] rfl (.escape .nil)) rfl .nil
  have hcodes : Literal.codePoints ['\\', '"'] = .ok [0x22] := by
    simp [Literal.codePoints, Literal.stringEscape, Literal.simpleEscape?, Except.map]
  have hparse : Evaluator.parse "'\\\"'" = .ok (.text [0x22]) :=
    Evaluator.parse_ok_iff_lexes.mpr ⟨_, hlexes, .of_primary (.literal (.string_ofList hcodes))⟩
  refine (expandEscapes_keeps_meaning hparse fun ls hls l hl => ?_).1
  rw [← hlexes.unique hls, List.mem_singleton] at hl
  rw [hl]
  decide

end CelSuite
