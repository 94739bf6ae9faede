import CelSuite.Proofs.Check.Soundness
import CelSuite.Proofs.Safety.Operators
import CelSuite.Proofs.Syntax.Faults
import CelSuite.Proofs.Syntax.Parts

/-! # The evaluator never goes wrong

An evaluation of well-formed values gives a well-formed value or an error message: every exception of an operator or a
function is caught where it is called. The one exception that goes on is that of the text itself: a string literal in
it writes a code point out of range. -/

namespace CelSuite

section
variable [MessageSystem] {s : Scope} {act : Activation}

namespace Expr
open Value

/-- What an evaluation starts from: the message types that a name can mean are sound, and the bindings are
    well formed. -/
structure Safe (s : Scope) (act : Activation) : Prop where
  types : ∀ name t, s.messageType? name = some t → t.Sound
  bindings : ∀ b ∈ act, b.2.WellFormed

theorem messageType?_sound (h : ∀ name t, (name, Declaration.message t) ∈ s.declarations → t.Sound)
    (name : String) (t : MessageType) (ht : s.messageType? name = some t) : t.Sound := by
  obtain ⟨full, -, hat⟩ := List.exists_of_findSome?_eq_some ht
  unfold Scope.messageAt? at hat
  split at hat
  · rename_i t' hget
    cases hat
    exact h full t (Assoc.mem_of_get? hget)
  · cases hat

theorem resolve?_wellFormed (safe : Safe s act) {name : String} {v : Value}
    (h : act.resolve? name = some v) : v.WellFormed := by
  unfold Activation.resolve? at h
  split at h
  · rename_i hget
    cases h
    exact safe.bindings _ (Assoc.mem_of_get? hget)
  · unfold builtinType? at h
    split at h
    · cases h
      exact SoundScalar.wellFormed ⟨trivial, trivial⟩
    · cases h

theorem resolve_wellFormed (safe : Safe s act) (name : String) :
    Yields WellFormed (resolve s act name) := by
  unfold resolve
  split
  · rename_i hv
    exact yields_ok (resolve?_wellFormed safe hv)
  · split
    · exact yields_error
    · exact yields_error

theorem wellFormed_of_isLiteral {v : Value} (h : v.IsLiteral) : v.WellFormed := by
  cases v with
  | int | uint => exact SoundScalar.wellFormed ⟨trivial, h⟩
  | double => exact wellFormed_double _
  | bytes | bool | null => exact SoundScalar.wellFormed ⟨trivial, trivial⟩
  | _ => exact h.elim

theorem binary_wellFormed {op : BinaryOp} {left right : Expr} (hleft : Yields WellFormed (left.eval s act))
    (hright : Yields WellFormed (right.eval s act)) :
    Yields WellFormed ((Expr.binary op left right).eval s act) := by
  cases op with
  | and | or =>
    rw [eval]
    exact Operators.logical_wellFormed _ _ _
  | _ =>
    rw [eval]
    · exact hleft.bind fun l hl => hright.bind fun r hr => Operators.binary_wellFormed _ (hl.under 0) (hr.under 1)
    all_goals rintro ⟨⟩

mutual

/-- Evaluation of an expression whose literals are in their ranges. -/
theorem eval_wellFormed (safe : Safe s act) : ∀ e : Expr, (∀ v, .literal v ∈ e.parts → v.IsLiteral) →
    Yields WellFormed (e.eval s act)
  | .literal v, h => by
    rw [eval]
    exact yields_ok (wellFormed_of_isLiteral (h v (self_mem_parts _)))
  | .text units, _ => by
    rw [eval]
    exact yields_ok (SoundScalar.wellFormed ⟨trivial, trivial⟩)
  | .ident name, _ => by
    rw [eval]
    exact resolve_wellFormed safe name
  | .select operand field, h => by
    have hoperand := eval_wellFormed safe operand fun v hv => h v (List.mem_cons_of_mem _ hv)
    rw [eval]
    split
    · rename_i hbound
      obtain ⟨name, -, hname⟩ := Option.bind_eq_some_iff.mp hbound
      exact yields_ok (resolve?_wellFormed safe hname)
    · exact hoperand.bind fun v hv => Operators.select_wellFormed hv field
  | .index operand i, h => by
    have hoperand := eval_wellFormed safe operand fun v hv => h v (by simp [parts, hv])
    have hi := eval_wellFormed safe i fun v hv => h v (by simp [parts, hv])
    rw [eval]
    exact hoperand.bind fun v hv => hi.bind fun i _ => Operators.index_wellFormed hv i
  | .call function args, h => by
    have hargs := evalAll_wellFormed safe args 0 fun v hv => h v (by simp [parts, hv])
    rw [eval]
    exact hargs.bind fun vs hvs => Functions.call_wellFormed _ function hvs
  | .methodCall target function args, h => by
    have htarget := eval_wellFormed safe target fun v hv => h v (by simp [parts, hv])
    have hargs := evalAll_wellFormed safe args 1 fun v hv => h v (by simp [parts, hv])
    rw [eval]
    exact htarget.bind fun v hv => hargs.bind fun vs hvs =>
      Functions.call_wellFormed _ function (List.forall_mem_cons.mpr ⟨hv, hvs⟩)
  | .list items, h => by
    have hitems := evalAll_wellFormed safe items 0 fun v hv => h v (by simp [parts, hv])
    rw [eval]
    exact hitems.bind fun vs hvs => yields_ok (wellFormed_list_iff.mpr hvs)
  | .map entries, h => by
    have hentries := evalEntries_wellFormed safe entries 0 fun v hv => h v (by simp [parts, hv])
    rw [eval]
    exact hentries.bind fun es hes => buildMap_wellFormed hes
  | .message name fields, h => by
    have hfields := evalFields_wellFormed safe fields 0 fun v hv => h v (by simp [parts, hv])
    rw [eval]
    split
    · exact yields_error
    · rename_i t ht
      refine hfields.bind fun fs hfs => yields_ok (safe.types name t ht _ _ fun f hf => ?_)
      rcases Assoc.mem_putAll hf with hf | hf
      · cases hf
      · exact hfs f hf
  | .unary op operand, h => by
    have hoperand := eval_wellFormed safe operand fun v hv => h v (by simp [parts, hv])
    rw [eval]
    exact hoperand.bind fun v _ => Operators.unary_wellFormed op v
  | .binary op left right, h => by
    have hleft := eval_wellFormed safe left fun v hv => h v (by simp [parts, hv])
    have hright := eval_wellFormed safe right fun v hv => h v (by simp [parts, hv])
    exact binary_wellFormed hleft hright
  | .conditional cond yes no, h => by
    have hcond := eval_wellFormed safe cond fun v hv => h v (by simp [parts, hv])
    have hyes := eval_wellFormed safe yes fun v hv => h v (by simp [parts, hv])
    have hno := eval_wellFormed safe no fun v hv => h v (by simp [parts, hv])
    rw [eval]
    refine hcond.bind fun v _ => ?_
    split
    · exact hyes
    · exact hno
    · exact yields_error

theorem evalAll_wellFormed (safe : Safe s act) : ∀ (es : List Expr) (i : Nat),
    (∀ v, .literal v ∈ partsAll es → v.IsLiteral) →
    Yields (fun vs => ∀ v ∈ vs, v.WellFormed) (evalAll s act i es)
  | [], i, _ => by
    rw [evalAll]
    exact yields_ok nofun
  | e :: es, i, h => by
    have he := eval_wellFormed safe e fun v hv => h v (by simp [partsAll, hv])
    have hes := evalAll_wellFormed safe es (i + 1) fun v hv => h v (by simp [partsAll, hv])
    rw [evalAll]
    exact he.bind fun v hv => hes.bind fun vs hvs => yields_ok (List.forall_mem_cons.mpr ⟨hv.under i, hvs⟩)

theorem evalEntries_wellFormed (safe : Safe s act) : ∀ (es : List (Expr × Expr)) (i : Nat),
    (∀ v, .literal v ∈ partsEntries es → v.IsLiteral) →
    Yields (fun vs => ∀ e ∈ vs, e.1.WellFormed ∧ e.2.WellFormed) (evalEntries s act i es)
  | [], i, _ => by
    rw [evalEntries]
    exact yields_ok nofun
  | (k, e) :: r, i, h => by
    have hk := eval_wellFormed safe k fun v hv => h v (by simp [partsEntries, hv])
    have he := eval_wellFormed safe e fun v hv => h v (by simp [partsEntries, hv])
    have hr := evalEntries_wellFormed safe r (i + 1) fun v hv => h v (by simp [partsEntries, hv])
    rw [evalEntries]
    exact hk.bind fun k hk => he.bind fun v hv => hr.bind fun vs hvs =>
      yields_ok (List.forall_mem_cons.mpr ⟨⟨hk, hv.under i⟩, hvs⟩)

theorem evalFields_wellFormed (safe : Safe s act) : ∀ (fs : List (String × Expr)) (i : Nat),
    (∀ v, .literal v ∈ partsFields fs → v.IsLiteral) →
    Yields (fun vs => ∀ f ∈ vs, f.2.WellFormed) (evalFields s act i fs)
  | [], i, _ => by
    rw [evalFields]
    exact yields_ok nofun
  | (name, e) :: r, i, h => by
    have he := eval_wellFormed safe e fun v hv => h v (by simp [partsFields, hv])
    have hr := evalFields_wellFormed safe r (i + 1) fun v hv => h v (by simp [partsFields, hv])
    rw [evalFields]
    exact he.bind fun v hv => hr.bind fun vs hvs => yields_ok (List.forall_mem_cons.mpr ⟨hv.under i, hvs⟩)

end

end Expr

namespace Evaluator

/-- A request is refused with an error message, or with what was thrown while its text was read. -/
theorem standard_error {r : Request} {f : Failure} (h : standard r = .error f) :
    (∃ message, f = .error message) ∨ ∃ x, f = .crash x.crash ∧ parse r.expression = .error (.exception x) := by
  unfold standard at h
  split at h
  · rename_i err hparse
    cases h
    cases err with
    | exception x => exact Or.inr ⟨x, rfl, hparse⟩
    | _ => exact Or.inl ⟨_, rfl⟩
  · dsimp only at h
    split at h
    · cases h
    · split at h
      · cases h
      · rename_i err herr
        cases h
        cases err with
        | exception x => exact absurd herr ((Expr.check_contained _).ne_exception x)
        | _ => exact Or.inl ⟨_, rfl⟩

/-- A text, with declarations whose message types are sound, is refused with an error message unless a string
    literal in it writes a code point out of range. A program gives a well-formed value or an error message
    for well-formed values. -/
theorem never_goes_wrong (r : Request)
    (ht : ∀ name t, (name, Declaration.message t) ∈ r.declarations → t.Sound) :
    (∀ f, standard r = .error f → (∃ message, f = .error message) ∨
        ∃ n, f = .crash (.invalidCodePoint n) ∧ ∃ ts, Lexer.tokenize r.expression = .ok ts ∧
          ∃ t ∈ ts, t.kind = .string ∧ Literal.Overflows n t.text.toList) ∧
      ∀ p, standard r = .ok p → ∀ act : Activation, (∀ b ∈ act, b.2.WellFormed) →
        (∃ v, p act = .ok v ∧ v.WellFormed) ∨ ∃ message, p act = .error (.error message) := by
  refine ⟨fun f hf => ?_, fun p hp act hact => ?_⟩
  · rcases standard_error hf with hmessage | ⟨x, rfl, hparse⟩
    · exact Or.inl hmessage
    · obtain ⟨n, rfl, hoverflows⟩ := overflows_of_parse hparse
      exact Or.inr ⟨n, rfl, hoverflows⟩
  · obtain ⟨e, hparse, rfl⟩ := standard_ok hp
    have safe : Expr.Safe ⟨r.declarations, r.container⟩ act := ⟨Expr.messageType?_sound ht, hact⟩
    have hyields := Expr.eval_wellFormed safe e fun v hv => isLiteral_of_parse hparse hv
    rw [program]
    cases he : e.eval ⟨r.declarations, r.container⟩ act with
    | ok v => exact Or.inl ⟨v, rfl, hyields v he⟩
    | error err =>
      have hmessage := EvalError.failure_of_caught (Expr.eval_contained e err he)
      exact Or.inr ⟨err.message, congrArg Except.error hmessage⟩

end Evaluator

end

/-- A field of an instance of a stand-in message that was made with it. -/
theorem Evaluator.stand_in_field_wellFormed :
    ∃ p, standard ⟨"a.b", [("acme.v1.TestAllTypes", .message (StandIns.flatType "acme.v1"))], "acme.v1", true⟩ =
        .ok p ∧
      ∃ v, p [("a", .message (.given 0) (StandIns.flatType "acme.v1") [("b", .int 1)])] = .ok v ∧ v.WellFormed := by
  have hflat : (StandIns.flatType "acme.v1").Sound :=
    MessageType.sound_of_schema (StandIns.schema_inRange "acme.v1")
  have hdeclared : ∀ name t, (name, Declaration.message t) ∈
      [("acme.v1.TestAllTypes", Declaration.message (StandIns.flatType "acme.v1"))] → t.Sound := by
    intro name t ht
    cases List.mem_singleton.mp ht
    exact hflat
  have hone : Value.InIntRange 1 := by decide
  have hfields : ∀ f ∈ [("b", Value.int 1)], f.2.WellFormed :=
    List.forall_mem_singleton.mpr (Value.SoundScalar.wellFormed ⟨trivial, hone⟩)
  have hstandard := standard_unchecked [("acme.v1.TestAllTypes", .message (StandIns.flatType "acme.v1"))] "acme.v1"
    parse_dotted
  refine ⟨_, hstandard, ((never_goes_wrong _ hdeclared).2 _ hstandard _
    (List.forall_mem_singleton.mpr (hflat (.given 0) _ hfields))).resolve_right ?_⟩
  rintro ⟨message, herror⟩
  have hvalue : program ⟨[("acme.v1.TestAllTypes", .message (StandIns.flatType "acme.v1"))], "acme.v1"⟩
      (.select (.ident "a") "b") [("a", .message (.given 0) (StandIns.flatType "acme.v1") [("b", .int 1)])] =
      .ok (.int 1) := rfl
  cases hvalue.symm.trans herror

end CelSuite
