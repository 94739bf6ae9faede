import CelSuite.Proofs.Check.Soundness
import CelSuite.Proofs.Equality.Operators
import CelSuite.Proofs.Syntax.Parts

/-! # Evaluation cannot tell equal values apart

An evaluation reads the bindings of the dotted names that the expression spells, and no others. When these are
equal in two activations, the two evaluations give equal values or the same error. -/

namespace CelSuite

open Value

variable {act act' : Activation}

/-- A name is bound in neither of two activations, or in both to equal values without doubles and messages. -/
def Activation.AgreeOn (act act' : Activation) (name : String) : Prop :=
  Option.Rel Same (Assoc.get? name act) (Assoc.get? name act')

namespace Expr

/-- On its own an expression is neither a double nor a conversion to one nor a message. -/
def IsExact : Expr → Prop
  | .literal (.double _) | .message _ _ => False
  | .call function _ | .methodCall _ function _ => function ≠ "double"
  | _ => True

/-- An expression whose literals are scalars, and whose dotted name, if it has one, two activations agree on. -/
structure Reads (act act' : Activation) (e : Expr) : Prop where
  exact : e.IsExact
  literal : ∀ v, e = .literal v → v.IsScalar
  name : ∀ name, e.qualifiedName? = some name → act.AgreeOn act' name

theorem resolve?_same {name : String} (h : act.AgreeOn act' name) :
    Option.Rel Same (act.resolve? name) (act'.resolve? name) := by
  unfold Activation.resolve?
  rcases rel_cases h with ⟨v, w, hv, hw, hvw⟩ | ⟨hv, hw⟩
  · rw [hv, hw]
    exact .some hvw
  · rw [hv, hw]
    dsimp only
    unfold builtinType?
    split
    · exact .some (same_of_scalar trivial)
    · exact .none

theorem resolve_same {s : Scope} {name : String} (h : act.AgreeOn act' name) :
    Agree Same (resolve s act name) (resolve s act' name) := by
  unfold resolve
  rcases rel_cases (resolve?_same h) with ⟨v, w, hv, hw, hvw⟩ | ⟨hv, hw⟩
  · rw [hv, hw]
    exact .ok hvw
  · rw [hv, hw]
    dsimp only
    split
    · exact .error _
    · exact .error _

section
variable [MessageSystem] {s : Scope}

theorem select_same {operand : Expr} {field : String} (h : Reads act act' (.select operand field))
    (hoperand : Agree Same (operand.eval s act) (operand.eval s act')) :
    Agree Same ((Expr.select operand field).eval s act) ((Expr.select operand field).eval s act') := by
  have hbound : Option.Rel Same ((Expr.select operand field).qualifiedName?.bind act.resolve?)
      ((Expr.select operand field).qualifiedName?.bind act'.resolve?) := by
    cases hq : (Expr.select operand field).qualifiedName? with
    | none => exact .none
    | some name => exact resolve?_same (h.name name hq)
  rw [eval, eval]
  rcases rel_cases hbound with ⟨v, w, hv, hw, hvw⟩ | ⟨hv, hw⟩
  · rw [hv, hw]
    exact .ok hvw
  · rw [hv, hw]
    exact hoperand.bind fun v w hvw => Operators.select_same hvw field

theorem binary_same {op : BinaryOp} {left right : Expr}
    (hleft : Agree Same (left.eval s act) (left.eval s act'))
    (hright : Agree Same (right.eval s act) (right.eval s act')) :
    Agree Same ((Expr.binary op left right).eval s act) ((Expr.binary op left right).eval s act') := by
  cases op with
  | and | or =>
    rw [eval, eval]
    exact Operators.logical_same _ hleft hright
  | _ =>
    rw [eval, eval]
    · exact hleft.bind fun l l' hl => hright.bind fun r r' hr =>
        Operators.binary_same _ (hl.under 0) (hr.under 1)
    all_goals rintro ⟨⟩

theorem conditional_same {cond yes no : Expr} (hcond : Agree Same (cond.eval s act) (cond.eval s act'))
    (hyes : Agree Same (yes.eval s act) (yes.eval s act'))
    (hno : Agree Same (no.eval s act) (no.eval s act')) :
    Agree Same ((Expr.conditional cond yes no).eval s act) ((Expr.conditional cond yes no).eval s act') := by
  rw [eval, eval]
  refine hcond.bind fun v w hvw => ?_
  cases hvw.shape with
  | scalar =>
    split
    · exact hyes
    · exact hno
    · exact .error _
  | list | map => exact .error _

mutual

/-- Evaluations of one expression in activations that agree on its dotted names. -/
theorem eval_same : ∀ e : Expr, (∀ c ∈ e.parts, Reads act act' c) → Agree Same (e.eval s act) (e.eval s act')
  | .literal v, h => by
    rw [eval, eval]
    exact .ok (same_of_scalar ((h _ (self_mem_parts _)).literal v rfl))
  | .text units, _ => by
    rw [eval, eval]
    exact .ok (same_of_scalar trivial)
  | .ident name, h => by
    rw [eval, eval]
    exact resolve_same ((h _ (self_mem_parts _)).name name rfl)
  | .select operand field, h => by
    obtain ⟨hself, hoperand⟩ := List.forall_mem_cons.mp h
    exact select_same hself (eval_same operand hoperand)
  | .index operand i, h => by
    simp only [parts, List.forall_mem_cons, List.forall_mem_append] at h
    obtain ⟨-, hoperand, hi⟩ := h
    rw [eval, eval]
    exact (eval_same operand hoperand).bind fun v w hvw => (eval_same i hi).bind fun i j hij =>
      Operators.index_same hvw hij
  | .call function args, h => by
    obtain ⟨hself, hargs⟩ := List.forall_mem_cons.mp h
    rw [eval, eval]
    exact (evalAll_same args 0 hargs).bind fun vs ws hvs => Functions.call_same _ hself.exact hvs
  | .methodCall target function args, h => by
    simp only [parts, List.forall_mem_cons, List.forall_mem_append] at h
    obtain ⟨hself, htarget, hargs⟩ := h
    rw [eval, eval]
    exact (eval_same target htarget).bind fun v w hvw => (evalAll_same args 1 hargs).bind fun vs ws hvs =>
      Functions.call_same _ hself.exact (.cons hvw hvs)
  | .list items, h => by
    obtain ⟨-, hitems⟩ := List.forall_mem_cons.mp h
    rw [eval, eval]
    exact (evalAll_same items 0 hitems).bind fun vs ws hvs => .ok (same_list hvs)
  | .map entries, h => by
    obtain ⟨-, hentries⟩ := List.forall_mem_cons.mp h
    rw [eval, eval]
    exact (evalEntries_same entries 0 hentries).bind fun es es' hes => buildMap_same hes
  | .message name fields, h => (h _ (self_mem_parts _)).exact.elim
  | .unary op operand, h => by
    obtain ⟨-, hoperand⟩ := List.forall_mem_cons.mp h
    rw [eval, eval]
    exact (eval_same operand hoperand).bind fun v w hvw => Operators.unary_same op hvw
  | .binary op left right, h => by
    simp only [parts, List.forall_mem_cons, List.forall_mem_append] at h
    obtain ⟨-, hleft, hright⟩ := h
    exact binary_same (eval_same left hleft) (eval_same right hright)
  | .conditional cond yes no, h => by
    simp only [parts, List.forall_mem_cons, List.forall_mem_append] at h
    obtain ⟨-, ⟨hcond, hyes⟩, hno⟩ := h
    exact conditional_same (eval_same cond hcond) (eval_same yes hyes) (eval_same no hno)

theorem evalAll_same : ∀ (es : List Expr) (i : Nat), (∀ c ∈ partsAll es, Reads act act' c) →
    Agree (List.Forall₂ Same) (evalAll s act i es) (evalAll s act' i es)
  | [], i, _ => by
    rw [evalAll, evalAll]
    exact .ok .nil
  | e :: es, i, h => by
    obtain ⟨he, hes⟩ := List.forall_mem_append.mp h
    rw [evalAll, evalAll]
    exact (eval_same e he).bind fun v w hvw => (evalAll_same es (i + 1) hes).bind fun vs ws hvs =>
      .ok (.cons (hvw.under i) hvs)

theorem evalEntries_same : ∀ (es : List (Expr × Expr)) (i : Nat), (∀ c ∈ partsEntries es, Reads act act' c) →
    Agree SameEntries (evalEntries s act i es) (evalEntries s act' i es)
  | [], i, _ => by
    rw [evalEntries, evalEntries]
    exact .ok .nil
  | (k, e) :: r, i, h => by
    simp only [partsEntries, List.forall_mem_append] at h
    obtain ⟨⟨hk, he⟩, hr⟩ := h
    rw [evalEntries, evalEntries]
    exact (eval_same k hk).bind fun k k' hk => (eval_same e he).bind fun v w hvw =>
      (evalEntries_same r (i + 1) hr).bind fun vs ws hvs => .ok (.cons ⟨hk, hvw.under i⟩ hvs)

end

end

end Expr

namespace Evaluator

/-- A program of an expression without double literals, conversions to doubles and messages gives equal values
    or the same error in two activations, if each dotted name that the expression spells is bound in neither or
    in both to equal values without doubles and messages. -/
theorem equal_bindings_indistinguishable [MessageSystem] {r : Request} {e : Expr} {p : Program}
    (hparse : parse r.expression = .ok e) (hexact : ∀ c ∈ e.parts, c.IsExact) (hp : standard r = .ok p)
    (hact : ∀ c ∈ e.parts, ∀ name, c.qualifiedName? = some name → act.AgreeOn act' name) :
    (∃ v w, p act = .ok v ∧ p act' = .ok w ∧ v.equal w = true) ∨
      ∃ message, p act = .error (.error message) ∧ p act' = .error (.error message) := by
  obtain ⟨e', hparse', rfl⟩ := standard_ok hp
  cases hparse.symm.trans hparse'
  have hreads : ∀ c ∈ e.parts, Expr.Reads act act' c := by
    refine fun c hc => ⟨hexact c hc, ?_, hact c hc⟩
    rintro v rfl
    have hliteral := isLiteral_of_parse hparse hc
    cases v with
    | double => exact (hexact _ hc).elim
    | list | map | message | duration | type => exact hliteral.elim
    | _ => trivial
  unfold program
  generalize hx : e.eval ⟨r.declarations, r.container⟩ act = x
  generalize hy : e.eval ⟨r.declarations, r.container⟩ act' = y
  have hagree := Expr.eval_same (s := ⟨r.declarations, r.container⟩) e hreads
  rw [hx, hy] at hagree
  cases hagree with
  | ok h => exact Or.inl ⟨_, _, rfl, rfl, h.equal⟩
  | error err =>
    have hmessage := EvalError.failure_of_caught (Expr.eval_contained e err hx)
    exact Or.inr ⟨err.message, congrArg Except.error hmessage, congrArg Except.error hmessage⟩

/-- A field of two equal maps with their entries in different orders, the one beside another binding. -/
theorem map_order_indistinguishable :
    ∃ p, standard ⟨"a.b", [], "", true⟩ = .ok p ∧
      ∃ v w, p [("z", .null), ("a", .map [(.string "b", .list []), (.int 2, .null)])] = .ok v ∧
        p [("a", .map [(.int 2, .null), (.string "b", .list [])])] = .ok w ∧ v.equal w = true := by
  have hnull : Value.null.Exact := every_of_leaf rfl trivial
  have hlist : (Value.list []).Exact := every_of_leaf rfl trivial
  have hsame : Same (.map [(.string "b", .list []), (.int 2, .null)])
      (.map [(.int 2, .null), (.string "b", .list [])]) := by
    have hleft : [MapKey.string "b", MapKey.int 2].Nodup := by decide
    have hright : [MapKey.int 2, MapKey.string "b"].Nodup := by decide
    refine ⟨every_map_iff.mpr ⟨hleft, ?_⟩, every_map_iff.mpr ⟨hright, ?_⟩, rfl⟩
    · simp only [List.forall_mem_cons]
      exact ⟨hlist, hnull, nofun⟩
    · simp only [List.forall_mem_cons]
      exact ⟨hnull, hlist, nofun⟩
  have hstandard := standard_unchecked [] "" parse_dotted
  refine ⟨_, hstandard, (equal_bindings_indistinguishable parse_dotted ?_ hstandard ?_).resolve_right ?_⟩
  · simp only [Expr.parts, List.forall_mem_cons]
    exact ⟨trivial, trivial, nofun⟩
  · simp only [Expr.parts, List.forall_mem_cons]
    refine ⟨?_, ?_, nofun⟩
    · rintro name ⟨⟩
      exact Option.Rel.none
    · rintro name ⟨⟩
      exact Option.Rel.some hsame
  · -- The field is there.
    rintro ⟨message, herror, -⟩
    have hvalue : program ⟨[], ""⟩ (.select (.ident "a") "b")
        [("z", .null), ("a", .map [(.string "b", .list []), (.int 2, .null)])] = .ok (.list []) := rfl
    cases hvalue.symm.trans herror

end Evaluator

end CelSuite
