import CelSuite.Proofs.Safety.Exceptions

/-! # Chains of connectives

Operands joined by `&&`, in any order and grouping, give false exactly when one of them does, and true exactly when
all of them do. Otherwise there is an error: that of an operand, or that there is no overload. So only which error
it is can depend on the order and the grouping. The same holds of `||` with true and false exchanged. -/

namespace CelSuite

/-- The connective that a bool decides: false decides `&&` and true decides `||`. -/
def BinaryOp.connective : Bool → BinaryOp
  | false => .and
  | true => .or

/-! ### Two operands -/

namespace Operators

variable {d b : Bool} {x l r : Except EvalError Value} {v : Value}

theorem gave_iff : gave b x = true ↔ x = .ok (.bool b) := by
  unfold gave
  split
  · simp
  · rename_i hother
    constructor
    · intro h
      cases h
    · intro h
      exact absurd h (hother b)

section
variable (hl : Contained l) (hr : Contained r)
include hl hr

theorem logical_eq_decisive : logical d l r = .ok (.bool d) ↔ l = .ok (.bool d) ∨ r = .ok (.bool d) := by
  rw [logical_contained hl hr]
  split
  · rename_i hdecides
    rw [Bool.or_eq_true, gave_iff, gave_iff] at hdecides
    exact iff_of_true rfl hdecides
  · rename_i hopen
    rw [Bool.or_eq_true, gave_iff, gave_iff] at hopen
    refine iff_of_false (fun h => ?_) hopen
    split at h <;> simp at h

theorem logical_eq_other : logical d l r = .ok (.bool !d) ↔ l = .ok (.bool !d) ∧ r = .ok (.bool !d) := by
  rw [logical_contained hl hr]
  constructor
  · intro h
    split at h
    · simp at h
    · rename_i hopen
      rw [Bool.or_eq_true, not_or, gave_iff, gave_iff] at hopen
      split at h
      · cases h
      · cases h
      · -- Both are bools, and neither is the one that decides.
        rename_i a b
        have hother {c : Bool} (hc : (.ok (.bool c) : Except EvalError Value) ≠ .ok (.bool d)) : c = !d := by
          cases c <;> cases d <;> simp_all
        exact ⟨by rw [hother hopen.1], by rw [hother hopen.2]⟩
      · cases h
  · rintro ⟨rfl, rfl⟩
    cases d <;> rfl

/-- What a connective gives is a bool. -/
theorem logical_bool (h : logical d l r = .ok v) : ∃ b, v = .bool b := by
  rw [logical_contained hl hr] at h
  split at h
  · cases h
    exact ⟨_, rfl⟩
  · split at h
    · cases h
    · cases h
    · cases h
      exact ⟨_, rfl⟩
    · cases h

end

end Operators

/-! ### Any number of operands -/

namespace Expr
open Operators

/-- A tree that joins operands by an operator, read from left to right. -/
inductive Joins (op : BinaryOp) : List Expr → Expr → Prop
  | operand (e : Expr) : Joins op [e] e
  | join {es fs : List Expr} {l r : Expr} (left : Joins op es l) (right : Joins op fs r) :
      Joins op (es ++ fs) (.binary op l r)

/-- A tree that joins operands by an operator, in some order and grouping. -/
def Arranges (op : BinaryOp) (operands : List Expr) (e : Expr) : Prop :=
  ∃ es, es.Perm operands ∧ Joins op es e

section
variable [MessageSystem] {s : Scope} {act : Activation} {d : Bool} {es operands : List Expr} {e e' l r : Expr}
  {v : Value} {err : EvalError}

theorem eval_connective (d : Bool) (l r : Expr) :
    (Expr.binary (.connective d) l r).eval s act = logical d (l.eval s act) (r.eval s act) := by
  cases d <;> rw [BinaryOp.connective, eval]

theorem Joins.eval_eq_decisive (h : Joins (.connective d) es e) :
    e.eval s act = .ok (.bool d) ↔ ∃ x ∈ es, x.eval s act = .ok (.bool d) := by
  induction h with
  | operand e => simp
  | join _ _ ihl ihr =>
    rw [eval_connective, logical_eq_decisive (eval_contained _) (eval_contained _), ihl, ihr]
    simp only [List.mem_append, or_and_right, exists_or]

theorem Joins.eval_eq_other (h : Joins (.connective d) es e) :
    e.eval s act = .ok (.bool !d) ↔ ∀ x ∈ es, x.eval s act = .ok (.bool !d) := by
  induction h with
  | operand e => simp
  | join _ _ ihl ihr =>
    rw [eval_connective, logical_eq_other (eval_contained _) (eval_contained _), ihl, ihr, List.forall_mem_append]

theorem Joins.eval_error (h : Joins (.connective d) es e) (herr : e.eval s act = .error err) :
    err = .noSuchOverload ∨ ∃ x ∈ es, x.eval s act = .error err := by
  induction h with
  | operand e => exact Or.inr ⟨e, List.mem_singleton.mpr rfl, herr⟩
  | join _ _ ihl ihr =>
    rw [eval_connective] at herr
    rcases logical_error herr with hl | hr | rfl
    · exact (ihl hl).imp_right fun ⟨x, hx, hxerr⟩ => ⟨x, List.mem_append_left _ hx, hxerr⟩
    · exact (ihr hr).imp_right fun ⟨x, hx, hxerr⟩ => ⟨x, List.mem_append_right _ hx, hxerr⟩
    · exact Or.inl rfl

/-- Two or more operands give a bool if they give a value. -/
theorem Joins.eval_bool (h : Joins (.connective d) es e) (many : 2 ≤ es.length) (hv : e.eval s act = .ok v) :
    ∃ b, v = .bool b := by
  cases h with
  | operand => simp at many
  | join =>
    rw [eval_connective] at hv
    exact logical_bool (eval_contained _) (eval_contained _) hv

section
variable (h : Arranges (.connective d) operands e)
include h

theorem Arranges.eval_eq_decisive : e.eval s act = .ok (.bool d) ↔ ∃ x ∈ operands, x.eval s act = .ok (.bool d) := by
  obtain ⟨es, order, joined⟩ := h
  simp only [joined.eval_eq_decisive, order.mem_iff]

theorem Arranges.eval_eq_other : e.eval s act = .ok (.bool !d) ↔ ∀ x ∈ operands, x.eval s act = .ok (.bool !d) := by
  obtain ⟨es, order, joined⟩ := h
  simp only [joined.eval_eq_other, order.mem_iff]

theorem Arranges.eval_error (herr : e.eval s act = .error err) :
    err = .noSuchOverload ∨ ∃ x ∈ operands, x.eval s act = .error err := by
  obtain ⟨es, order, joined⟩ := h
  exact (joined.eval_error herr).imp_right fun ⟨x, hx, hxerr⟩ => ⟨x, order.mem_iff.mp hx, hxerr⟩

theorem Arranges.eval_bool (many : 2 ≤ operands.length) (hv : e.eval s act = .ok v) : v = .bool d ∨ v = .bool !d := by
  obtain ⟨es, order, joined⟩ := h
  obtain ⟨b, rfl⟩ := joined.eval_bool (order.length_eq.symm ▸ many) hv
  cases b <;> cases d <;> simp

/-- A value that one arrangement has is the value of every other. -/
theorem Arranges.eval_ok (many : 2 ≤ operands.length) (h' : Arranges (.connective d) operands e')
    (hv : e.eval s act = .ok v) : e'.eval s act = .ok v := by
  rcases h.eval_bool many hv with rfl | rfl
  · exact h'.eval_eq_decisive.mpr (h.eval_eq_decisive.mp hv)
  · exact h'.eval_eq_other.mpr (h.eval_eq_other.mp hv)

end

/-- Of two or more operands that a connective joins, in whatever order and grouping: the bool that decides the
    connective is the value exactly when it is that of an operand, and the other bool exactly when it is that of every
    operand. In every other case there is an error, that of an operand or that there is no overload. So all orders and
    groupings have the same value, or none has one. -/
theorem eval_arranged (s : Scope) (act : Activation) (d : Bool) (many : 2 ≤ operands.length)
    (arranged : Arranges (.connective d) operands e) :
    (e.eval s act = .ok (.bool d) ↔ ∃ x ∈ operands, x.eval s act = .ok (.bool d)) ∧
      (e.eval s act = .ok (.bool !d) ↔ ∀ x ∈ operands, x.eval s act = .ok (.bool !d)) ∧
      ((∀ x ∈ operands, x.eval s act ≠ .ok (.bool d)) → (∃ x ∈ operands, x.eval s act ≠ .ok (.bool !d)) →
        ∃ err, e.eval s act = .error err ∧
          (err.message = "no such overload" ∨ ∃ x ∈ operands, x.eval s act = .error err)) ∧
      ∀ e', Arranges (.connective d) operands e' → ∀ v, e.eval s act = .ok v ↔ e'.eval s act = .ok v := by
  refine ⟨arranged.eval_eq_decisive, arranged.eval_eq_other, fun hnone ⟨y, hy, hne⟩ => ?_, fun e' arranged' v => ?_⟩
  · cases hresult : e.eval s act with
    | ok v =>
      rcases arranged.eval_bool many hresult with rfl | rfl
      · obtain ⟨x, hx, hdecides⟩ := arranged.eval_eq_decisive.mp hresult
        exact absurd hdecides (hnone x hx)
      · exact absurd (arranged.eval_eq_other.mp hresult y hy) hne
    | error err =>
      refine ⟨err, rfl, (arranged.eval_error hresult).imp_left ?_⟩
      rintro rfl
      rfl
  · exact ⟨arranged.eval_ok many arranged', arranged'.eval_ok many arranged⟩

end

/-- Operands of which one is no bool and one fails: with a false among them the value is false in any grouping, and
    without it the grouping tells the error. -/
theorem grouping_tells_error :
    let one : Expr := .literal (.int 1)
    let yes : Expr := .literal (.bool true)
    let no : Expr := .literal (.bool false)
    let x : Expr := .ident "x"
    2 ≤ [one, x, no].length ∧
      (Expr.binary .and (.binary .and one x) no).eval ⟨[], ""⟩ [] = .ok (.bool false) ∧
      (Expr.binary .and no (.binary .and x one)).eval ⟨[], ""⟩ [] = .ok (.bool false) ∧
      (Expr.binary .and (.binary .and one yes) x).eval ⟨[], ""⟩ [] = .error .noSuchOverload ∧
      (Expr.binary .and one (.binary .and yes x)).eval ⟨[], ""⟩ [] = .error (.undeclared "x" "") := by
  intro one yes no x
  have many : 2 ≤ [one, x, no].length := by decide
  have hleft : Arranges (.connective false) [one, x, no] (.binary .and (.binary .and one x) no) :=
    ⟨_, .refl _, .join (.join (.operand one) (.operand x)) (.operand no)⟩
  have hturned : Arranges (.connective false) [one, x, no] (.binary .and no (.binary .and x one)) :=
    ⟨_, List.reverse_perm [one, x, no], .join (.operand no) (.join (.operand x) (.operand one))⟩
  obtain ⟨hfalse, -, -, hsame⟩ := eval_arranged ⟨[], ""⟩ [] false many hleft
  have hvalue := hfalse.mpr ⟨no, by simp, rfl⟩
  exact ⟨many, hvalue, (hsame _ hturned _).mp hvalue, rfl, rfl⟩

end Expr

end CelSuite
