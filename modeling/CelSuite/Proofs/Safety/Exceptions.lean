import CelSuite.Attempt
import CelSuite.Proofs.Except
import CelSuite.Proofs.Functions.Durations
import CelSuite.Proofs.Values.Doubles

/-! # No exception goes on

What an operator or a function throws is of the class that its handler catches, and what it computes without a
handler throws nothing: a divisor is tested before the division, a text before it is read as an integer, and a
double is cut off at its point before it is taken as one. So they fail with evaluation errors only, none of them
an undeclared reference, which is met at names. By induction over the tree no evaluation ends in an exception. -/

namespace CelSuite

/-- Whether an error is an undeclared reference. -/
def EvalError.isUndeclared : EvalError → Bool
  | .undeclared _ _ => true
  | _ => false

/-- Whether an error is an exception that no handler caught. -/
def EvalError.isException : EvalError → Bool
  | .exception _ => true
  | _ => false

theorem EvalError.failure_of_caught {err : EvalError} (h : err.isException = false) :
    err.failure = .error err.message := by
  cases err <;> first | rfl | cases h

/-- An error that is neither an exception nor about a name. -/
structure EvalError.Plain (err : EvalError) : Prop where
  nameless : err.isUndeclared = false
  caught : err.isException = false

/-- A step that ends in no exception. -/
def Contained {α : Type} (x : Except EvalError α) : Prop := Refuses (fun err => err.isException = false) x

variable {α : Type} {x : Except EvalError α}

theorem contained_of_plain (h : Refuses EvalError.Plain x) : Contained x := fun err he => (h err he).caught

theorem Contained.ne_exception (h : Contained x) (e : Exception) : x ≠ .error (.exception e) := fun heq => by
  cases h _ heq

/-- A step whose errors are those of a handler. -/
theorem refuses_catching {P : EvalError → Prop} {c : ExceptionClass} {handle onward : Exception → EvalError}
    {y : Except Exception α} (hcls : Refuses (fun e => e.cls = c) y) (hP : ∀ e, P (handle e)) :
    Refuses P (Exception.catching c handle onward y) := by
  cases y with
  | ok a => exact refuses_ok
  | error e =>
    rw [Exception.catching_of_cls (hcls e rfl)]
    exact refuses_error (hP e)

/-! ### Operators -/

namespace Operators

variable {decisive : Bool} {l r : Except EvalError Value}

theorem checkedInt_plain (n : Int) : Refuses EvalError.Plain (checkedInt n) := by
  rw [checkedInt_eq]
  exact refuses_ite ⟨rfl, rfl⟩

theorem checkedUint_plain (n : Int) : Refuses EvalError.Plain (checkedUint n) := by
  rw [checkedUint_eq]
  exact refuses_ite ⟨rfl, rfl⟩

theorem unary_plain (op : UnaryOp) (v : Value) : Refuses EvalError.Plain (unary op v) := by
  unfold unary
  split
  · exact refuses_ok
  · exact checkedInt_plain _
  · exact refuses_ok
  · exact refuses_ok
  · exact refuses_error ⟨rfl, rfl⟩

theorem integer_plain (op : Arith) (a b : Int) : Refuses EvalError.Plain (integer op a b) := by
  cases op with
  | add | sub | mul => exact refuses_ok
  | div =>
    rw [integer_div]
    split
    · exact refuses_error ⟨rfl, rfl⟩
    · exact refuses_ok
  | mod =>
    rw [integer_mod]
    split
    · exact refuses_error ⟨rfl, rfl⟩
    · exact refuses_ok

theorem arithmetic_plain (op : Arith) (l r : Value) : Refuses EvalError.Plain (arithmetic op l r) := by
  unfold arithmetic
  split
  · exact (integer_plain _ _ _).bind fun _ => checkedInt_plain _
  · exact (integer_plain _ _ _).bind fun _ => checkedUint_plain _
  · cases op with
    | add | sub | mul | div => exact refuses_ok
    | mod => exact refuses_error ⟨rfl, rfl⟩
  · exact refuses_ite ⟨rfl, rfl⟩
  · exact refuses_ite ⟨rfl, rfl⟩
  · exact refuses_ite ⟨rfl, rfl⟩
  · split
    · exact refuses_ok
    · exact refuses_ok
    · exact refuses_error ⟨rfl, rfl⟩
  · exact refuses_error ⟨rfl, rfl⟩

theorem compare_plain (l r : Value) : Refuses EvalError.Plain (compare l r) := by
  unfold compare
  split <;> first | exact refuses_ok | exact refuses_error ⟨rfl, rfl⟩

theorem contains_plain (l r : Value) : Refuses EvalError.Plain (contains l r) := by
  unfold contains
  split <;> first | exact refuses_ok | exact refuses_error ⟨rfl, rfl⟩

theorem binary_plain (op : BinaryOp) (l r : Value) : Refuses EvalError.Plain (binary op l r) := by
  cases op with
  | equal | notEqual => exact refuses_ok
  | less | lessEqual | greater | greaterEqual => exact (compare_plain l r).map _
  | member => exact contains_plain _ _
  | add | sub | mul | div | mod => exact arithmetic_plain _ _ _
  | and | or => exact refuses_error ⟨rfl, rfl⟩

theorem select_plain [MessageSystem] (v : Value) (field : String) : Refuses EvalError.Plain (select v field) := by
  unfold select
  split
  · split
    · exact refuses_ok
    · exact refuses_error ⟨rfl, rfl⟩
  · split
    · exact refuses_ok
    · exact refuses_error ⟨rfl, rfl⟩
  · exact refuses_error ⟨rfl, rfl⟩

theorem index_plain (v i : Value) : Refuses EvalError.Plain (index v i) := by
  unfold index
  split
  · split
    · exact refuses_ok
    · exact refuses_error ⟨rfl, rfl⟩
  · exact refuses_error ⟨rfl, rfl⟩
  · split
    · exact refuses_ok
    · exact refuses_error ⟨rfl, rfl⟩
  · exact refuses_error ⟨rfl, rfl⟩

theorem attempt_eq_ok {y : Except EvalError Value} (h : attempt l = .ok y) : y = l := by
  unfold attempt at h
  split at h
  · cases h
  · exact (Except.ok.inj h).symm

theorem attempt_eq_error {e : Exception} (h : attempt l = .error e) : l = .error (.exception e) := by
  unfold attempt at h
  split at h
  · rw [Except.error.inj h]
  · cases h

theorem attempt_contained (h : Contained l) : attempt l = .ok l := by
  unfold attempt
  split
  · exact absurd rfl (h.ne_exception _)
  · rfl

/-- A connective of operands that throw nothing: the operand that decides makes the other one irrelevant, whichever of
    the two it is. -/
theorem logical_contained (hl : Contained l) (hr : Contained r) : logical decisive l r =
    if gave decisive l || gave decisive r then .ok (.bool decisive)
    else
      match l, r with
      | .error e, _ => .error e
      | .ok _, .error e => .error e
      | .ok (.bool _), .ok (.bool _) => .ok (.bool !decisive)
      | .ok _, .ok _ => .error .noSuchOverload := by
  rw [logical, attempt_contained hl, attempt_contained hr]
  simp only [mapError_ok, bind, Except.bind, pure, Except.pure]
  cases gave decisive l with
  | true => rfl
  | false =>
    cases gave decisive r with
    | true => rfl
    | false =>
      cases l with
      | error e => rfl
      | ok v =>
        cases r with
        | error e => cases v <;> rfl
        | ok w => cases v <;> first | rfl | (cases w <;> rfl)

/-- The error of a connective is that of an operand, or that there is no overload. -/
theorem logical_error {err : EvalError} (h : logical decisive l r = .error err) :
    l = .error err ∨ r = .error err ∨ err = .noSuchOverload := by
  unfold logical at h
  rcases bind_eq_error.mp h with h | ⟨l', hl, h⟩
  · obtain ⟨e, he, rfl⟩ := mapError_eq_error.mp h
    exact Or.inl (attempt_eq_error he)
  cases attempt_eq_ok (mapError_eq_ok.mp hl)
  split at h
  · cases h
  rcases bind_eq_error.mp h with h | ⟨r', hr, h⟩
  · obtain ⟨e, he, rfl⟩ := mapError_eq_error.mp h
    exact Or.inr (Or.inl (attempt_eq_error he))
  cases attempt_eq_ok (mapError_eq_ok.mp hr)
  split at h
  · cases h
  rcases bind_eq_error.mp h with h | ⟨v, -, h⟩
  · exact Or.inl h
  rcases bind_eq_error.mp h with h | ⟨w, -, h⟩
  · exact Or.inr (Or.inl h)
  split at h
  · cases h
  · cases h
    exact Or.inr (Or.inr rfl)

end Operators

/-! ### Functions -/

namespace Functions

theorem size_plain (v : Value) : Refuses EvalError.Plain (size v) := by
  unfold size
  split <;> first | exact Operators.checkedInt_plain _ | exact refuses_error ⟨rfl, rfl⟩

/-- A finite double is an integer once it is cut off at its point. -/
theorem ofDouble_trunc {x : Double} (h : x.isFinite = true) : Integer.ofDouble x.trunc = .ok x.truncate := by
  obtain ⟨hinteger, htruncate⟩ := Double.trunc_eq h
  rw [Integer.ofDouble, if_pos hinteger, htruncate]

theorem ofText_of_signedInteger? {s : String} {n : Int} (h : Text.signedInteger? s.toList = some n) :
    Integer.ofText s = .ok n :=
  Integer.ofText_eq_ok.mpr (Decimal.integer?_of_signedInteger? h)

theorem ofText_of_natural? {s : String} {n : Int} (h : natural? s.toList = some n) : Integer.ofText s = .ok n := by
  refine ofText_of_signedInteger? ?_
  unfold natural? at h
  split at h
  · cases h
  · exact h

section
variable {check : Int → Except EvalError Value} (hcheck : ∀ n, Refuses EvalError.Plain (check n))
include hcheck

/-- A double is tested for being finite before it is taken as an integer. -/
theorem ofDouble_plain (x : Double) : Refuses EvalError.Plain
    (if x.isFinite then do check (← (Integer.ofDouble x.trunc).mapError .exception) else .error .overflow) := by
  split
  · rename_i hfinite
    rw [ofDouble_trunc hfinite]
    exact hcheck _
  · exact refuses_error ⟨rfl, rfl⟩

/-- A text is tested for being an integer before it is read as one. -/
theorem ofText_plain {s : String} {n? : Option Int} (hreads : ∀ n, n? = some n → Integer.ofText s = .ok n) :
    Refuses EvalError.Plain
      (if n?.isSome then do check (← (Integer.ofText s).mapError .exception) else .error .noSuchOverload) := by
  split
  · rename_i hsome
    obtain ⟨n, hn⟩ := Option.isSome_iff_exists.mp hsome
    rw [hreads n hn]
    exact hcheck _
  · exact refuses_error ⟨rfl, rfl⟩

end

theorem toInt_plain (v : Value) : Refuses EvalError.Plain (toInt v) := by
  unfold toInt
  split
  · exact refuses_ok
  · exact Operators.checkedInt_plain _
  · exact ofDouble_plain Operators.checkedInt_plain _
  · exact ofText_plain Operators.checkedInt_plain fun _ => ofText_of_signedInteger?
  · exact refuses_error ⟨rfl, rfl⟩

theorem toUint_plain (v : Value) : Refuses EvalError.Plain (toUint v) := by
  unfold toUint
  split
  · exact refuses_ok
  · exact Operators.checkedUint_plain _
  · exact ofDouble_plain Operators.checkedUint_plain _
  · exact ofText_plain Operators.checkedUint_plain fun _ => ofText_of_natural?
  · exact refuses_error ⟨rfl, rfl⟩

theorem toDouble_plain (v : Value) : Refuses EvalError.Plain (toDouble v) := by
  unfold toDouble
  split
  · exact refuses_ok
  · exact refuses_ok
  · exact refuses_ok
  · split
    · exact refuses_ok
    · exact refuses_error ⟨rfl, rfl⟩
  · exact refuses_error ⟨rfl, rfl⟩

theorem decode_cls (bs : List UInt8) : Refuses (fun e => e.cls = .typeError) (decode bs) := by
  unfold decode
  split
  · exact refuses_ok
  · exact refuses_error rfl

theorem toText_plain (v : Value) : Refuses EvalError.Plain (toText v) := by
  unfold toText
  split
  · exact refuses_ok
  · exact refuses_ok
  · exact refuses_ok
  · exact refuses_ok
  · exact refuses_ok
  · exact refuses_catching ((decode_cls _).map _) fun _ => ⟨rfl, rfl⟩
  · exact refuses_error ⟨rfl, rfl⟩

theorem toDuration_plain (v : Value) : Refuses EvalError.Plain (toDuration v) := by
  cases v with
  | string s =>
    rcases toDuration_cases s with ⟨total, -, h⟩ | ⟨-, h⟩
    · rw [h]
      exact refuses_ok
    · rw [h]
      exact refuses_error ⟨rfl, rfl⟩
  | _ => exact refuses_error ⟨rfl, rfl⟩

theorem apply_plain (function : String) (v : Value) : Refuses EvalError.Plain (apply function v) := by
  unfold apply
  split
  · exact size_plain v
  split
  · exact refuses_ok
  split
  · exact refuses_ok
  split
  · exact toInt_plain v
  split
  · exact toUint_plain v
  split
  · exact toDouble_plain v
  split
  · exact toText_plain v
  · exact toDuration_plain v

/-- A call of a known function. -/
theorem call_plain {container function : String} (hf : functionNames.contains function = true)
    (args : List Value) : Refuses EvalError.Plain (call container function args) := by
  unfold call
  rw [if_pos hf]
  split
  · exact apply_plain function _
  · exact refuses_error ⟨rfl, rfl⟩

theorem call_contained (container function : String) (args : List Value) :
    Contained (call container function args) := by
  by_cases hf : functionNames.contains function = true
  · exact contained_of_plain (call_plain hf args)
  · unfold call
    rw [if_neg hf]
    exact refuses_error rfl

end Functions

/-! ### Expressions -/

namespace Expr

/-- The one thing that a map throws is a key of a kind that cannot be one. -/
theorem addEntries_cls (m : Entries) (es : List (Value × Value)) :
    Refuses (fun e => (Exception.value e).cls = .typeError) (Value.addEntries m es) := by
  induction es generalizing m with
  | nil => exact refuses_ok
  | cons e es ih =>
    rw [Value.addEntries]
    split
    · exact ih _
    · exact refuses_error rfl

theorem buildMap_plain (entries : List (Value × Value)) : Refuses EvalError.Plain (buildMap entries) :=
  refuses_catching ((addEntries_cls [] entries).map _).mapError fun _ => ⟨rfl, rfl⟩

variable {s : Scope} {act : Activation}

mutual

/-- All that the check refuses is a name. -/
theorem check_contained : ∀ e : Expr, Contained (e.check s)
  | .literal _ | .text _ => by
    rw [check]
    exact refuses_ok
  | .ident name => by
    rw [check]
    exact refuses_ite rfl
  | .select operand field => by
    have hoperand := check_contained operand
    rw [check]
    split
    · split
      · exact refuses_ok
      · exact hoperand
    · exact hoperand
  | .index operand i => by
    have hoperand := check_contained operand
    have hi := check_contained i
    rw [check]
    exact hoperand.bind fun _ => hi
  | .call function args => by
    have hargs := checkAll_contained args
    rw [check]
    split
    · exact hargs
    · exact refuses_error rfl
  | .methodCall target function args => by
    have htarget := check_contained target
    have hargs := checkAll_contained args
    rw [check]
    split
    · exact htarget.bind fun _ => hargs
    · exact refuses_error rfl
  | .list items => by
    have hitems := checkAll_contained items
    rw [check]
    exact hitems
  | .map entries => by
    have hentries := checkEntries_contained entries
    rw [check]
    exact hentries
  | .message name fields => by
    have hfields := checkFields_contained fields
    rw [check]
    split
    · exact hfields
    · exact refuses_error rfl
  | .unary _ operand => by
    have hoperand := check_contained operand
    rw [check]
    exact hoperand
  | .binary _ left right => by
    have hleft := check_contained left
    have hright := check_contained right
    rw [check]
    exact hleft.bind fun _ => hright
  | .conditional cond yes no => by
    have hcond := check_contained cond
    have hyes := check_contained yes
    have hno := check_contained no
    rw [check]
    exact hcond.bind fun _ => hyes.bind fun _ => hno

theorem checkAll_contained : ∀ es : List Expr, Contained (checkAll s es)
  | [] => by
    rw [checkAll]
    exact refuses_ok
  | e :: es => by
    have he := check_contained e
    have hes := checkAll_contained es
    rw [checkAll]
    exact he.bind fun _ => hes

theorem checkEntries_contained : ∀ es : List (Expr × Expr), Contained (checkEntries s es)
  | [] => by
    rw [checkEntries]
    exact refuses_ok
  | (k, v) :: r => by
    have hk := check_contained k
    have hv := check_contained v
    have hr := checkEntries_contained r
    rw [checkEntries]
    exact hk.bind fun _ => hv.bind fun _ => hr

theorem checkFields_contained : ∀ fs : List (String × Expr), Contained (checkFields s fs)
  | [] => by
    rw [checkFields]
    exact refuses_ok
  | (_, v) :: r => by
    have hv := check_contained v
    have hr := checkFields_contained r
    rw [checkFields]
    exact hv.bind fun _ => hr

end

theorem resolve_contained (name : String) : Contained (resolve s act name) := by
  unfold resolve
  split
  · exact refuses_ok
  · split <;> exact refuses_error rfl

variable [MessageSystem]

theorem binary_contained {op : BinaryOp} {left right : Expr} (hleft : Contained (left.eval s act))
    (hright : Contained (right.eval s act)) : Contained ((Expr.binary op left right).eval s act) := by
  cases op with
  | and | or =>
    rw [eval]
    intro err he
    rcases Operators.logical_error he with he | he | rfl
    · exact hleft err he
    · exact hright err he
    · rfl
  | _ =>
    rw [eval]
    · exact hleft.bind fun l => hright.bind fun r => contained_of_plain (Operators.binary_plain _ _ _)
    all_goals rintro ⟨⟩

mutual

/-- No evaluation ends in an exception, whatever the expression is and whatever is declared or bound. -/
theorem eval_contained : ∀ e : Expr, Contained (e.eval s act)
  | .literal _ | .text _ => by
    rw [eval]
    exact refuses_ok
  | .ident name => by
    rw [eval]
    exact resolve_contained name
  | .select operand field => by
    have hoperand := eval_contained operand
    rw [eval]
    split
    · exact refuses_ok
    · exact hoperand.bind fun v => contained_of_plain (Operators.select_plain v field)
  | .index operand i => by
    have hoperand := eval_contained operand
    have hi := eval_contained i
    rw [eval]
    exact hoperand.bind fun v => hi.bind fun i => contained_of_plain (Operators.index_plain v i)
  | .call function args => by
    have hargs := evalAll_contained args 0
    rw [eval]
    exact hargs.bind fun vs => Functions.call_contained _ function vs
  | .methodCall target function args => by
    have htarget := eval_contained target
    have hargs := evalAll_contained args 1
    rw [eval]
    exact htarget.bind fun v => hargs.bind fun vs => Functions.call_contained _ function (v :: vs)
  | .list items => by
    have hitems := evalAll_contained items 0
    rw [eval]
    exact hitems.bind fun vs => refuses_ok
  | .map entries => by
    have hentries := evalEntries_contained entries 0
    rw [eval]
    exact hentries.bind fun es => contained_of_plain (buildMap_plain es)
  | .message name fields => by
    have hfields := evalFields_contained fields 0
    rw [eval]
    split
    · exact refuses_error rfl
    · exact hfields.bind fun fs => refuses_ok
  | .unary op operand => by
    have hoperand := eval_contained operand
    rw [eval]
    exact hoperand.bind fun v => contained_of_plain (Operators.unary_plain op v)
  | .binary op left right => binary_contained (eval_contained left) (eval_contained right)
  | .conditional cond yes no => by
    have hcond := eval_contained cond
    have hyes := eval_contained yes
    have hno := eval_contained no
    rw [eval]
    refine hcond.bind fun v => ?_
    split
    · exact hyes
    · exact hno
    · exact refuses_error rfl

theorem evalAll_contained : ∀ (es : List Expr) (i : Nat), Contained (evalAll s act i es)
  | [], i => by
    rw [evalAll]
    exact refuses_ok
  | e :: es, i => by
    have he := eval_contained e
    have hes := evalAll_contained es (i + 1)
    rw [evalAll]
    exact he.bind fun v => hes.bind fun vs => refuses_ok

theorem evalEntries_contained : ∀ (es : List (Expr × Expr)) (i : Nat), Contained (evalEntries s act i es)
  | [], i => by
    rw [evalEntries]
    exact refuses_ok
  | (k, e) :: r, i => by
    have hk := eval_contained k
    have he := eval_contained e
    have hr := evalEntries_contained r (i + 1)
    rw [evalEntries]
    exact hk.bind fun k => he.bind fun v => hr.bind fun vs => refuses_ok

theorem evalFields_contained : ∀ (fs : List (String × Expr)) (i : Nat), Contained (evalFields s act i fs)
  | [], i => by
    rw [evalFields]
    exact refuses_ok
  | (name, e) :: r, i => by
    have he := eval_contained e
    have hr := evalFields_contained r (i + 1)
    rw [evalFields]
    exact he.bind fun v => hr.bind fun vs => refuses_ok

end

end Expr

end CelSuite
