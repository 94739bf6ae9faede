import CelSuite.Expr.Functions

/-! # Evaluation

The value of an expression in a scope and an activation. Operands are evaluated from left to right and
the first error ends the evaluation, except under `&&` and `||`, where an operand that decides makes an
error on the other side irrelevant. A dotted name that is bound as a whole stands for its binding. A
parent sees what its operands made under their places (`Value.under`), so no two nodes make one
instance. -/

namespace CelSuite.Expr

/-- The value of an identifier. -/
def resolve (s : Scope) (act : Activation) (name : String) : Except EvalError Value :=
  match act.resolve? name with
  | some v => .ok v
  | none => if s.declares name then .error .unknownVariable else .error (.undeclared name s.container)

/-- The map of evaluated entries. -/
def buildMap (entries : List (Value × Value)) : Except EvalError Value :=
  Exception.catching .typeError .caught .exception ((Value.ofEntries entries).mapError .value)

mutual

/-- The value of an expression. -/
def eval [MessageSystem] (s : Scope) (act : Activation) : Expr → Except EvalError Value
  | .literal v => .ok v
  | .text units => .ok (.string (Text.ofUnits units))
  | .ident name => resolve s act name
  | .select operand field =>
    match (Expr.select operand field).qualifiedName?.bind act.resolve? with
    | some v => .ok v
    | none => do Operators.select (← eval s act operand) field
  | .index operand i => do
    let v ← eval s act operand
    let i ← eval s act i
    Operators.index v i
  | .call function args => do Functions.call s.container function (← evalAll s act 0 args)
  | .methodCall target function args => do
    let v ← eval s act target
    let vs ← evalAll s act 1 args
    Functions.call s.container function (v :: vs)
  | .list items => do return .list (← evalAll s act 0 items)
  | .map entries => do buildMap (← evalEntries s act 0 entries)
  | .message name fields =>
    match s.messageType? name with
    | none => .error (.undeclared name s.container)
    | some t => do return MessageSystem.create t (.made []) (Assoc.putAll [] (← evalFields s act 0 fields))
  | .unary op operand => do Operators.unary op (← eval s act operand)
  | .binary .and left right => Operators.logical false (eval s act left) (eval s act right)
  | .binary .or left right => Operators.logical true (eval s act left) (eval s act right)
  | .binary op left right => do
    let l ← eval s act left
    let r ← eval s act right
    Operators.binary op (l.under 0) (r.under 1)
  | .conditional cond yes no => do
    match ← eval s act cond with
    | .bool true => eval s act yes
    | .bool false => eval s act no
    | _ => .error .noSuchOverload

/-- The values of expressions, from left to right; the first stands at place `i`. -/
def evalAll [MessageSystem] (s : Scope) (act : Activation) (i : Nat) :
    List Expr → Except EvalError (List Value)
  | [] => .ok []
  | e :: es => do
    let v ← eval s act e
    let vs ← evalAll s act (i + 1) es
    return v.under i :: vs

def evalEntries [MessageSystem] (s : Scope) (act : Activation) (i : Nat) :
    List (Expr × Expr) → Except EvalError (List (Value × Value))
  | [] => .ok []
  | (k, e) :: r => do
    let k ← eval s act k
    let v ← eval s act e
    let vs ← evalEntries s act (i + 1) r
    return (k, v.under i) :: vs

def evalFields [MessageSystem] (s : Scope) (act : Activation) (i : Nat) :
    List (String × Expr) → Except EvalError (List (String × Value))
  | [] => .ok []
  | (name, e) :: r => do
    let v ← eval s act e
    let vs ← evalFields s act (i + 1) r
    return (name, v.under i) :: vs

end

end CelSuite.Expr
