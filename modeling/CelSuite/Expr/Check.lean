import CelSuite.Expr.Scope

/-! # The static check

Rejects the first name, in the order of evaluation, that the scope does not know: a variable, a function
or a message type. A chain of selections is fine as soon as one of its dotted names is known. -/

namespace CelSuite.Expr

mutual

/-- The first name of an expression that the scope does not know is an error. -/
def check (s : Scope) : Expr → Except EvalError Unit
  | .literal _ | .text _ => .ok ()
  | .ident name => if s.knows name then .ok () else .error (.undeclared name s.container)
  | .select operand field =>
    match (Expr.select operand field).qualifiedName? with
    | some name => if s.knows name then .ok () else check s operand
    | none => check s operand
  | .index operand i => do check s operand; check s i
  | .call function args =>
    if functionNames.contains function then checkAll s args
    else .error (.undeclared function s.container)
  | .methodCall target function args =>
    if functionNames.contains function then do check s target; checkAll s args
    else .error (.undeclared function s.container)
  | .list items => checkAll s items
  | .map entries => checkEntries s entries
  | .message name fields =>
    match s.messageType? name with
    | some _ => checkFields s fields
    | none => .error (.undeclared name s.container)
  | .unary _ operand => check s operand
  | .binary _ left right => do check s left; check s right
  | .conditional cond yes no => do check s cond; check s yes; check s no

/-- Checks expressions in turn. -/
def checkAll (s : Scope) : List Expr → Except EvalError Unit
  | [] => .ok ()
  | e :: es => do check s e; checkAll s es

/-- Checks each key and then its value. -/
def checkEntries (s : Scope) : List (Expr × Expr) → Except EvalError Unit
  | [] => .ok ()
  | (k, v) :: r => do check s k; check s v; checkEntries s r

/-- Checks the value of each field. -/
def checkFields (s : Scope) : List (String × Expr) → Except EvalError Unit
  | [] => .ok ()
  | (_, v) :: r => do check s v; checkFields s r

end

end CelSuite.Expr
