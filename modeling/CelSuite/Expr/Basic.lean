import CelSuite.Value.Basic

/-! # Expressions

The syntax trees of expressions. A call on a target and a call without one are different trees, although
both pass the target as the first argument. -/

namespace CelSuite

/-- The operators with one operand. -/
inductive UnaryOp where
  | not
  | minus
  deriving DecidableEq

/-- The operators with two operands. -/
inductive BinaryOp where
  | and
  | or
  | equal
  | notEqual
  | less
  | lessEqual
  | greater
  | greaterEqual
  | member
  | add
  | sub
  | mul
  | div
  | mod
  deriving DecidableEq

/-- A syntax tree. A string literal is kept by its units, since an escape may write half a character;
    entries and fields stand in the order in which they are written. -/
inductive Expr where
  | literal (v : Value)
  | text (units : List Nat)
  | ident (name : String)
  | select (operand : Expr) (field : String)
  | index (operand i : Expr)
  | call (function : String) (args : List Expr)
  | methodCall (target : Expr) (function : String) (args : List Expr)
  | list (items : List Expr)
  | map (entries : List (Expr × Expr))
  | message (name : String) (fields : List (String × Expr))
  | unary (op : UnaryOp) (operand : Expr)
  | binary (op : BinaryOp) (left right : Expr)
  | conditional (cond yes no : Expr)
  deriving Inhabited

/-- The dotted name that an identifier or a chain of selections from one spells. -/
def Expr.qualifiedName? : Expr → Option String
  | .ident name => some name
  | .select operand field => operand.qualifiedName?.map (· ++ "." ++ field)
  | _ => none

end CelSuite
