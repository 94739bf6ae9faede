import CelSuite.Expr.Basic
import CelSuite.Expr.Scope
import CelSuite.Text.Units
import CelSuite.Value.Map
import CelSuite.Value.Message

/-! # Operators

Arithmetic, order, membership, selection and indexing on values. Integer arithmetic is exact and fails
when the result leaves the range; a pair of values that an operator does not cover is an error, also an
int with a uint. -/

namespace CelSuite.Operators

/-- An int, or overflow. -/
def checkedInt (n : Int) : Except EvalError Value :=
  Exception.catching .rangeError (fun _ => .overflow) .exception ((Value.ofInt n).mapError .value)

/-- A uint, or overflow. -/
def checkedUint (n : Int) : Except EvalError Value :=
  Exception.catching .rangeError (fun _ => .overflow) .exception ((Value.ofUint n).mapError .value)

theorem checkedInt_eq (n : Int) :
    checkedInt n = if Value.InIntRange n then .ok (.int n) else .error .overflow := by
  unfold checkedInt Value.ofInt
  split <;> rfl

theorem checkedUint_eq (n : Int) :
    checkedUint n = if Value.InUintRange n then .ok (.uint n.toNat) else .error .overflow := by
  unfold checkedUint Value.ofUint
  split <;> rfl

def unary : UnaryOp → Value → Except EvalError Value
  | .not, .bool b => .ok (.bool !b)
  | .minus, .int n => checkedInt (-n)
  | .minus, .double x => .ok (.double x.neg)
  | .minus, .duration n => .ok (.duration (-n))
  | _, _ => .error .noSuchOverload

/-- The arithmetic operators. -/
inductive Arith where
  | add
  | sub
  | mul
  | div
  | mod
  deriving DecidableEq

/-- Exact integer arithmetic. A quotient is truncated toward zero and a remainder has the sign of the
    dividend. -/
def integer : Arith → Int → Int → Except EvalError Int
  | .add, a, b => .ok (a + b)
  | .sub, a, b => .ok (a - b)
  | .mul, a, b => .ok (a * b)
  | .div, a, b =>
    if b = 0 then .error .divisionByZero else (Integer.quotient a b).mapError .exception
  | .mod, a, b =>
    if b = 0 then .error .modulusByZero else (Integer.remainder a b).mapError .exception

/-- A divisor that is not zero throws nothing. -/
theorem integer_div (a b : Int) :
    integer .div a b = if b = 0 then .error .divisionByZero else .ok (a.tdiv b) := by
  by_cases h : b = 0
  · rw [integer, if_pos h, if_pos h]
  · rw [integer, if_neg h, if_neg h, Integer.quotient_of_ne h]
    rfl

theorem integer_mod (a b : Int) :
    integer .mod a b = if b = 0 then .error .modulusByZero else .ok (a.tmod b) := by
  by_cases h : b = 0
  · rw [integer, if_pos h, if_pos h]
  · rw [integer, if_neg h, if_neg h, Integer.remainder_of_ne h]
    rfl

/-- Arithmetic on doubles; there is no remainder. -/
def floating : Arith → Double → Double → Except EvalError Value
  | .add, a, b => .ok (.double (a.add b))
  | .sub, a, b => .ok (.double (a.sub b))
  | .mul, a, b => .ok (.double (a.mul b))
  | .div, a, b => .ok (.double (a.div b))
  | .mod, _, _ => .error .noSuchOverload

/-- Arithmetic on values. Texts, bytes and lists can be joined, durations added and subtracted. -/
def arithmetic (op : Arith) : Value → Value → Except EvalError Value
  | .int a, .int b => do checkedInt (← integer op a b)
  | .uint a, .uint b => do checkedUint (← integer op a b)
  | .double a, .double b => floating op a b
  | .string a, .string b => if op = .add then .ok (.string (a ++ b)) else .error .noSuchOverload
  | .bytes a, .bytes b => if op = .add then .ok (.bytes (a ++ b)) else .error .noSuchOverload
  | .list a, .list b => if op = .add then .ok (.list (a ++ b)) else .error .noSuchOverload
  | .duration a, .duration b =>
    match op with
    | .add => .ok (.duration (a + b))
    | .sub => .ok (.duration (a - b))
    | _ => .error .noSuchOverload
  | _, _ => .error .noSuchOverload

/-- How two numbers compare; with a NaN they compare as equal. -/
def compareDouble (a b : Double) : Ordering :=
  if a.less b then .lt else if b.less a then .gt else .eq

/-- How two texts compare, by units. -/
def compareText (a b : String) : Ordering :=
  if Text.before a b then .lt else if Text.before b a then .gt else .eq

/-- How two values of one comparable kind compare. -/
def compare : Value → Value → Except EvalError Ordering
  | .int a, .int b => .ok (Ord.compare a b)
  | .uint a, .uint b => .ok (Ord.compare a b)
  | .double a, .double b => .ok (compareDouble a b)
  | .string a, .string b => .ok (compareText a b)
  | .bool a, .bool b => .ok (Ord.compare a.toNat b.toNat)
  | .duration a, .duration b => .ok (Ord.compare a b)
  | _, _ => .error .noSuchOverload

/-- Whether a list has an item equal to a value, or a map has the value as a key. -/
def contains : Value → Value → Except EvalError Value
  | .list items, v => .ok (.bool (items.any fun item => item.equal v))
  | .map entries, k => .ok (.bool (Value.lookup entries k).isSome)
  | _, _ => .error .noSuchOverload

/-- The binary operators that take the values of both operands. -/
def binary (op : BinaryOp) (l r : Value) : Except EvalError Value :=
  match op with
  | .equal => .ok (.bool (l.equal r))
  | .notEqual => .ok (.bool !(l.equal r))
  | .less => (compare l r).map fun o => .bool o.isLT
  | .lessEqual => (compare l r).map fun o => .bool o.isLE
  | .greater => (compare l r).map fun o => .bool o.isGT
  | .greaterEqual => (compare l r).map fun o => .bool o.isGE
  | .member => contains r l
  | .add => arithmetic .add l r
  | .sub => arithmetic .sub l r
  | .mul => arithmetic .mul l r
  | .div => arithmetic .div l r
  | .mod => arithmetic .mod l r
  | .and | .or => .error .noSuchOverload

/-- The field of a map or a message. A message that a field holds by default is a new instance. -/
def select [MessageSystem] (v : Value) (field : String) : Except EvalError Value :=
  match v with
  | .map entries =>
    match Value.lookup entries (.string field) with
    | some v => .ok v
    | none => .error (.noSuchKeyNamed field)
  | .message _ _ _ =>
    match MessageSystem.field? (.made []) v field with
    | some v => .ok v
    | none => .error (.noSuchField field)
  | _ => .error .noSuchOverload

/-- The item of a list at an int, or the value of a key of a map. -/
def index : Value → Value → Except EvalError Value
  | .list items, .int i =>
    match if 0 ≤ i then items[i.toNat]? else none with
    | some v => .ok v
    | none => .error (.indexOutOfRange i)
  | .list _, _ => .error .noSuchOverload
  | .map entries, k =>
    match Value.lookup entries k with
    | some v => .ok v
    | none => .error .noSuchKey
  | _, _ => .error .noSuchOverload

/-- Whether an operand gave a certain bool. -/
def gave (b : Bool) : Except EvalError Value → Bool
  | .ok (.bool a) => a == b
  | _ => false

/-- What an operand gave, a value or an evaluation error; an exception goes on. -/
def attempt : Except EvalError Value → Except Exception (Except EvalError Value)
  | .error (.exception x) => .error x
  | r => .ok r

/-- The value of `&&` (`decisive` is false) or `||` (`decisive` is true) from what both operands gave.
    An operand that decides makes an error on the other side irrelevant; otherwise the left error wins.
    The right operand does not count once the left one has decided. -/
def logical (decisive : Bool) (l r : Except EvalError Value) : Except EvalError Value := do
  let l ← (attempt l).mapError .exception
  if gave decisive l then return .bool decisive
  let r ← (attempt r).mapError .exception
  if gave decisive r then return .bool decisive
  match ← l, ← r with
  | .bool _, .bool _ => return .bool !decisive
  | _, _ => .error .noSuchOverload

end CelSuite.Operators
