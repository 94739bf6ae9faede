import CelSuite.Expr.Literal

/-! # The parser

Builds the tree of a sequence of tokens that an end mark closes. The levels from the conditional down to
primaries are plain definitions over `expr`, the parser of a whole expression inside brackets; each use
of `expr` comes after a token of its own, so as many nested uses as there are tokens are enough and
`expression` ties the knot with that bound. A loop takes a token in every turn and has one turn more than
there are tokens left. A bound that is used up is the exception `exhausted` and no syntax error. -/

namespace CelSuite.Parser

/-- A parser takes tokens from the front and returns the rest. -/
abbrev Parse (α : Type) := List Token → Except SyntaxError (α × List Token)

/-- The rest after a given operator, if it is the next token. -/
def accept? (text : String) : List Token → Option (List Token)
  | t :: ts => if t.isOp text then some ts else none
  | [] => none

/-- The rest after a given operator, which has to be the next token. -/
def expect (text : String) : List Token → Except SyntaxError (List Token)
  | t :: ts => if t.isOp text then .ok ts else .error (.expected text t)
  | [] => .error .empty

/-- An identifier. -/
def identifier : Parse String
  | t :: ts => if t.kind = .ident then .ok (t.text, ts) else .error (.expectedIdentifier t)
  | [] => .error .empty

/-- Items separated by commas up to a closing operator, which may follow a comma; fewer than `n` items. -/
def items {α : Type} (item : Parse α) (close : String) : Nat → Parse (List α)
  | 0, _ => .error (.exception .exhausted)
  | n + 1, ts =>
    match accept? close ts with
    | some ts => .ok ([], ts)
    | none => do
      let (a, ts) ← item ts
      match accept? "," ts with
      | some ts => do
        let (as, ts) ← items item close n ts
        return (a :: as, ts)
      | none => do
        let ts ← expect close ts
        return ([a], ts)

/-- Items separated by commas up to a closing operator. -/
def commaList {α : Type} (item : Parse α) (close : String) : Parse (List α) := fun ts =>
  items item close (ts.length + 1) ts

/-- A key and a value with a colon between them. -/
def mapEntry (expr : Parse Expr) : Parse (Expr × Expr) := fun ts => do
  let (k, ts) ← expr ts
  let ts ← expect ":" ts
  let (v, ts) ← expr ts
  return ((k, v), ts)

/-- A field name and a value with a colon between them. -/
def fieldInit (expr : Parse Expr) : Parse (String × Expr) := fun ts => do
  let (name, ts) ← identifier ts
  let ts ← expect ":" ts
  let (v, ts) ← expr ts
  return ((name, v), ts)

/-- The value of a literal identifier. -/
def keyword? (name : String) : Option Value :=
  if name = "true" then some (.bool true)
  else if name = "false" then some (.bool false)
  else if name = "null" then some .null
  else none

/-- A literal, a name, a call, or an expression, list or map in brackets. -/
def primary (expr : Parse Expr) : Parse Expr
  | [] => .error .empty
  | t :: ts =>
    match t.kind with
    | .int | .uint | .double => do return (.literal (← Literal.number t false), ts)
    | .string => do return (.text (← Literal.string t.text), ts)
    | .bytes => do return (.literal (← Literal.bytes t.text), ts)
    | .ident =>
      match keyword? t.text with
      | some v => .ok (.literal v, ts)
      | none =>
        match accept? "(" ts with
        | some ts => do
          let (args, ts) ← commaList expr ")" ts
          return (.call t.text args, ts)
        | none => .ok (.ident t.text, ts)
    | .op =>
      if t.text = "(" then do
        let (e, ts) ← expr ts
        let ts ← expect ")" ts
        return (e, ts)
      else if t.text = "[" then do
        let (es, ts) ← commaList expr "]" ts
        return (.list es, ts)
      else if t.text = "\x7b" then do
        let (es, ts) ← commaList (mapEntry expr) "\x7d" ts
        return (.map es, ts)
      else .error (.unexpected t)
    | .eof => .error (.unexpected t)

/-- The tree `e` with one selection, call, index or message body after it, if one follows. A message
    body follows dotted names only. -/
def suffix? (expr : Parse Expr) (e : Expr) (ts : List Token) :
    Except SyntaxError (Option (Expr × List Token)) :=
  match accept? "." ts with
  | some ts => do
    let (field, ts) ← identifier ts
    match accept? "(" ts with
    | some ts => do
      let (args, ts) ← commaList expr ")" ts
      return some (.methodCall e field args, ts)
    | none => return some (.select e field, ts)
  | none =>
    match accept? "[" ts with
    | some ts => do
      let (i, ts) ← expr ts
      let ts ← expect "]" ts
      return some (.index e i, ts)
    | none =>
      match accept? "\x7b" ts, e.qualifiedName? with
      | some ts, some name => do
        let (fields, ts) ← commaList (fieldInit expr) "\x7d" ts
        return some (.message name fields, ts)
      | _, _ => return none

/-- The tree `e` with all that follows it, fewer than `n` times. -/
def suffixes (expr : Parse Expr) : Nat → Expr → Parse Expr
  | 0, _, _ => .error (.exception .exhausted)
  | n + 1, e, ts => do
    match ← suffix? expr e ts with
    | some (e, ts) => suffixes expr n e ts
    | none => return (e, ts)

/-- The tree `e` with all that follows it. -/
def member (expr : Parse Expr) (e : Expr) : Parse Expr := fun ts =>
  suffixes expr (ts.length + 1) e ts

/-- An operand with any number of `!` and `-` before it. A minus before an integer or a double belongs to
    the literal, since the least integer is in range only with its sign. -/
def unary (expr : Parse Expr) : Parse Expr
  | [] => .error .empty
  | t :: ts =>
    if t.isOp "!" then do
      let (e, ts) ← unary expr ts
      return (.unary .not e, ts)
    else if t.isOp "-" then
      match ts with
      | n :: rest =>
        if n.kind = .int ∨ n.kind = .double then do
          let v ← Literal.number n true
          member expr (.literal v) rest
        else do
          let (e, ts) ← unary expr (n :: rest)
          return (.unary .minus e, ts)
      | [] => .error .empty
    else do
      let (e, ts) ← primary expr (t :: ts)
      member expr e ts

/-- The tree `left` with operators of one level and their operands after it, grouped to the left, fewer
    than `n` times. -/
def chainFrom (op? : Token → Option BinaryOp) (operand : Parse Expr) : Nat → Expr → Parse Expr
  | 0, _, _ => .error (.exception .exhausted)
  | _ + 1, left, [] => .ok (left, [])
  | n + 1, left, t :: ts =>
    match op? t with
    | some op => do
      let (right, ts) ← operand ts
      chainFrom op? operand n (.binary op left right) ts
    | none => .ok (left, t :: ts)

/-- Operands of one level joined by its operators, grouped to the left. -/
def chain (op? : Token → Option BinaryOp) (operand : Parse Expr) : Parse Expr := fun ts => do
  let (left, ts) ← operand ts
  chainFrom op? operand (ts.length + 1) left ts

def mulOp? (t : Token) : Option BinaryOp :=
  if t.isOp "*" then some .mul else if t.isOp "/" then some .div else if t.isOp "%" then some .mod
  else none

def addOp? (t : Token) : Option BinaryOp :=
  if t.isOp "+" then some .add else if t.isOp "-" then some .sub else none

/-- The relations; membership is a word. -/
def relOp? (t : Token) : Option BinaryOp :=
  if t.isOp "==" then some .equal
  else if t.isOp "!=" then some .notEqual
  else if t.isOp "<" then some .less
  else if t.isOp "<=" then some .lessEqual
  else if t.isOp ">" then some .greater
  else if t.isOp ">=" then some .greaterEqual
  else if t.kind = .ident ∧ t.text = "in" then some .member
  else none

def andOp? (t : Token) : Option BinaryOp :=
  if t.isOp "&&" then some .and else none

def orOp? (t : Token) : Option BinaryOp :=
  if t.isOp "||" then some .or else none

/-- Products, quotients and remainders. -/
def multiplication (expr : Parse Expr) : Parse Expr := chain mulOp? (unary expr)

/-- Sums and differences. -/
def addition (expr : Parse Expr) : Parse Expr := chain addOp? (multiplication expr)

/-- Comparisons and membership. -/
def relation (expr : Parse Expr) : Parse Expr := chain relOp? (addition expr)

/-- Operands joined by `&&`. -/
def conjunction (expr : Parse Expr) : Parse Expr := chain andOp? (relation expr)

/-- Operands joined by `||`. -/
def disjunction (expr : Parse Expr) : Parse Expr := chain orOp? (conjunction expr)

/-- A disjunction, or a conditional whose last branch is a whole expression. -/
def conditional (expr : Parse Expr) : Parse Expr := fun ts => do
  let (cond, ts) ← disjunction expr ts
  match accept? "?" ts with
  | none => return (cond, ts)
  | some ts => do
    let (yes, ts) ← disjunction expr ts
    let ts ← expect ":" ts
    let (no, ts) ← expr ts
    return (.conditional cond yes no, ts)

/-- An expression with at most `n` expressions nested in one another. -/
def expression : Nat → Parse Expr
  | 0, _ => .error (.exception .exhausted)
  | n + 1, ts => conditional (expression n) ts

/-- The tree of a sequence of tokens. -/
def parse (ts : List Token) : Except SyntaxError Expr := do
  let (e, rest) ← expression (ts.length + 1) ts
  match rest with
  | [] => .error .empty
  | t :: _ => if t.kind = .eof then return e else .error (.trailing t)

end CelSuite.Parser
