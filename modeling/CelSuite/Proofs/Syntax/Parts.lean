import CelSuite.Proofs.Lexing.Lexemes

/-! # The parts of an expression

An expression, the expressions in it, the ones in those, and so on. The literals among the parts of what a
text spells are scalars that are in their ranges. -/

namespace CelSuite

/-- A value that a literal can stand for. -/
def Value.IsLiteral : Value → Prop
  | .int n => Value.InIntRange n
  | .uint n => Value.InUintRange n
  | .double _ | .bytes _ | .bool _ | .null => True
  | _ => False

namespace Expr

mutual

/-- An expression and all the expressions in it. -/
def parts : Expr → List Expr
  | .literal v => [.literal v]
  | .text units => [.text units]
  | .ident name => [.ident name]
  | .select operand field => .select operand field :: operand.parts
  | .index operand i => .index operand i :: (operand.parts ++ i.parts)
  | .call function args => .call function args :: partsAll args
  | .methodCall target function args => .methodCall target function args :: (target.parts ++ partsAll args)
  | .list items => .list items :: partsAll items
  | .map entries => .map entries :: partsEntries entries
  | .message name fields => .message name fields :: partsFields fields
  | .unary op operand => .unary op operand :: operand.parts
  | .binary op left right => .binary op left right :: (left.parts ++ right.parts)
  | .conditional cond yes no => .conditional cond yes no :: (cond.parts ++ yes.parts ++ no.parts)

def partsAll : List Expr → List Expr
  | [] => []
  | e :: es => e.parts ++ partsAll es

def partsEntries : List (Expr × Expr) → List Expr
  | [] => []
  | (k, v) :: r => k.parts ++ v.parts ++ partsEntries r

def partsFields : List (String × Expr) → List Expr
  | [] => []
  | (_, v) :: r => v.parts ++ partsFields r

end

theorem self_mem_parts (e : Expr) : e ∈ e.parts := by
  cases e <;> simp [parts]

end Expr

namespace Grammar

/-- The parts of what words of a form spell. -/
def treeParts : {s : Sym} → s.Tree → List Expr
  | .phrase _, e => e.parts
  | .item .value, e => e.parts
  | .item .entry, (k, v) => k.parts ++ v.parts
  | .item .field, (_, v) => v.parts
  | .items .value _, es => Expr.partsAll es
  | .items .entry _, es => Expr.partsEntries es
  | .items .field _, es => Expr.partsFields es

theorem treeParts_items_nil {i : Item} {c : String} : @treeParts (.items i c) [] = [] := by
  cases i <;> rfl

theorem treeParts_items_cons {i : Item} {c : String} (a : i.Tree) (as : List i.Tree) :
    @treeParts (.items i c) (a :: as) = @treeParts (.item i) a ++ @treeParts (.items i c) as := by
  cases i <;> rfl

theorem Literal.isLiteral {negative : Bool} {w : Word} {e : Expr} (h : Literal negative w e) :
    ∀ v, Expr.literal v ∈ e.parts → v.IsLiteral := by
  intro v hmem
  cases h with
  | int _ range =>
    cases List.mem_singleton.mp hmem
    exact range
  | uint _ _ range =>
    cases List.mem_singleton.mp hmem
    exact range
  | double | bytes =>
    cases List.mem_singleton.mp hmem
    trivial
  | string => cases List.mem_singleton.mp hmem

/-- The literals that words spell are scalars in their ranges. -/
theorem Derives.isLiteral {s : Sym} {ws : List Word} {a : s.Tree} (h : Derives s ws a) :
    ∀ v, Expr.literal v ∈ treeParts a → v.IsLiteral := by
  induction h with
  | literal he | negative _ he => exact he.isLiteral
  | true | false | null =>
    intro v hmem
    simp only [treeParts, Expr.parts, List.mem_singleton, Expr.literal.injEq] at hmem
    exact hmem ▸ trivial
  | name _ => simp [treeParts, Expr.parts]
  | close =>
    intro v hmem
    rw [treeParts_items_nil] at hmem
    cases hmem
  | last _ ih =>
    intro v hmem
    rw [treeParts_items_cons, treeParts_items_nil, List.append_nil] at hmem
    exact ih v hmem
  | more _ _ ih ihs =>
    intro v hmem
    rw [treeParts_items_cons] at hmem
    exact (List.mem_append.mp hmem).elim (ih v) (ihs v)
  | _ => simp_all [treeParts, Expr.parts, or_imp]

end Grammar

/-- The literals of an expression that a text spells are scalars in their ranges. -/
theorem Evaluator.isLiteral_of_parse {text : String} {e : Expr} (h : parse text = .ok e) {v : Value}
    (hv : .literal v ∈ e.parts) : v.IsLiteral := by
  obtain ⟨ls, -, hd⟩ := parse_ok_iff_lexes.mp h
  exact hd.isLiteral v hv

end CelSuite
