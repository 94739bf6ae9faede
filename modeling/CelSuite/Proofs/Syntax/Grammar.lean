import CelSuite.Expr.Parser

/-! # The grammar of expressions

Which sequences of words spell which tree, as rules. A phrase is an expression, an operand of one of the
five levels of binary operators, or one of the three forms without a binary operator outside brackets; an
item stands in a comma list. Binary operators and suffixes group to the left, and a comma may stand before
the closing bracket. The rules read no position: a word is a token without it. -/

namespace CelSuite

/-- A token without its position. -/
structure Word where
  kind : TokenKind
  text : String
  deriving DecidableEq

def Token.word (t : Token) : Word := ⟨t.kind, t.text⟩

namespace Grammar

/-- An operator or a bracket. -/
def op (text : String) : Word := ⟨.op, text⟩

/-- An identifier. -/
def ident (name : String) : Word := ⟨.ident, name⟩

/-- The valid literals and their trees. An integer is a text that is read as an integer, with its sign, and is in its
    range; a double is any text, as a number with its sign; in a string or bytes all escapes are in order. -/
inductive Literal (negative : Bool) : Word → Expr → Prop where
  | int {text : String} {n : Int} (reads : Decimal.integer? (Literal.signed negative text) = some n)
      (range : Value.InIntRange n) : Literal negative ⟨.int, text⟩ (.literal (.int n))
  | uint {text : String} {n : Nat} (positive : negative = false) (reads : Decimal.integer? text = some (n : Int))
      (range : Value.InUintRange n) : Literal negative ⟨.uint, text⟩ (.literal (.uint n))
  | double {text : String} :
      Literal negative ⟨.double, text⟩ (.literal (.double (Decimal.number (Literal.signed negative text))))
  | string {text : String} {ns : List Nat} (positive : negative = false)
      (escapes : Literal.codePoints text.toList = .ok ns) :
      Literal negative ⟨.string, text⟩ (.text (ns.flatMap Text.unitsOfCodePoint))
  | bytes {text : String} {bs : List UInt8} (positive : negative = false)
      (escapes : Text.decodeBytes text.toList = .ok bs) :
      Literal negative ⟨.bytes, text⟩ (.literal (.bytes bs))

theorem Literal.string_ofList {body : List Char} {ns : List Nat} (h : Literal.codePoints body = .ok ns) :
    Literal false ⟨.string, String.ofList body⟩ (.text (ns.flatMap Text.unitsOfCodePoint)) := by
  refine .string rfl ?_
  rw [String.toList_ofList]
  exact h

theorem Literal.bytes_ofList {body : List Char} {bs : List UInt8} (h : Text.decodeBytes body = .ok bs) :
    Literal false ⟨.bytes, String.ofList body⟩ (.literal (.bytes bs)) := by
  refine .bytes rfl ?_
  rw [String.toList_ofList]
  exact h

/-- The levels of the binary operators, the loosest first. -/
inductive Level where
  | or
  | and
  | relation
  | sum
  | product
  deriving DecidableEq

/-- The operators of a level. Membership is an identifier. -/
def Level.operators : Level → List (Word × BinaryOp)
  | .or => [(op "||", .or)]
  | .and => [(op "&&", .and)]
  | .relation => [(op "==", .equal), (op "!=", .notEqual), (op "<", .less), (op "<=", .lessEqual),
      (op ">", .greater), (op ">=", .greaterEqual), (ident "in", .member)]
  | .sum => [(op "+", .add), (op "-", .sub)]
  | .product => [(op "*", .mul), (op "/", .div), (op "%", .mod)]

/-- The forms of a phrase, each inside the one before it. -/
inductive Phrase where
  | expr
  | chain (l : Level)
  | unary
  | member
  | primary
  deriving DecidableEq

/-- The operands that the operators of a level join. -/
def Level.operand : Level → Phrase
  | .or => .chain .and
  | .and => .chain .relation
  | .relation => .chain .sum
  | .sum => .chain .product
  | .product => .unary

/-- The items of comma lists: arguments, entries of a map, fields of a message. -/
inductive Item where
  | value
  | entry
  | field
  deriving DecidableEq

/-- What an item spells. -/
abbrev Item.Tree : Item → Type
  | .value => Expr
  | .entry => Expr × Expr
  | .field => String × Expr

/-- What the rules are about: a phrase, an item, or items up to a closing bracket. -/
inductive Sym where
  | phrase (p : Phrase)
  | item (i : Item)
  | items (i : Item) (close : String)

/-- What words of a form spell. -/
abbrev Sym.Tree : Sym → Type
  | .phrase _ => Expr
  | .item i => i.Tree
  | .items i _ => List i.Tree

/-- The rules. -/
inductive Derives : (s : Sym) → List Word → s.Tree → Prop where
  | disjunction {ws : List Word} {e : Expr} (h : Derives (.phrase (.chain .or)) ws e) :
      Derives (.phrase .expr) ws e
  | conditional {cs ys ns : List Word} {c y n : Expr} (hc : Derives (.phrase (.chain .or)) cs c)
      (hy : Derives (.phrase (.chain .or)) ys y) (hn : Derives (.phrase .expr) ns n) :
      Derives (.phrase .expr) (cs ++ op "?" :: (ys ++ op ":" :: ns)) (.conditional c y n)
  | operand {l : Level} {ws : List Word} {e : Expr} (h : Derives (.phrase l.operand) ws e) :
      Derives (.phrase (.chain l)) ws e
  | binary {l : Level} {w : Word} {o : BinaryOp} {ls rs : List Word} {a b : Expr}
      (hl : Derives (.phrase (.chain l)) ls a) (ho : (w, o) ∈ l.operators)
      (hr : Derives (.phrase l.operand) rs b) :
      Derives (.phrase (.chain l)) (ls ++ w :: rs) (.binary o a b)
  | not {ws : List Word} {e : Expr} (h : Derives (.phrase .unary) ws e) :
      Derives (.phrase .unary) (op "!" :: ws) (.unary .not e)
  | minus {w : Word} {ws : List Word} {e : Expr} (hw : w.kind ≠ .int ∧ w.kind ≠ .double)
      (h : Derives (.phrase .unary) (w :: ws) e) :
      Derives (.phrase .unary) (op "-" :: w :: ws) (.unary .minus e)
  | member {ws : List Word} {e : Expr} (h : Derives (.phrase .member) ws e) :
      Derives (.phrase .unary) ws e
  | negative {w : Word} {e : Expr} (hw : w.kind = .int ∨ w.kind = .double) (he : Literal true w e) :
      Derives (.phrase .member) [op "-", w] e
  | primary {ws : List Word} {e : Expr} (h : Derives (.phrase .primary) ws e) :
      Derives (.phrase .member) ws e
  | select {ws : List Word} {e : Expr} {field : String} (h : Derives (.phrase .member) ws e) :
      Derives (.phrase .member) (ws ++ [op ".", ident field]) (.select e field)
  | method {ws us : List Word} {e : Expr} {name : String} {args : List Expr}
      (h : Derives (.phrase .member) ws e) (ha : Derives (.items .value ")") us args) :
      Derives (.phrase .member) (ws ++ op "." :: ident name :: op "(" :: us) (.methodCall e name args)
  | index {ws us : List Word} {e i : Expr} (h : Derives (.phrase .member) ws e)
      (hi : Derives (.phrase .expr) us i) :
      Derives (.phrase .member) (ws ++ op "[" :: (us ++ [op "]"])) (.index e i)
  | message {ws us : List Word} {e : Expr} {name : String} {fields : List (String × Expr)}
      (h : Derives (.phrase .member) ws e) (hn : e.qualifiedName? = some name)
      (hf : Derives (.items .field "\x7d") us fields) :
      Derives (.phrase .member) (ws ++ op "\x7b" :: us) (.message name fields)
  | literal {w : Word} {e : Expr} (h : Literal false w e) : Derives (.phrase .primary) [w] e
  | true : Derives (.phrase .primary) [ident "true"] (.literal (.bool true))
  | false : Derives (.phrase .primary) [ident "false"] (.literal (.bool false))
  | null : Derives (.phrase .primary) [ident "null"] (.literal .null)
  | name {name : String} (h : name ≠ "true" ∧ name ≠ "false" ∧ name ≠ "null") :
      Derives (.phrase .primary) [ident name] (.ident name)
  | call {name : String} {us : List Word} {args : List Expr}
      (h : name ≠ "true" ∧ name ≠ "false" ∧ name ≠ "null") (ha : Derives (.items .value ")") us args) :
      Derives (.phrase .primary) (ident name :: op "(" :: us) (.call name args)
  | group {ws : List Word} {e : Expr} (h : Derives (.phrase .expr) ws e) :
      Derives (.phrase .primary) (op "(" :: (ws ++ [op ")"])) e
  | list {us : List Word} {items : List Expr} (h : Derives (.items .value "]") us items) :
      Derives (.phrase .primary) (op "[" :: us) (.list items)
  | map {us : List Word} {entries : List (Expr × Expr)} (h : Derives (.items .entry "\x7d") us entries) :
      Derives (.phrase .primary) (op "\x7b" :: us) (.map entries)
  | value {ws : List Word} {e : Expr} (h : Derives (.phrase .expr) ws e) : Derives (.item .value) ws e
  | entry {ks vs : List Word} {k v : Expr} (hk : Derives (.phrase .expr) ks k)
      (hv : Derives (.phrase .expr) vs v) : Derives (.item .entry) (ks ++ op ":" :: vs) (k, v)
  | field {name : String} {vs : List Word} {v : Expr} (hv : Derives (.phrase .expr) vs v) :
      Derives (.item .field) (ident name :: op ":" :: vs) (name, v)
  | close {i : Item} {c : String} : Derives (.items i c) [op c] []
  | last {i : Item} {c : String} {ws : List Word} {a : i.Tree} (h : Derives (.item i) ws a) :
      Derives (.items i c) (ws ++ [op c]) [a]
  | more {i : Item} {c : String} {ws us : List Word} {a : i.Tree} {as : List i.Tree}
      (h : Derives (.item i) ws a) (hs : Derives (.items i c) us as) :
      Derives (.items i c) (ws ++ op "," :: us) (a :: as)

theorem Derives.ne_nil {s : Sym} {ws : List Word} {a : s.Tree} (h : Derives s ws a) : ws ≠ [] := by
  induction h with
  | disjunction _ ih | operand _ ih | member _ ih | primary _ ih | value _ ih => exact ih
  | _ => simp

/-- An operand is an expression. -/
theorem Derives.of_unary {ws : List Word} {e : Expr} (h : Derives (.phrase .unary) ws e) :
    Derives (.phrase .expr) ws e :=
  .disjunction (.operand (.operand (.operand (.operand (.operand h)))))

theorem Derives.of_primary {ws : List Word} {e : Expr} (h : Derives (.phrase .primary) ws e) :
    Derives (.phrase .expr) ws e :=
  .of_unary (.member (.primary h))

/-- A change of words that keeps operators and names, and what each literal stands for. -/
structure Rewording (g : Word → Word) : Prop where
  kind : ∀ w, (g w).kind = w.kind
  op : ∀ text, g (op text) = op text
  ident : ∀ name, g (ident name) = ident name
  literal : ∀ {negative : Bool} {w : Word} {e : Expr}, Literal negative w e → Literal negative (g w) e

theorem Rewording.operator {g : Word → Word} (hg : Rewording g) {l : Level} {w : Word} {o : BinaryOp}
    (h : (w, o) ∈ l.operators) : g w = w := by
  have hplain : ∀ x ∈ l.operators, x.1 = Grammar.op x.1.text ∨ x.1 = Grammar.ident x.1.text := by
    cases l <;> decide
  have hw : w = Grammar.op w.text ∨ w = Grammar.ident w.text := hplain (w, o) h
  rcases hw with heq | heq
  · rw [heq, hg.op]
  · rw [heq, hg.ident]

/-- Reworded words spell the same tree. -/
theorem Derives.reword {g : Word → Word} (hg : Rewording g) {s : Sym} {ws : List Word} {a : s.Tree}
    (h : Derives s ws a) : Derives s (ws.map g) a := by
  induction h with
  | disjunction _ ih => exact .disjunction ih
  | conditional _ _ _ ihc ihy ihn =>
    simp only [List.map_append, List.map_cons, hg.op]
    exact .conditional ihc ihy ihn
  | operand _ ih => exact .operand ih
  | binary _ ho _ ihl ihr =>
    rw [List.map_append, List.map_cons, hg.operator ho]
    exact .binary ihl ho ihr
  | not _ ih =>
    rw [List.map_cons, hg.op]
    exact .not ih
  | minus hw _ ih =>
    rw [List.map_cons, List.map_cons, hg.op]
    exact .minus (by rwa [hg.kind]) ih
  | member _ ih => exact .member ih
  | negative hw hv =>
    rw [List.map_cons, List.map_singleton, hg.op]
    exact .negative (by rwa [hg.kind]) (hg.literal hv)
  | primary _ ih => exact .primary ih
  | select _ ih =>
    rw [List.map_append, List.map_cons, List.map_singleton, hg.op, hg.ident]
    exact .select ih
  | method _ _ ih iha =>
    simp only [List.map_append, List.map_cons, hg.op, hg.ident]
    exact .method ih iha
  | index _ _ ih ihi =>
    simp only [List.map_append, List.map_cons, List.map_nil, hg.op]
    exact .index ih ihi
  | message _ hn _ ih ihf =>
    rw [List.map_append, List.map_cons, hg.op]
    exact .message ih hn ihf
  | literal hv => exact .literal (hg.literal hv)
  | true =>
    rw [List.map_singleton, hg.ident]
    exact .true
  | false =>
    rw [List.map_singleton, hg.ident]
    exact .false
  | null =>
    rw [List.map_singleton, hg.ident]
    exact .null
  | name hn =>
    rw [List.map_singleton, hg.ident]
    exact .name hn
  | call hn _ iha =>
    rw [List.map_cons, List.map_cons, hg.op, hg.ident]
    exact .call hn iha
  | group _ ih =>
    simp only [List.map_append, List.map_cons, List.map_nil, hg.op]
    exact .group ih
  | list _ ih =>
    rw [List.map_cons, hg.op]
    exact .list ih
  | map _ ih =>
    rw [List.map_cons, hg.op]
    exact .map ih
  | value _ ih => exact .value ih
  | entry _ _ ihk ihv =>
    rw [List.map_append, List.map_cons, hg.op]
    exact .entry ihk ihv
  | field _ ihv =>
    rw [List.map_cons, List.map_cons, hg.op, hg.ident]
    exact .field ihv
  | close =>
    rw [List.map_singleton, hg.op]
    exact .close
  | last _ ih =>
    rw [List.map_append, List.map_singleton, hg.op]
    exact .last ih
  | more _ _ ih ihs =>
    rw [List.map_append, List.map_cons, hg.op]
    exact .more ih ihs

end Grammar

end CelSuite
