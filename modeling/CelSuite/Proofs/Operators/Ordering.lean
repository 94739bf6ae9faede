import CelSuite.Expr.Eval
import CelSuite.Proofs.Except
import CelSuite.Proofs.Text.Order
import CelSuite.Proofs.Values.Equality
import Mathlib.Data.Sum.Order
import Mathlib.Order.Compare

/-! # The ordering operators

Values of one kind that has an order stand at places of a linear order, all but NaN: there the ordering operators
compare places and equality is to have one place. A NaN is at no place. It compares as if it were equal to every
double, though it is equal to none, so `<=` and `>=` hold of it where neither a strict order nor equality does. -/

namespace CelSuite

/-- The operators that compare by order. -/
def BinaryOp.orderings : List BinaryOp := [.less, .lessEqual, .greater, .greaterEqual]

namespace Value

/-- Two values of one kind that has an order. -/
inductive Comparable : Value → Value → Prop
  | int (m n : Int) : Comparable (.int m) (.int n)
  | uint (m n : Nat) : Comparable (.uint m) (.uint n)
  | double (x y : Double) : Comparable (.double x) (.double y)
  | string (s t : String) : Comparable (.string s) (.string t)
  | bool (p q : Bool) : Comparable (.bool p) (.bool q)
  | duration (m n : Int) : Comparable (.duration m) (.duration n)

/-- Two values of which one is NaN. -/
def Unordered (a b : Value) : Prop := ¬(a.NotNaN ∧ b.NotNaN)

/-- Where a value stands among those of its kind: a text by its units, all else by a number. -/
def place : Value → Int ⊕ₗ List Nat
  | .int n | .duration n => toLex (.inl n)
  | .uint n => toLex (.inl n)
  | .double x => toLex (.inl x.rank)
  | .bool b => toLex (.inl b.toNat)
  | .string s => toLex (.inr (Text.units s.toList))
  | _ => toLex (.inl 0)

variable {a b c : Value}

theorem Comparable.symm (h : Comparable a b) : Comparable b a := by
  cases h <;> constructor

theorem Comparable.trans (hab : Comparable a b) (hbc : Comparable b c) : Comparable a c := by
  cases hab <;> cases hbc <;> constructor

theorem Unordered.double (h : Comparable a b) (hn : Unordered a b) :
    ∃ x y, a = .double x ∧ b = .double y ∧ (x.isNaN = true ∨ y.isNaN = true) := by
  cases h with
  | double x y =>
    refine ⟨x, y, rfl, rfl, ?_⟩
    rwa [Unordered, not_and_or, NotNaN, NotNaN, Bool.not_eq_false, Bool.not_eq_false] at hn
  | _ => exact absurd ⟨trivial, trivial⟩ hn

end Value

open Value

namespace Operators

variable {a b c : Value}

/-- A binary operator gives true for two values. -/
def Holds (op : BinaryOp) (a b : Value) : Prop := binary op a b = .ok (.bool true)

/-! ### Comparing -/

theorem compareDouble_eq {x y : Double} (hx : x.isNaN = false) (hy : y.isNaN = false) :
    compareDouble x y = cmp x.rank y.rank := by
  simp [compareDouble, Double.less, hx, hy, cmp, cmpUsing]

theorem compareDouble_nan {x y : Double} (h : x.isNaN = true ∨ y.isNaN = true) : compareDouble x y = .eq := by
  rcases h with h | h <;> simp [compareDouble, Double.less, h]

theorem compareText_eq (s t : String) : compareText s t = cmp (Text.units s.toList) (Text.units t.toList) := by
  simp only [compareText, Text.before_iff, cmp, cmpUsing]

/-- Away from NaN comparing is comparing places. -/
theorem compare_place (h : Comparable a b) (ha : a.NotNaN) (hb : b.NotNaN) :
    compare a b = .ok (cmp a.place b.place) := by
  cases h with
  | int m n | duration m n =>
    rw [compare, ← cmp_eq_compare]
    simp [cmp, cmpUsing, place]
  | uint m n =>
    rw [compare, ← cmp_eq_compare]
    simp [cmp, cmpUsing, place]
  | double x y =>
    rw [compare, compareDouble_eq ha hb]
    simp [cmp, cmpUsing, place]
  | string s t =>
    rw [compare, compareText_eq]
    simp [cmp, cmpUsing, place]
  | bool p q => cases p <;> cases q <;> rfl

/-- Away from NaN equality is to have one place. -/
theorem equal_place (h : Comparable a b) (ha : a.NotNaN) (hb : b.NotNaN) : a.equal b = true ↔ a.place = b.place := by
  cases h with
  | int m n | duration m n => simp [equal, place]
  | uint m n => simp only [equal, beq_iff_eq, place, toLex_inj, Sum.inl.injEq, Int.ofNat_inj]
  | double x y =>
    have hx : x.isNaN = false := ha
    have hy : y.isNaN = false := hb
    simp [equal, place, Double.equal, hx, hy]
  | string s t => simp [equal, place, Text.units_inj, String.toList_inj]
  | bool p q => cases p <;> cases q <;> decide

/-- A NaN compares as equal and is not equal. -/
theorem compare_unordered (h : Comparable a b) (hn : Unordered a b) : compare a b = .ok .eq ∧ a.equal b = false := by
  obtain ⟨x, y, rfl, rfl, hnan⟩ := hn.double h
  refine ⟨by rw [compare, compareDouble_nan hnan], ?_⟩
  rcases hnan with hnan | hnan <;> simp [equal, Double.equal, hnan]

theorem compare_eq_error (h : ¬Comparable a b) : compare a b = .error .noSuchOverload := by
  unfold compare
  split
  · exact absurd (.int _ _) h
  · exact absurd (.uint _ _) h
  · exact absurd (.double _ _) h
  · exact absurd (.string _ _) h
  · exact absurd (.bool _ _) h
  · exact absurd (.duration _ _) h
  · rfl

/-! ### The operators -/

/-- What the operators say of two values that stand at places. -/
structure InOrder (a b : Value) : Prop where
  less : Holds .less a b ↔ a.place < b.place
  lessEqual : Holds .lessEqual a b ↔ a.place ≤ b.place
  greater : Holds .greater a b ↔ b.place < a.place
  greaterEqual : Holds .greaterEqual a b ↔ b.place ≤ a.place
  equal : Holds .equal a b ↔ a.place = b.place

/-- What the operators say of two doubles of which one is NaN. -/
structure OutOfOrder (a b : Value) : Prop where
  less : ¬Holds .less a b
  lessEqual : Holds .lessEqual a b
  greater : ¬Holds .greater a b
  greaterEqual : Holds .greaterEqual a b
  equal : ¬Holds .equal a b

theorem inOrder (h : Comparable a b) (ha : a.NotNaN) (hb : b.NotNaN) : InOrder a b := by
  have hcompare := compare_place h ha hb
  have hequal := equal_place h ha hb
  rcases lt_trichotomy a.place b.place with hlt | heq | hgt
  · rw [(cmp_eq_lt_iff _ _).mpr hlt] at hcompare
    constructor <;> simp [Holds, binary, hcompare, hequal, Except.map, hlt, hlt.le, hlt.not_gt, hlt.not_ge]
  · rw [(cmp_eq_eq_iff _ _).mpr heq] at hcompare
    constructor <;> simp [Holds, binary, hcompare, hequal, Except.map, heq]
  · rw [(cmp_eq_gt_iff _ _).mpr hgt] at hcompare
    constructor <;> simp [Holds, binary, hcompare, hequal, Except.map, hgt, hgt.le, hgt.not_gt, hgt.not_ge]

theorem outOfOrder (h : Comparable a b) (hn : Unordered a b) : OutOfOrder a b := by
  obtain ⟨hcompare, hequal⟩ := compare_unordered h hn
  constructor <;> simp [Holds, binary, hcompare, hequal, Except.map]

theorem ordering_eq_bool (h : Comparable a b) {op : BinaryOp} (hop : op ∈ BinaryOp.orderings) :
    ∃ t, binary op a b = .ok (.bool t) := by
  have hanswers : ∃ o, compare a b = .ok o := by
    by_cases hn : Unordered a b
    · exact ⟨_, (compare_unordered h hn).1⟩
    · obtain ⟨ha, hb⟩ := not_not.mp hn
      exact ⟨_, compare_place h ha hb⟩
  obtain ⟨o, ho⟩ := hanswers
  simp only [BinaryOp.orderings, List.mem_cons, List.not_mem_nil, or_false] at hop
  rcases hop with rfl | rfl | rfl | rfl <;> simp [binary, ho, Except.map]

theorem ordering_eq_error (h : ¬Comparable a b) {op : BinaryOp} (hop : op ∈ BinaryOp.orderings) :
    binary op a b = .error .noSuchOverload := by
  simp only [BinaryOp.orderings, List.mem_cons, List.not_mem_nil, or_false] at hop
  rcases hop with rfl | rfl | rfl | rfl <;> simp [binary, compare_eq_error h, Except.map]

/-! ### Expressions -/

/-- The places of operands do not matter to a comparison. -/
theorem compare_under (a b : Value) (i j : Nat) : compare (a.under i) (b.under j) = compare a b := by
  cases a with
  | int | uint | double | string | bool | duration => cases b <;> rfl
  | _ => rfl

theorem eval_ordering [MessageSystem] {s : Scope} {act : Activation} {l r : Expr} (hl : l.eval s act = .ok a)
    (hr : r.eval s act = .ok b) {op : BinaryOp} (hop : op ∈ BinaryOp.orderings) :
    (Expr.binary op l r).eval s act = binary op a b := by
  simp only [BinaryOp.orderings, List.mem_cons, List.not_mem_nil, or_false] at hop
  rcases hop with rfl | rfl | rfl | rfl
  all_goals
    rw [Expr.eval, hl, hr]
    · simp only [bind, Except.bind, binary, compare_under]
    all_goals rintro ⟨⟩

theorem eval_equal [MessageSystem] {s : Scope} {act : Activation} {l r : Expr} (hl : l.eval s act = .ok a)
    (hr : r.eval s act = .ok b) (h : Comparable a b) :
    (Expr.binary .equal l r).eval s act = binary .equal a b := by
  have hunder : a.under 0 = a ∧ b.under 1 = b := by
    cases h <;> exact ⟨rfl, rfl⟩
  rw [Expr.eval, hl, hr]
  · simp only [bind, Except.bind, hunder]
  all_goals rintro ⟨⟩

/-! ### Laws -/

/-- At most one of two strict comparisons and equality holds. -/
theorem exclusive (h : Comparable a b) : ¬(Holds .less a b ∧ Holds .equal a b) ∧
    ¬(Holds .less a b ∧ Holds .greater a b) ∧ ¬(Holds .equal a b ∧ Holds .greater a b) := by
  by_cases hn : Unordered a b
  · have hout := outOfOrder h hn
    exact ⟨fun hboth => hout.less hboth.1, fun hboth => hout.less hboth.1, fun hboth => hout.equal hboth.1⟩
  · obtain ⟨ha, hb⟩ := not_not.mp hn
    have hin := inOrder h ha hb
    rw [hin.less, hin.equal, hin.greater]
    exact ⟨fun hboth => hboth.1.ne hboth.2, fun hboth => lt_asymm hboth.1 hboth.2, fun hboth => hboth.2.ne hboth.1.symm⟩

theorem less_iff_greater (h : Comparable a b) : Holds .less a b ↔ Holds .greater b a := by
  by_cases hn : Unordered a b
  · have hn' : Unordered b a := fun hboth => hn hboth.symm
    exact iff_of_false (outOfOrder h hn).less (outOfOrder h.symm hn').greater
  · obtain ⟨ha, hb⟩ := not_not.mp hn
    rw [(inOrder h ha hb).less, (inOrder h.symm hb ha).greater]

/-- To be less or equal is to be less or to be equal as long as neither value is NaN, and never else. -/
theorem lessEqual_iff (h : Comparable a b) :
    (Holds .lessEqual a b ↔ Holds .less a b ∨ Holds .equal a b) ↔ ¬Unordered a b := by
  by_cases hn : Unordered a b
  · have hout := outOfOrder h hn
    simp [hn, hout.lessEqual, hout.less, hout.equal]
  · obtain ⟨ha, hb⟩ := not_not.mp hn
    have hin := inOrder h ha hb
    rw [hin.lessEqual, hin.less, hin.equal]
    exact iff_of_true le_iff_lt_or_eq hn

theorem greaterEqual_iff (h : Comparable a b) :
    (Holds .greaterEqual a b ↔ Holds .greater a b ∨ Holds .equal a b) ↔ ¬Unordered a b := by
  by_cases hn : Unordered a b
  · have hout := outOfOrder h hn
    simp [hn, hout.greaterEqual, hout.greater, hout.equal]
  · obtain ⟨ha, hb⟩ := not_not.mp hn
    have hin := inOrder h ha hb
    rw [hin.greaterEqual, hin.greater, hin.equal, eq_comm]
    exact iff_of_true le_iff_lt_or_eq hn

theorem less_trans (hab : Comparable a b) (hbc : Comparable b c) (hless : Holds .less a b)
    (hless' : Holds .less b c) : Holds .less a c := by
  have hplaced {a b : Value} (h : Comparable a b) (hless : Holds .less a b) : a.NotNaN ∧ b.NotNaN := by
    by_contra hn
    exact (outOfOrder h hn).less hless
  obtain ⟨ha, hb⟩ := hplaced hab hless
  obtain ⟨-, hc⟩ := hplaced hbc hless'
  rw [(inOrder hab ha hb).less] at hless
  rw [(inOrder hbc hb hc).less] at hless'
  exact (inOrder (hab.trans hbc) ha hc).less.mpr (hless.trans hless')

/-- A NaN in the middle is what breaks a chain, if the outer two are in the wrong order. -/
theorem lessEqual_trans_iff (hab : Comparable a b) (hbc : Comparable b c) :
    (Holds .lessEqual a b → Holds .lessEqual b c → Holds .lessEqual a c) ↔ b.NotNaN ∨ ¬Holds .greater a c := by
  have hac := hab.trans hbc
  by_cases hn : Unordered a c
  · have hout := outOfOrder hac hn
    exact iff_of_true (fun _ _ => hout.lessEqual) (Or.inr hout.greater)
  · obtain ⟨ha, hc⟩ := not_not.mp hn
    have hin := inOrder hac ha hc
    rw [hin.lessEqual, hin.greater, not_lt]
    by_cases hb : b.NotNaN
    · rw [(inOrder hab ha hb).lessEqual, (inOrder hbc hb hc).lessEqual]
      exact iff_of_true le_trans (Or.inl hb)
    · have hle := (outOfOrder hab fun hboth => hb hboth.2).lessEqual
      have hle' := (outOfOrder hbc fun hboth => hb hboth.1).lessEqual
      simp [hb, hle, hle']

/-- The ordering operators on values of one comparable kind agree with each other, and `<=` and `>=` agree with
    equality at exactly the pairs without a NaN. At most one of `<`, `==` and `>` holds, `<` is transitive, and `<=` is
    transitive but for a NaN between two values in the wrong order. All other pairs are refused. Texts are in the order
    of their units. An expression gives what the operator gives for the values of its operands. -/
theorem ordering_agrees_unless_nan (a b c : Value) :
    (Comparable a b →
      (∀ op ∈ BinaryOp.orderings, ∃ t, binary op a b = .ok (.bool t)) ∧
      ((Holds .lessEqual a b ↔ Holds .less a b ∨ Holds .equal a b) ↔ ¬Unordered a b) ∧
      ((Holds .greaterEqual a b ↔ Holds .greater a b ∨ Holds .equal a b) ↔ ¬Unordered a b) ∧
      (Holds .less a b ↔ Holds .greater b a) ∧
      ¬(Holds .less a b ∧ Holds .equal a b) ∧
      ¬(Holds .less a b ∧ Holds .greater a b) ∧
      ¬(Holds .equal a b ∧ Holds .greater a b)) ∧
    (Comparable a b → Comparable b c →
      (Holds .less a b → Holds .less b c → Holds .less a c) ∧
      ((Holds .lessEqual a b → Holds .lessEqual b c → Holds .lessEqual a c) ↔
        b.NotNaN ∨ ¬Holds .greater a c)) ∧
    (¬Comparable a b → ∀ op ∈ BinaryOp.orderings, binary op a b = .error .noSuchOverload) ∧
    (∀ s t, Holds .less (.string s) (.string t) ↔ Text.units s.toList < Text.units t.toList) ∧
    ∀ [MessageSystem] (s : Scope) (act : Activation) (l r : Expr), l.eval s act = .ok a → r.eval s act = .ok b →
      (∀ op ∈ BinaryOp.orderings, (Expr.binary op l r).eval s act = binary op a b) ∧
        (Comparable a b → (Expr.binary .equal l r).eval s act = binary .equal a b) := by
  refine ⟨fun h => ⟨fun op => ordering_eq_bool h, lessEqual_iff h, greaterEqual_iff h, less_iff_greater h, exclusive h⟩,
    fun hab hbc => ⟨less_trans hab hbc, lessEqual_trans_iff hab hbc⟩, fun h op => ordering_eq_error h, fun s t => ?_,
    fun s act l r hl hr => ⟨fun op => eval_ordering hl hr, eval_equal hl hr⟩⟩
  rw [(inOrder (.string s t) trivial trivial).less, place, place, Sum.Lex.inr_lt_inr_iff]

/-- A NaN between two and one. -/
theorem nan_between_two_and_one :
    let two : Value := .double ⟨0x4000000000000000⟩
    let nan : Value := .double .nan
    let one : Value := .double ⟨0x3FF0000000000000⟩
    (Comparable two nan ∧ Comparable nan one) ∧
      ¬(Holds .lessEqual two nan ↔ Holds .less two nan ∨ Holds .equal two nan) ∧
      ¬(Holds .lessEqual two nan → Holds .lessEqual nan one → Holds .lessEqual two one) := by
  intro two nan one
  have hnan : ¬nan.NotNaN := fun h => absurd h (by decide : ¬Double.nan.isNaN = false)
  obtain ⟨hpair, hchain, -⟩ := ordering_agrees_unless_nan two nan one
  obtain ⟨-, hle, -⟩ := hpair (.double _ _)
  obtain ⟨-, htrans⟩ := hchain (.double _ _) (.double _ _)
  refine ⟨⟨.double _ _, .double _ _⟩, fun heq => hle.mp heq fun hboth => hnan hboth.2, fun hle => ?_⟩
  rcases htrans.mp hle with h | h
  · exact hnan h
  · exact h rfl

end Operators

end CelSuite
