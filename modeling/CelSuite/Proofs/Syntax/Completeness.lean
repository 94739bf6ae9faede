import CelSuite.Proofs.Syntax.Soundness
import CelSuite.Proofs.Syntax.Termination

/-! # The parser takes every derivation

What the rules derive, the parser reads off the front of any tokens, as long as the words after it do not
go on with the phrase. The loops of the parser build their trees from the left, so for a chain of operators
and for a member the claim is that the loop arrives at the tree. Nested expressions are shorter than what
they are in, so a bound on nesting as large as the number of words is enough. -/

namespace CelSuite.Parser
open Grammar

variable {α : Type} {expr : Parse Expr} {ts rest : List Token} {us : List Word}

/-! ### Single words -/

theorem accept?_eq_some {text : String} (h : ts.map Token.word = op text :: us) :
    ∃ rest, accept? text ts = some rest ∧ rest.map Token.word = us := by
  obtain ⟨t, rest, rfl, ht, hrest⟩ := List.map_eq_cons_iff.mp h
  exact ⟨rest, by rw [accept?, if_pos (isOp_iff.mpr ht)], hrest⟩

theorem accept?_eq_none {text : String} (h : ∀ w ∈ (ts.map Token.word).head?, w ≠ op text) :
    accept? text ts = none := by
  cases ts with
  | nil => rfl
  | cons t ts =>
    rw [accept?, if_neg]
    rw [isOp_iff]
    exact h t.word rfl

theorem expect_eq_ok {text : String} (h : ts.map Token.word = op text :: us) :
    ∃ rest, expect text ts = .ok rest ∧ rest.map Token.word = us := by
  obtain ⟨t, rest, rfl, ht, hrest⟩ := List.map_eq_cons_iff.mp h
  exact ⟨rest, by rw [expect, if_pos (isOp_iff.mpr ht)], hrest⟩

theorem identifier_eq_ok {name : String} (h : ts.map Token.word = ident name :: us) :
    ∃ rest, identifier ts = .ok (name, rest) ∧ rest.map Token.word = us := by
  obtain ⟨t, rest, rfl, ht, hrest⟩ := List.map_eq_cons_iff.mp h
  obtain ⟨hk, rfl⟩ : t.kind = .ident ∧ t.text = name := by simpa [Token.word, ident] using ht
  exact ⟨rest, by rw [identifier, if_pos hk], hrest⟩

theorem levelOp?_eq_some {l : Level} {t : Token} {o : BinaryOp} (h : (t.word, o) ∈ l.operators) :
    levelOp? l t = some o := by
  obtain ⟨kind, text, pos⟩ := t
  cases l <;>
    simp only [Level.operators, List.mem_cons, List.not_mem_nil, or_false, Prod.mk.injEq, Token.word, op,
      ident, Word.mk.injEq] at h
  · obtain ⟨⟨rfl, rfl⟩, rfl⟩ := h
    rfl
  · obtain ⟨⟨rfl, rfl⟩, rfl⟩ := h
    rfl
  · rcases h with ⟨⟨rfl, rfl⟩, rfl⟩ | ⟨⟨rfl, rfl⟩, rfl⟩ | ⟨⟨rfl, rfl⟩, rfl⟩ | ⟨⟨rfl, rfl⟩, rfl⟩ |
      ⟨⟨rfl, rfl⟩, rfl⟩ | ⟨⟨rfl, rfl⟩, rfl⟩ | ⟨⟨rfl, rfl⟩, rfl⟩ <;> rfl
  · rcases h with ⟨⟨rfl, rfl⟩, rfl⟩ | ⟨⟨rfl, rfl⟩, rfl⟩ <;> rfl
  · rcases h with ⟨⟨rfl, rfl⟩, rfl⟩ | ⟨⟨rfl, rfl⟩, rfl⟩ | ⟨⟨rfl, rfl⟩, rfl⟩ <;> rfl

/-! ### What a phrase goes on with -/

/-- The words that begin a suffix. -/
def suffixWords : List Word := [op "(", op ".", op "[", op "\x7b"]

/-- The words of the operators of some levels. -/
def operatorWords (ls : List Level) : List Word := ls.flatMap fun l => l.operators.map (·.1)

/-- The words that a phrase could go on with. -/
def goesOn : Phrase → List Word
  | .primary => [op "("]
  | .member | .unary => suffixWords
  | .chain .product => suffixWords ++ operatorWords [.product]
  | .chain .sum => suffixWords ++ operatorWords [.product, .sum]
  | .chain .relation => suffixWords ++ operatorWords [.product, .sum, .relation]
  | .chain .and => suffixWords ++ operatorWords [.product, .sum, .relation, .and]
  | .chain .or => suffixWords ++ operatorWords [.product, .sum, .relation, .and, .or]
  | .expr => suffixWords ++ operatorWords [.product, .sum, .relation, .and, .or] ++ [op "?"]

/-- The next word does not go on with a phrase. -/
def Stops (p : Phrase) (us : List Word) : Prop := ∀ w ∈ us.head?, w ∉ goesOn p

theorem stops_cons {p : Phrase} {w : Word} (h : w ∉ goesOn p) : Stops p (w :: us) := fun w' hw' => by
  cases hw'
  exact h

theorem Stops.mono {p q : Phrase} (h : Stops p us) (hq : ∀ w ∈ goesOn q, w ∈ goesOn p) : Stops q us :=
  fun w hw hin => h w hw (hq w hin)

theorem Stops.ne {p : Phrase} (h : Stops p us) {w : Word} (hw : w ∈ goesOn p) :
    ∀ u ∈ us.head?, u ≠ w := fun u hu heq => h u hu (heq ▸ hw)

theorem operator_not_goesOn (l : Level) : ∀ x ∈ l.operators, x.1 ∉ goesOn l.operand := by
  cases l <;> decide

theorem operator_goesOn (l : Level) : ∀ x ∈ l.operators, x.1 ∈ goesOn (.chain l) := by
  cases l <;> decide

theorem goesOn_operand (l : Level) : ∀ w ∈ goesOn l.operand, w ∈ goesOn (.chain l) := by
  cases l <;> decide

/-! ### How a phrase begins -/

/-- The brackets that end a comma list. -/
def closings : List String := [")", "]", "\x7d"]

/-- The words that neither a phrase nor an item begins with. -/
def closingWords : List Word := closings.map op

theorem literal_not_op {negative : Bool} {w : Word} {e : Expr} (h : Grammar.Literal negative w e) :
    w.kind ≠ .op := by
  cases h <;> simp

theorem head_append {ws vs : List Word} (hne : ws ≠ []) {P : Word → Prop} (h : ∀ w ∈ ws.head?, P w) :
    ∀ w ∈ (ws ++ vs).head?, P w := by
  cases ws with
  | nil => exact absurd rfl hne
  | cons w ws => exact h

theorem head_cons {w : Word} {vs : List Word} {P : Word → Prop} (h : P w) :
    ∀ w' ∈ (w :: vs).head?, P w' := fun w' hw' => by
  cases hw'
  exact h

theorem ident_not_closing (name : String) : ident name ∉ closingWords := by
  simp [closingWords, closings, ident, op]

theorem head_not_closing {s : Sym} {ws : List Word} {a : s.Tree} (h : Derives s ws a) :
    (∀ i c, s ≠ .items i c) → ∀ w ∈ ws.head?, w ∉ closingWords := by
  induction h with
  | disjunction _ ih | operand _ ih | member _ ih | primary _ ih | value _ ih => exact fun _ => ih nofun
  | conditional h _ _ ih | binary h _ _ ih | select h ih | method h _ ih | index h _ ih | message h _ _ ih
    | entry h _ ih => exact fun _ => head_append h.ne_nil (ih nofun)
  | not | minus | negative | group | list | map => exact fun _ => head_cons (by decide)
  | literal hl =>
    refine fun _ => head_cons fun hin => literal_not_op hl ?_
    obtain ⟨text, -, rfl⟩ := List.mem_map.mp hin
    rfl
  | true | false | null | name | call | field => exact fun _ => head_cons (ident_not_closing _)
  | close | last | more => exact fun hne => absurd rfl (hne _ _)

/-- A primary begins with no prefix operator. -/
theorem primary_head {ws : List Word} {e : Expr} (h : Derives (.phrase .primary) ws e) :
    ∃ w vs, ws = w :: vs ∧ w ≠ op "!" ∧ w ≠ op "-" := by
  cases h with
  | literal hl =>
    refine ⟨_, _, rfl, ?_, ?_⟩ <;> (rintro rfl; exact literal_not_op hl rfl)
  | true | false | null | name | call => exact ⟨_, _, rfl, by simp [ident, op], by simp [ident, op]⟩
  | group | list | map => exact ⟨_, _, rfl, by decide, by decide⟩

/-! ### What a derivation makes the parser do -/

/-- A parser takes these words off the front of any tokens that stop after them. -/
def Reads (p : Parse α) (stop : List Word → Prop) (ws : List Word) (a : α) : Prop :=
  ∀ ts us, stop us → ts.map Token.word = ws ++ us →
    ∃ rest, p ts = .ok (a, rest) ∧ rest.map Token.word = us

/-- The parser of an item. -/
def itemParser (expr : Parse Expr) : (i : Item) → Parse i.Tree
  | .value => expr
  | .entry => mapEntry expr
  | .field => fieldInit expr

/-- What the parser makes of the words of a phrase. Of a chain and of a member it makes a loop that has
    come to the tree. -/
def PhraseComplete (ws : List Word) (e : Expr) : Phrase → Prop
  | .chain l => ∀ n, ws.length ≤ n → ∀ ts us, Stops l.operand us → ts.map Token.word = ws ++ us →
      ∃ m rest, rest.length < m ∧ rest.map Token.word = us ∧
        phraseParser (expression n) (.chain l) ts =
          chainFrom (levelOp? l) (phraseParser (expression n) l.operand) m e rest
  | .member => ∀ n, ws.length ≤ n → ∀ ts us, Stops .primary us → ts.map Token.word = ws ++ us →
      ∃ m rest, rest.length < m ∧ rest.map Token.word = us ∧
        unary (expression n) ts = suffixes (expression n) m e rest
  | .expr => ∀ n, ws.length ≤ n → Reads (conditional (expression n)) (Stops .expr) ws e
  | .unary => ∀ n, ws.length ≤ n → Reads (unary (expression n)) (Stops .unary) ws e
  | .primary => ∀ n, ws.length ≤ n → Reads (primary (expression n)) (Stops .primary) ws e

/-- What the parser makes of the words of a form. -/
def Complete : (s : Sym) → List Word → s.Tree → Prop
  | .phrase p, ws, e => PhraseComplete ws e p
  | .item i, ws, a => ∀ n, ws.length < n → Reads (itemParser (expression n) i) (Stops .expr) ws a
  | .items i c, ws, as => c ∈ closings → ∀ n k, ws.length ≤ n → ws.length ≤ k →
      Reads (items (itemParser (expression n) i) c k) (fun _ => True) ws as

variable {ws : List Word} {e : Expr} {n : Nat}

theorem expression_reads (h : PhraseComplete ws e .expr) (hn : ws.length < n) :
    Reads (expression n) (Stops .expr) ws e := by
  cases n with
  | zero => omega
  | succ n => exact h n (by omega)

theorem suffixes_stop {m : Nat} (hm : 0 < m) (h : Stops .member (rest.map Token.word)) :
    suffixes expr m e rest = .ok (e, rest) := by
  cases m with
  | zero => omega
  | succ m =>
    have hdot : accept? "." rest = none := accept?_eq_none (h.ne (by decide))
    have hopen : accept? "[" rest = none := accept?_eq_none (h.ne (by decide))
    have hbrace : accept? "\x7b" rest = none := accept?_eq_none (h.ne (by decide))
    simp only [suffixes, suffix?, hdot, hopen, hbrace]
    rfl

theorem chainFrom_stop {l : Level} {operand : Parse Expr} {m : Nat} (hm : 0 < m)
    (h : Stops (.chain l) (rest.map Token.word)) :
    chainFrom (levelOp? l) operand m e rest = .ok (e, rest) := by
  cases m with
  | zero => omega
  | succ m =>
    cases rest with
    | nil => rfl
    | cons t rest =>
      have hop : levelOp? l t = none := by
        cases ho : levelOp? l t with
        | none => rfl
        | some o => exact absurd (operator_goesOn l _ (levelOp?_some ho)) (h t.word rfl)
      rw [chainFrom, hop]

/-- A loop that has come to a tree returns it when nothing goes on with it. -/
theorem PhraseComplete.reads {p : Phrase} (h : PhraseComplete ws e p) (hn : ws.length ≤ n) :
    Reads (phraseParser (expression n) p) (Stops p) ws e := by
  intro ts us hus hts
  cases p with
  | expr => exact h n hn ts us hus hts
  | unary => exact h n hn ts us hus hts
  | primary => exact h n hn ts us hus hts
  | chain l =>
    obtain ⟨m, rest, hm, rfl, hloop⟩ := h n hn ts us (hus.mono (goesOn_operand l)) hts
    exact ⟨rest, by rw [hloop, chainFrom_stop (Nat.zero_lt_of_lt hm) hus], rfl⟩
  | member =>
    obtain ⟨m, rest, hm, rfl, hloop⟩ := h n hn ts us (hus.mono (by decide)) hts
    exact ⟨rest, by rw [phraseParser, hloop, suffixes_stop (Nat.zero_lt_of_lt hm) hus], rfl⟩

/-! ### Comma lists -/

theorem closing_stops {c : String} (hc : c ∈ closings) : op c ∉ goesOn .expr := by
  revert c
  decide

theorem closing_ne_comma {c : String} (hc : c ∈ closings) : op c ≠ op "," := by
  revert c
  decide

/-- An item is no closing bracket. -/
theorem accept?_closing {i : Item} {c : String} {ws vs : List Word} {a : i.Tree} (hc : c ∈ closings)
    (hd : Derives (.item i) ws a) (hts : ts.map Token.word = ws ++ vs) : accept? c ts = none := by
  refine accept?_eq_none ?_
  rw [hts]
  refine head_append hd.ne_nil fun w hw heq => ?_
  exact head_not_closing hd nofun w hw (heq ▸ List.mem_map_of_mem hc)

theorem complete_close {i : Item} {c : String} : Complete (.items i c) [op c] [] := by
  intro hc n k hn hk ts us _ hts
  cases k with
  | zero => simp at hk
  | succ k =>
    obtain ⟨rest, haccept, hrest⟩ := accept?_eq_some hts
    exact ⟨rest, by rw [items, haccept], hrest⟩

theorem complete_last {i : Item} {c : String} {a : i.Tree} (hd : Derives (.item i) ws a)
    (h : Complete (.item i) ws a) : Complete (.items i c) (ws ++ [op c]) [a] := by
  intro hc n k hn hk ts us _ hts
  rw [List.length_append, List.length_singleton] at hn hk
  rw [List.append_assoc, List.singleton_append] at hts
  cases k with
  | zero => omega
  | succ k =>
    obtain ⟨rest, hitem, hrest⟩ := h n (by omega) ts _ (stops_cons (closing_stops hc)) hts
    obtain ⟨rest', hclose, hrest'⟩ := expect_eq_ok hrest
    have hcomma : accept? "," rest = none := by
      refine accept?_eq_none ?_
      rw [hrest]
      exact head_cons (closing_ne_comma hc)
    refine ⟨rest', ?_, hrest'⟩
    simp only [items, accept?_closing hc hd hts, hitem, bind, Except.bind, hcomma, hclose]
    rfl

theorem complete_more {i : Item} {c : String} {vs : List Word} {a : i.Tree} {as : List i.Tree}
    (hd : Derives (.item i) ws a) (h : Complete (.item i) ws a) (hs : Complete (.items i c) vs as) :
    Complete (.items i c) (ws ++ op "," :: vs) (a :: as) := by
  intro hc n k hn hk ts us _ hts
  rw [List.length_append, List.length_cons] at hn hk
  rw [List.append_assoc, List.cons_append] at hts
  cases k with
  | zero => omega
  | succ k =>
    obtain ⟨rest, hitem, hrest⟩ := h n (by omega) ts _ (stops_cons (by decide)) hts
    obtain ⟨rest', hcomma, hrest'⟩ := accept?_eq_some hrest
    obtain ⟨rest'', hitems, hrest''⟩ := hs hc n k (by omega) (by omega) rest' us trivial hrest'
    refine ⟨rest'', ?_, hrest''⟩
    simp only [items, accept?_closing hc hd hts, hitem, bind, Except.bind, hcomma, hitems]
    rfl

/-- Items up to a closing bracket, with more turns than there are tokens. -/
theorem commaList_reads {i : Item} {c : String} {as : List i.Tree} (h : Complete (.items i c) ws as)
    (hc : c ∈ closings) (hn : ws.length ≤ n) :
    Reads (commaList (itemParser (expression n) i) c) (fun _ => True) ws as := by
  intro ts us hus hts
  have hlen : ts.length = ws.length + us.length := by
    rw [← List.length_map (f := Token.word), hts, List.length_append]
  exact h hc n (ts.length + 1) hn (by omega) ts us hus hts

theorem complete_value (h : PhraseComplete ws e .expr) : Complete (.item .value) ws e := fun _ hn =>
  expression_reads h hn

theorem complete_entry {ks vs : List Word} {k v : Expr} (hk : PhraseComplete ks k .expr)
    (hv : PhraseComplete vs v .expr) : Complete (.item .entry) (ks ++ op ":" :: vs) (k, v) := by
  intro n hn ts us hus hts
  rw [List.length_append, List.length_cons] at hn
  rw [List.append_assoc, List.cons_append] at hts
  obtain ⟨r₁, hkey, hr₁⟩ := expression_reads (n := n) hk (by omega) ts _ (stops_cons (by decide)) hts
  obtain ⟨r₂, hcolon, hr₂⟩ := expect_eq_ok hr₁
  obtain ⟨r₃, hvalue, hr₃⟩ := expression_reads (n := n) hv (by omega) r₂ us hus hr₂
  refine ⟨r₃, ?_, hr₃⟩
  simp only [itemParser, mapEntry, hkey, bind, Except.bind, hcolon, hvalue]
  rfl

theorem complete_field {name : String} {vs : List Word} {v : Expr} (hv : PhraseComplete vs v .expr) :
    Complete (.item .field) (ident name :: op ":" :: vs) (name, v) := by
  intro n hn ts us hus hts
  rw [List.length_cons, List.length_cons] at hn
  obtain ⟨r₁, hname, hr₁⟩ := identifier_eq_ok hts
  obtain ⟨r₂, hcolon, hr₂⟩ := expect_eq_ok hr₁
  obtain ⟨r₃, hvalue, hr₃⟩ := expression_reads (n := n) hv (by omega) r₂ us hus hr₂
  refine ⟨r₃, ?_, hr₃⟩
  simp only [itemParser, fieldInit, hname, bind, Except.bind, hcolon, hvalue]
  rfl

/-! ### Conditionals and chains of operators -/

theorem complete_disjunction (h : PhraseComplete ws e (.chain .or)) : PhraseComplete ws e .expr := by
  intro n hn ts us hus hts
  obtain ⟨rest, hor, hrest⟩ := h.reads hn ts us (hus.mono (by decide)) hts
  have hquestion : accept? "?" rest = none := by
    refine accept?_eq_none ?_
    rw [hrest]
    exact hus.ne (by decide)
  refine ⟨rest, ?_, hrest⟩
  rw [phraseParser] at hor
  simp only [conditional, hor, bind, Except.bind, hquestion]
  rfl

theorem complete_conditional {cs ys ns : List Word} {c y o : Expr} (hc : PhraseComplete cs c (.chain .or))
    (hy : PhraseComplete ys y (.chain .or)) (ho : PhraseComplete ns o .expr) :
    PhraseComplete (cs ++ op "?" :: (ys ++ op ":" :: ns)) (.conditional c y o) .expr := by
  intro n hn ts us hus hts
  simp only [List.length_append, List.length_cons] at hn
  simp only [List.append_assoc, List.cons_append] at hts
  obtain ⟨r₁, hcond, hr₁⟩ := hc.reads (n := n) (by omega) ts _ (stops_cons (by decide)) hts
  obtain ⟨r₂, hquestion, hr₂⟩ := accept?_eq_some hr₁
  obtain ⟨r₃, hyes, hr₃⟩ := hy.reads (n := n) (by omega) r₂ _ (stops_cons (by decide)) hr₂
  obtain ⟨r₄, hcolon, hr₄⟩ := expect_eq_ok hr₃
  obtain ⟨r₅, hno, hr₅⟩ := expression_reads (n := n) ho (by omega) r₄ us hus hr₄
  refine ⟨r₅, ?_, hr₅⟩
  rw [phraseParser] at hcond hyes
  simp only [conditional, hcond, bind, Except.bind, hquestion, hyes, hcolon, hno]
  rfl

theorem complete_operand {l : Level} (h : PhraseComplete ws e l.operand) :
    PhraseComplete ws e (.chain l) := by
  intro n hn ts us hus hts
  obtain ⟨rest, hfirst, hrest⟩ := h.reads hn ts us hus hts
  refine ⟨rest.length + 1, rest, Nat.lt_succ_self _, hrest, ?_⟩
  simp only [phraseParser_chain, chain, hfirst, bind, Except.bind]

theorem complete_binary {l : Level} {w : Word} {o : BinaryOp} {ls rs : List Word} {a b : Expr}
    (hl : PhraseComplete ls a (.chain l)) (ho : (w, o) ∈ l.operators)
    (hr : PhraseComplete rs b l.operand) : PhraseComplete (ls ++ w :: rs) (.binary o a b) (.chain l) := by
  intro n hn ts us hus hts
  rw [List.length_append, List.length_cons] at hn
  rw [List.append_assoc, List.cons_append] at hts
  -- The loop arrives at the left operand, takes the operator, and goes on with one turn less.
  obtain ⟨m, r₁, hm, hr₁, hloop⟩ :=
    hl n (by omega) ts _ (stops_cons (operator_not_goesOn l _ ho)) hts
  obtain ⟨t, r₂, rfl, rfl, hr₂⟩ := List.map_eq_cons_iff.mp hr₁
  obtain ⟨r₃, hright, hr₃⟩ := hr.reads (n := n) (by omega) r₂ us hus hr₂
  have hlen : r₂.length = rs.length + r₃.length := by
    rw [← List.length_map (f := Token.word), hr₂, List.length_append, ← hr₃, List.length_map]
  rw [List.length_cons] at hm
  cases m with
  | zero => omega
  | succ m =>
    refine ⟨m, r₃, by omega, hr₃, ?_⟩
    rw [hloop]
    simp only [chainFrom, levelOp?_eq_some ho, hright, bind, Except.bind]

/-! ### Prefix operators and members -/

theorem isOp_of_word {t : Token} {text text' : String} (h : t.word = op text) :
    t.isOp text' = (text == text') := by
  obtain ⟨kind, _, pos⟩ := t
  obtain ⟨rfl, rfl⟩ : kind = .op ∧ _ = text := by simpa [Token.word, op] using h
  rfl

theorem complete_not (h : PhraseComplete ws e .unary) :
    PhraseComplete (op "!" :: ws) (.unary .not e) .unary := by
  intro n hn ts us hus hts
  rw [List.length_cons] at hn
  obtain ⟨t, ts, rfl, ht, hts⟩ := List.map_eq_cons_iff.mp hts
  obtain ⟨rest, hunary, hrest⟩ := h n (by omega) ts us hus hts
  refine ⟨rest, ?_, hrest⟩
  unfold unary
  rw [isOp_of_word ht, if_pos (by decide), hunary]
  rfl

theorem complete_minus {w : Word} (hw : w.kind ≠ .int ∧ w.kind ≠ .double)
    (h : PhraseComplete (w :: ws) e .unary) :
    PhraseComplete (op "-" :: w :: ws) (.unary .minus e) .unary := by
  intro n hn ts us hus hts
  rw [List.length_cons] at hn
  obtain ⟨t, ts, rfl, ht, hts⟩ := List.map_eq_cons_iff.mp hts
  obtain ⟨rest, hunary, hrest⟩ := h n (by omega) ts us hus hts
  obtain ⟨t', ts, rfl, rfl, -⟩ := List.map_eq_cons_iff.mp hts
  refine ⟨rest, ?_, hrest⟩
  rw [unary, isOp_of_word ht, if_neg (by decide), isOp_of_word ht, if_pos (by decide)]
  rw [Token.word] at hw
  dsimp only
  rw [if_neg (not_or.mpr hw), hunary]
  rfl

theorem complete_member (h : PhraseComplete ws e .member) : PhraseComplete ws e .unary := fun _ hn =>
  h.reads hn

theorem number_of_literal {negative : Bool} {t : Token} (hk : t.kind = .int ∨ t.kind = .double)
    (he : Grammar.Literal negative t.word e) :
    ∃ v, Literal.number t negative = .ok v ∧ e = .literal v := by
  have hnumber (v : Value) : Literal.number t negative = .ok v ↔ Grammar.Literal negative t.word (.literal v) :=
    number_ok_iff (hk.imp_right Or.inl)
  generalize hw : t.word = w at he hnumber
  have hkind : t.kind = w.kind := congrArg Word.kind hw
  cases he with
  | int reads range => exact ⟨_, (hnumber _).mpr (.int reads range), rfl⟩
  | double => exact ⟨_, (hnumber _).mpr .double, rfl⟩
  | uint | string | bytes => simp [hkind] at hk

theorem complete_negative {w : Word} (hw : w.kind = .int ∨ w.kind = .double)
    (he : Grammar.Literal true w e) : PhraseComplete [op "-", w] e .member := by
  intro n _ ts us _ hts
  obtain ⟨t, ts, rfl, ht, hts⟩ := List.map_eq_cons_iff.mp hts
  obtain ⟨t', rest, rfl, rfl, hrest⟩ := List.map_eq_cons_iff.mp hts
  refine ⟨rest.length + 1, rest, Nat.lt_succ_self _, hrest, ?_⟩
  obtain ⟨v, hnumber, rfl⟩ := number_of_literal hw he
  rw [unary, isOp_of_word ht, if_neg (by decide), isOp_of_word ht, if_pos (by decide)]
  rw [Token.word] at hw
  dsimp only
  rw [if_pos hw, hnumber]
  rfl

theorem complete_primary (hd : Derives (.phrase .primary) ws e) (h : PhraseComplete ws e .primary) :
    PhraseComplete ws e .member := by
  intro n hn ts us hus hts
  obtain ⟨rest, hprimary, hrest⟩ := h n hn ts us hus hts
  obtain ⟨w, vs, rfl, hnot, hminus⟩ := primary_head hd
  obtain ⟨t, ts, rfl, rfl, hts⟩ := List.map_eq_cons_iff.mp hts
  refine ⟨rest.length + 1, rest, Nat.lt_succ_self _, hrest, ?_⟩
  unfold unary
  rw [isOp_eq_false_iff.mpr hnot, isOp_eq_false_iff.mpr hminus]
  simp only [Bool.false_eq_true, if_false, hprimary, bind, Except.bind, member]

/-- A member goes on when the loop takes a suffix at the tree it has come to. -/
theorem member_goes_on {vs : List Word} {e' : Expr} (h : PhraseComplete ws e .member)
    (hvs : ∀ us, Stops .primary (vs ++ us)) (hne : vs ≠ [])
    (hs : ∀ n ts us, (ws ++ vs).length ≤ n → Stops .primary us → ts.map Token.word = vs ++ us →
      ∃ rest, suffix? (expression n) e ts = .ok (some (e', rest)) ∧ rest.map Token.word = us) :
    PhraseComplete (ws ++ vs) e' .member := by
  intro n hn ts us hus hts
  have hlen : (ws ++ vs).length = ws.length + vs.length := List.length_append
  rw [List.append_assoc] at hts
  obtain ⟨m, r₁, hm, hr₁, hloop⟩ := h n (by omega) ts _ (hvs us) hts
  obtain ⟨r₂, hsuffix, hr₂⟩ := hs n r₁ us hn hus hr₁
  have hlen' : r₁.length = vs.length + r₂.length := by
    rw [← List.length_map (f := Token.word), hr₁, List.length_append, ← hr₂, List.length_map]
  have hpos : 0 < vs.length := List.length_pos_iff.mpr hne
  cases m with
  | zero => omega
  | succ m =>
    refine ⟨m, r₂, by omega, hr₂, ?_⟩
    rw [hloop]
    simp only [suffixes, hsuffix, bind, Except.bind]

theorem stops_primary {text : String} (h : text ≠ "(") (vs : List Word) : Stops .primary (op text :: vs) :=
  stops_cons (by simpa [goesOn, op] using h)

theorem complete_select {field : String} (h : PhraseComplete ws e .member) :
    PhraseComplete (ws ++ [op ".", ident field]) (.select e field) .member := by
  refine member_goes_on h (fun us => stops_primary (by decide) _) (by simp) fun n ts us _ hus hts => ?_
  obtain ⟨r₁, hdot, hr₁⟩ := accept?_eq_some hts
  obtain ⟨r₂, hname, hr₂⟩ := identifier_eq_ok hr₁
  have hopen : accept? "(" r₂ = none := by
    refine accept?_eq_none ?_
    rw [hr₂]
    exact hus.ne (by decide)
  refine ⟨r₂, ?_, hr₂⟩
  simp only [suffix?, hdot, hname, bind, Except.bind, hopen]
  rfl

theorem complete_method {vs : List Word} {name : String} {args : List Expr}
    (h : PhraseComplete ws e .member) (ha : Complete (.items .value ")") vs args) :
    PhraseComplete (ws ++ op "." :: ident name :: op "(" :: vs) (.methodCall e name args) .member := by
  refine member_goes_on h (fun us => stops_primary (by decide) _) (by simp) fun n ts us hn _ hts => ?_
  simp only [List.length_append, List.length_cons] at hn
  obtain ⟨r₁, hdot, hr₁⟩ := accept?_eq_some hts
  obtain ⟨r₂, hname, hr₂⟩ := identifier_eq_ok hr₁
  obtain ⟨r₃, hopen, hr₃⟩ := accept?_eq_some hr₂
  obtain ⟨r₄, hargs, hr₄⟩ := commaList_reads (n := n) ha (by decide) (by omega) r₃ us trivial hr₃
  rw [itemParser] at hargs
  refine ⟨r₄, ?_, hr₄⟩
  simp only [suffix?, hdot, hname, bind, Except.bind, hopen, hargs]
  rfl

theorem complete_index {vs : List Word} {i : Expr} (h : PhraseComplete ws e .member)
    (hi : PhraseComplete vs i .expr) :
    PhraseComplete (ws ++ op "[" :: (vs ++ [op "]"])) (.index e i) .member := by
  refine member_goes_on h (fun us => stops_primary (by decide) _) (by simp) fun n ts us hn _ hts => ?_
  simp only [List.length_append, List.length_cons] at hn
  simp only [List.cons_append, List.append_assoc, List.nil_append] at hts
  have hdot : accept? "." ts = none := by
    refine accept?_eq_none ?_
    rw [hts]
    exact head_cons (by decide)
  obtain ⟨r₁, hopen, hr₁⟩ := accept?_eq_some hts
  obtain ⟨r₂, hindex, hr₂⟩ := expression_reads (n := n) hi (by omega) r₁ _ (stops_cons (by decide)) hr₁
  obtain ⟨r₃, hclose, hr₃⟩ := expect_eq_ok hr₂
  refine ⟨r₃, ?_, hr₃⟩
  simp only [suffix?, hdot, hopen, hindex, bind, Except.bind, hclose]
  rfl

theorem complete_message {vs : List Word} {name : String} {fields : List (String × Expr)}
    (h : PhraseComplete ws e .member) (hname : e.qualifiedName? = some name)
    (hf : Complete (.items .field "\x7d") vs fields) :
    PhraseComplete (ws ++ op "\x7b" :: vs) (.message name fields) .member := by
  refine member_goes_on h (fun us => stops_primary (by decide) _) (by simp) fun n ts us hn _ hts => ?_
  simp only [List.length_append, List.length_cons] at hn
  have hne : ∀ text, op "\x7b" ≠ op text → accept? text ts = none := by
    intro text hne
    refine accept?_eq_none ?_
    rw [hts]
    exact head_cons hne
  obtain ⟨r₁, hopen, hr₁⟩ := accept?_eq_some hts
  obtain ⟨r₂, hfields, hr₂⟩ := commaList_reads (n := n) hf (by decide) (by omega) r₁ us trivial hr₁
  rw [itemParser] at hfields
  refine ⟨r₂, ?_, hr₂⟩
  simp only [suffix?, hne "." (by decide), hne "[" (by decide), hopen, hname, hfields, bind, Except.bind]
  rfl

/-! ### Primaries -/

theorem complete_literal {w : Word} (hl : Grammar.Literal false w e) : PhraseComplete [w] e .primary := by
  intro n _ ts us _ hts
  obtain ⟨t, rest, rfl, ht, hrest⟩ := List.map_eq_cons_iff.mp hts
  refine ⟨rest, ?_, hrest⟩
  have hlt : Grammar.Literal false t.word e := ht ▸ hl
  have hkind : t.kind = w.kind := congrArg Word.kind ht
  cases hl with
  | int =>
    simp only [primary, hkind, (number_ok_iff (Or.inl hkind)).mpr hlt, bind, Except.bind]
    rfl
  | uint =>
    simp only [primary, hkind, (number_ok_iff (Or.inr (Or.inr ⟨hkind, rfl⟩))).mpr hlt, bind, Except.bind]
    rfl
  | double =>
    simp only [primary, hkind, (number_ok_iff (Or.inr (Or.inl hkind))).mpr hlt, bind, Except.bind]
    rfl
  | string =>
    simp only [primary, hkind, (string_ok_iff hkind).mpr hlt, bind, Except.bind]
    rfl
  | bytes =>
    simp only [primary, hkind, (bytes_ok_iff hkind).mpr hlt, bind, Except.bind]
    rfl

theorem kind_text_of_word {t : Token} {kind : TokenKind} {text : String} (h : t.word = ⟨kind, text⟩) :
    t.kind = kind ∧ t.text = text := ⟨congrArg Word.kind h, congrArg Word.text h⟩

theorem complete_keyword {name : String} {v : Value} (hv : keyword? name = some v) :
    PhraseComplete [ident name] (.literal v) .primary := by
  intro n _ ts us _ hts
  obtain ⟨t, rest, rfl, ht, hrest⟩ := List.map_eq_cons_iff.mp hts
  obtain ⟨hkind, htext⟩ := kind_text_of_word ht
  exact ⟨rest, by simp only [primary, hkind, htext, hv], hrest⟩

theorem complete_name {name : String} (h : name ≠ "true" ∧ name ≠ "false" ∧ name ≠ "null") :
    PhraseComplete [ident name] (.ident name) .primary := by
  intro n _ ts us hus hts
  obtain ⟨t, rest, rfl, ht, hrest⟩ := List.map_eq_cons_iff.mp hts
  obtain ⟨hkind, htext⟩ := kind_text_of_word ht
  have hopen : accept? "(" rest = none := by
    refine accept?_eq_none ?_
    rw [hrest]
    exact hus.ne (by decide)
  exact ⟨rest, by simp only [primary, hkind, htext, keyword?_eq_none_iff.mpr h, hopen], hrest⟩

theorem complete_call {name : String} {vs : List Word} {args : List Expr}
    (h : name ≠ "true" ∧ name ≠ "false" ∧ name ≠ "null") (ha : Complete (.items .value ")") vs args) :
    PhraseComplete (ident name :: op "(" :: vs) (.call name args) .primary := by
  intro n hn ts us _ hts
  simp only [List.length_cons] at hn
  obtain ⟨t, rest, rfl, ht, hrest⟩ := List.map_eq_cons_iff.mp hts
  obtain ⟨hkind, htext⟩ := kind_text_of_word ht
  obtain ⟨r₁, hopen, hr₁⟩ := accept?_eq_some hrest
  obtain ⟨r₂, hargs, hr₂⟩ := commaList_reads (n := n) ha (by decide) (by omega) r₁ us trivial hr₁
  rw [itemParser] at hargs
  refine ⟨r₂, ?_, hr₂⟩
  simp only [primary, hkind, htext, keyword?_eq_none_iff.mpr h, hopen, hargs, bind, Except.bind]
  rfl

theorem complete_group (h : PhraseComplete ws e .expr) :
    PhraseComplete (op "(" :: (ws ++ [op ")"])) e .primary := by
  intro n hn ts us _ hts
  simp only [List.length_cons, List.length_append] at hn
  simp only [List.cons_append, List.append_assoc, List.nil_append] at hts
  obtain ⟨t, rest, rfl, ht, hrest⟩ := List.map_eq_cons_iff.mp hts
  obtain ⟨hkind, htext⟩ := kind_text_of_word ht
  obtain ⟨r₁, he, hr₁⟩ := expression_reads (n := n) h (by omega) rest _ (stops_cons (by decide)) hrest
  obtain ⟨r₂, hclose, hr₂⟩ := expect_eq_ok hr₁
  refine ⟨r₂, ?_, hr₂⟩
  simp only [primary, hkind, htext, if_true, he, hclose, bind, Except.bind]
  rfl

theorem complete_list {vs : List Word} {items : List Expr} (h : Complete (.items .value "]") vs items) :
    PhraseComplete (op "[" :: vs) (.list items) .primary := by
  intro n hn ts us _ hts
  rw [List.length_cons] at hn
  obtain ⟨t, rest, rfl, ht, hrest⟩ := List.map_eq_cons_iff.mp hts
  obtain ⟨hkind, htext⟩ := kind_text_of_word ht
  obtain ⟨r₁, hitems, hr₁⟩ := commaList_reads (n := n) h (by decide) (by omega) rest us trivial hrest
  rw [itemParser] at hitems
  refine ⟨r₁, ?_, hr₁⟩
  simp only [primary, hkind, htext, String.reduceEq, if_false, if_true, hitems, bind, Except.bind]
  rfl

theorem complete_map {vs : List Word} {entries : List (Expr × Expr)}
    (h : Complete (.items .entry "\x7d") vs entries) :
    PhraseComplete (op "\x7b" :: vs) (.map entries) .primary := by
  intro n hn ts us _ hts
  rw [List.length_cons] at hn
  obtain ⟨t, rest, rfl, ht, hrest⟩ := List.map_eq_cons_iff.mp hts
  obtain ⟨hkind, htext⟩ := kind_text_of_word ht
  obtain ⟨r₁, hitems, hr₁⟩ := commaList_reads (n := n) h (by decide) (by omega) rest us trivial hrest
  rw [itemParser] at hitems
  refine ⟨r₁, ?_, hr₁⟩
  simp only [primary, hkind, htext, String.reduceEq, if_false, if_true, hitems, bind, Except.bind]
  rfl

/-! ### Every derivation -/

theorem complete {s : Sym} {ws : List Word} {a : s.Tree} (h : Derives s ws a) : Complete s ws a := by
  induction h with
  | disjunction _ ih => exact complete_disjunction ih
  | conditional _ _ _ ihc ihy ihn => exact complete_conditional ihc ihy ihn
  | operand _ ih => exact complete_operand ih
  | binary _ ho _ ihl ihr => exact complete_binary ihl ho ihr
  | not _ ih => exact complete_not ih
  | minus hw _ ih => exact complete_minus hw ih
  | member _ ih => exact complete_member ih
  | negative hw hv => exact complete_negative hw hv
  | primary h ih => exact complete_primary h ih
  | select _ ih => exact complete_select ih
  | method _ _ ih iha => exact complete_method ih iha
  | index _ _ ih ihi => exact complete_index ih ihi
  | message _ hn _ ih ihf => exact complete_message ih hn ihf
  | literal hl => exact complete_literal hl
  | true | false | null => exact complete_keyword rfl
  | name h => exact complete_name h
  | call h _ iha => exact complete_call h iha
  | group _ ih => exact complete_group ih
  | list _ ih => exact complete_list ih
  | map _ ih => exact complete_map ih
  | value _ ih => exact complete_value ih
  | entry _ _ ihk ihv => exact complete_entry ihk ihv
  | field _ ihv => exact complete_field ihv
  | close => exact complete_close
  | last h ih => exact complete_last h ih
  | more h _ ih ihs => exact complete_more h ih ihs

theorem parse_complete {body : List Token} {eof : Token} {e : Expr} (heof : eof.kind = .eof)
    (h : Derives (.phrase .expr) (body.map Token.word) e) : parse (body ++ [eof]) = .ok e := by
  have hlen : (body.map Token.word).length < (body ++ [eof]).length + 1 := by
    rw [List.length_map, List.length_append]
    omega
  have hstop : Stops .expr [eof.word] := stops_cons fun hin => by
    have hop : ∀ w ∈ goesOn .expr, w.kind ≠ .eof := by decide
    exact hop _ hin heof
  obtain ⟨rest, hexpr, hrest⟩ :=
    expression_reads (complete h) hlen (body ++ [eof]) _ hstop List.map_append
  obtain ⟨t, rest, rfl, ht, -⟩ := List.map_eq_cons_iff.mp hrest
  have hkind : t.kind = .eof := (congrArg Word.kind ht).trans heof
  simp only [parse, hexpr, bind, Except.bind, hkind, if_true]
  rfl

/-! ### The parser and the grammar -/

/-- The parser accepts exactly the words that spell a tree, and they spell only one. On any others it ends with an error
    before a bound is used up. -/
theorem parse_ok_iff_derives {body : List Token} {eof : Token} (heof : eof.kind = .eof)
    (hbody : ∀ t ∈ body, t.kind ≠ .eof) :
    (∀ e, parse (body ++ [eof]) = .ok e ↔ Derives (.phrase .expr) (body.map Token.word) e) ∧
      (∀ e e', Derives (.phrase .expr) (body.map Token.word) e →
        Derives (.phrase .expr) (body.map Token.word) e' → e = e') ∧
      ((∃ err, err ≠ .exception .exhausted ∧ parse (body ++ [eof]) = .error err) ↔
        ¬∃ e, Derives (.phrase .expr) (body.map Token.word) e) := by
  have hiff : ∀ e, parse (body ++ [eof]) = .ok e ↔ Derives (.phrase .expr) (body.map Token.word) e :=
    fun e => ⟨parse_sound hbody, parse_complete heof⟩
  refine ⟨hiff, ?_, ?_, ?_⟩
  · intro e e' he he'
    have hok := (hiff e).mpr he
    rw [(hiff e').mpr he'] at hok
    cases hok
    rfl
  · rintro ⟨err, -, herr⟩ ⟨e, he⟩
    rw [(hiff e).mpr he] at herr
    cases herr
  · intro hnone
    cases hparse : parse (body ++ [eof]) with
    | ok e => exact absurd ⟨e, (hiff e).mp hparse⟩ hnone
    | error err =>
      refine ⟨err, ?_, rfl⟩
      rintro rfl
      exact parse_ne_exhausted _ hparse

/-- A minus before an integer belongs to the literal, also in a product. -/
theorem negative_literal_in_product :
    Derives (.phrase .expr) [op "-", ⟨.int, "1"⟩, op "*", ident "x"]
      (.binary .mul (.literal (.int (-1))) (.ident "x")) :=
  ((@parse_ok_iff_derives [⟨.op, "-", 0⟩, ⟨.int, "1", 1⟩, ⟨.op, "*", 3⟩, ⟨.ident, "x", 5⟩] ⟨.eof, "", 6⟩ rfl
    (by decide)).1 _).mp rfl

end CelSuite.Parser
