import CelSuite.Proofs.Except
import CelSuite.Proofs.Syntax.Grammar

/-! # What the parser returns is spelled by the words it took

One lemma for each parser: if it returns a tree and a rest, the words before the rest spell the tree. Each
takes the same of the parser it is built from, so the bound on nesting is the only induction. -/

namespace CelSuite.Parser
open Grammar

/-- What a parser returns is spelled by the words it took. -/
def Sound (s : Sym) (p : Parse s.Tree) : Prop :=
  ∀ ts a rest, p ts = .ok (a, rest) →
    ∃ ws, ts.map Token.word = ws ++ rest.map Token.word ∧ Derives s ws a

variable {expr : Parse Expr} {ts rest : List Token}

/-! ### Single words -/

theorem isOp_iff {t : Token} {text : String} : t.isOp text = true ↔ t.word = op text := by
  simp [Token.isOp, Token.word, op]

theorem isOp_eq_false_iff {t : Token} {text : String} : t.isOp text = false ↔ t.word ≠ op text := by
  rw [← Bool.not_eq_true, isOp_iff]

theorem accept?_some {text : String} (h : accept? text ts = some rest) :
    ts.map Token.word = op text :: rest.map Token.word := by
  cases ts with
  | nil => cases h
  | cons t ts =>
    simp only [accept?] at h
    split at h
    · rename_i ht
      cases h
      rw [List.map_cons, isOp_iff.mp ht]
    · cases h

theorem expect_ok {text : String} (h : expect text ts = .ok rest) :
    ts.map Token.word = op text :: rest.map Token.word := by
  cases ts with
  | nil => cases h
  | cons t ts =>
    simp only [expect] at h
    split at h
    · rename_i ht
      cases h
      rw [List.map_cons, isOp_iff.mp ht]
    · cases h

theorem identifier_ok {name : String} (h : identifier ts = .ok (name, rest)) :
    ts.map Token.word = ident name :: rest.map Token.word := by
  cases ts with
  | nil => cases h
  | cons t ts =>
    simp only [identifier] at h
    split at h
    · rename_i ht
      cases h
      rw [List.map_cons]
      exact congrArg (· :: _) (by simp [Token.word, ident, ht])
    · cases h

/-! ### Comma lists -/

theorem items_sound {i : Item} {item : Parse i.Tree} {close : String} (hi : Sound (.item i) item) :
    ∀ n, Sound (.items i close) (items item close n)
  | 0, ts, as, rest, h => by cases h
  | n + 1, ts, as, rest, h => by
    simp only [items] at h
    split at h
    · rename_i ts' hclose
      cases h
      exact ⟨[op close], accept?_some hclose, .close⟩
    · obtain ⟨⟨a, ts₁⟩, ha, h⟩ := bind_eq_ok.mp h
      obtain ⟨ws, hws, hd⟩ := hi _ _ _ ha
      simp only at h
      split at h
      · rename_i ts₂ hcomma
        obtain ⟨⟨as', ts₃⟩, hs, h⟩ := bind_eq_ok.mp h
        cases h
        obtain ⟨us, hus, hds⟩ := items_sound hi n _ _ _ hs
        refine ⟨ws ++ op "," :: us, ?_, .more hd hds⟩
        rw [hws, accept?_some hcomma, hus]
        simp
      · obtain ⟨ts₂, hclose, h⟩ := bind_eq_ok.mp h
        cases h
        refine ⟨ws ++ [op close], ?_, .last hd⟩
        rw [hws, expect_ok hclose]
        simp

theorem commaList_sound {i : Item} {item : Parse i.Tree} {close : String} (hi : Sound (.item i) item) :
    Sound (.items i close) (commaList item close) := fun ts => items_sound hi _ ts

theorem value_sound (he : Sound (.phrase .expr) expr) : Sound (.item .value) expr := fun ts e rest h => by
  obtain ⟨ws, hws, hd⟩ := he ts e rest h
  exact ⟨ws, hws, .value hd⟩

theorem mapEntry_sound (he : Sound (.phrase .expr) expr) : Sound (.item .entry) (mapEntry expr) := by
  intro ts e rest h
  obtain ⟨⟨k, ts₁⟩, hk, h⟩ := bind_eq_ok.mp h
  obtain ⟨ts₂, hcolon, h⟩ := bind_eq_ok.mp h
  obtain ⟨⟨v, ts₃⟩, hv, h⟩ := bind_eq_ok.mp h
  cases h
  obtain ⟨ks, hks, hdk⟩ := he _ _ _ hk
  obtain ⟨vs, hvs, hdv⟩ := he _ _ _ hv
  refine ⟨ks ++ op ":" :: vs, ?_, .entry hdk hdv⟩
  rw [hks, expect_ok hcolon, hvs]
  simp

theorem fieldInit_sound (he : Sound (.phrase .expr) expr) : Sound (.item .field) (fieldInit expr) := by
  intro ts e rest h
  obtain ⟨⟨name, ts₁⟩, hname, h⟩ := bind_eq_ok.mp h
  obtain ⟨ts₂, hcolon, h⟩ := bind_eq_ok.mp h
  obtain ⟨⟨v, ts₃⟩, hv, h⟩ := bind_eq_ok.mp h
  cases h
  obtain ⟨vs, hvs, hdv⟩ := he _ _ _ hv
  refine ⟨ident name :: op ":" :: vs, ?_, .field hdv⟩
  rw [identifier_ok hname, expect_ok hcolon, hvs]
  simp

/-! ### Literals -/

theorem ofInt_ok_iff {n : Int} {v : Value} :
    Value.ofInt n = .ok v ↔ Value.InIntRange n ∧ v = .int n := by
  unfold Value.ofInt
  split
  · rename_i range
    simp only [Except.ok.injEq, range, true_and, eq_comm]
  · rename_i range
    simp only [reduceCtorEq, range, false_and]

theorem ofUint_ok_iff {n : Int} {v : Value} :
    Value.ofUint n = .ok v ↔ Value.InUintRange n ∧ v = .uint n.toNat := by
  unfold Value.ofUint
  split
  · rename_i range
    simp only [Except.ok.injEq, range, true_and, eq_comm]
  · rename_i range
    simp only [reduceCtorEq, range, false_and]

/-- An integer token is read as an integer first and then has to be in its range. -/
theorem number_integer_iff {t : Token} {negative : Bool} {v : Value} (hk : t.kind ≠ .double) :
    Literal.number t negative = .ok v ↔ ∃ n, Decimal.integer? (Literal.signed negative t.text) = some n ∧
      (if t.kind = .uint then Value.ofUint n else Value.ofInt n) = .ok v := by
  unfold Literal.number
  split
  · exact absurd ‹_› hk
  · simp only [bind_eq_ok, mapError_eq_ok, Integer.ofText_eq_ok, Exception.catching_eq_ok]

theorem number_ok_iff {t : Token} {negative : Bool} {v : Value}
    (hk : t.kind = .int ∨ t.kind = .double ∨ t.kind = .uint ∧ negative = false) :
    Literal.number t negative = .ok v ↔ Grammar.Literal negative t.word (.literal v) := by
  obtain ⟨kind, text, pos⟩ := t
  rcases hk with hk | hk | ⟨hk, rfl⟩
  · cases hk
    rw [number_integer_iff (fun h => TokenKind.noConfusion h)]
    simp only [reduceCtorEq, if_false, ofInt_ok_iff]
    constructor
    · rintro ⟨n, reads, range, rfl⟩
      exact .int reads range
    · rintro ⟨⟩
      rename_i n range reads
      exact ⟨n, reads, range, rfl⟩
  · cases hk
    constructor
    · intro h
      cases h
      exact .double
    · rintro ⟨⟩
      rfl
  · cases hk
    rw [number_integer_iff (fun h => TokenKind.noConfusion h)]
    simp only [if_true, ofUint_ok_iff]
    constructor
    · rintro ⟨n, reads, range, rfl⟩
      obtain ⟨m, rfl⟩ := Int.eq_ofNat_of_zero_le range.1
      exact .uint rfl reads range
    · rintro ⟨⟩
      rename_i n _ range reads
      exact ⟨n, reads, range, rfl⟩

theorem string_ok_iff {t : Token} {us : List Nat} (hk : t.kind = .string) :
    Literal.string t.text = .ok us ↔ Grammar.Literal false t.word (.text us) := by
  obtain ⟨kind, text, pos⟩ := t
  cases hk
  constructor
  · intro h
    obtain ⟨ns, hns, rfl⟩ := map_eq_ok.mp h
    exact .string rfl hns
  · rintro ⟨⟩
    rename_i ns _ hns
    exact map_eq_ok.mpr ⟨ns, hns, rfl⟩

theorem bytes_ok_iff {t : Token} {v : Value} (hk : t.kind = .bytes) :
    Literal.bytes t.text = .ok v ↔ Grammar.Literal false t.word (.literal v) := by
  obtain ⟨kind, text, pos⟩ := t
  cases hk
  constructor
  · intro h
    simp only [Literal.bytes] at h
    split at h
    · rename_i bs hbs
      cases h
      exact .bytes rfl hbs
    · cases h
  · rintro ⟨⟩
    rename_i bs _ hbs
    simp only [Literal.bytes, hbs]

/-! ### Primaries and what follows them -/

theorem keyword?_eq_none_iff {name : String} :
    keyword? name = none ↔ name ≠ "true" ∧ name ≠ "false" ∧ name ≠ "null" := by
  unfold keyword?
  split
  · simp [*]
  · split
    · simp [*]
    · split <;> simp [*]

theorem keyword?_some {name : String} {v : Value} (h : keyword? name = some v) :
    Derives (.phrase .primary) [ident name] (.literal v) := by
  unfold keyword? at h
  split at h
  · rename_i hname
    cases h
    exact hname ▸ .true
  · split at h
    · rename_i hname
      cases h
      exact hname ▸ .false
    · split at h
      · rename_i hname
        cases h
        exact hname ▸ .null
      · cases h

theorem word_of_ident {t : Token} (hk : t.kind = .ident) : t.word = ident t.text := by
  rw [Token.word, ident, hk]

theorem word_of_op {t : Token} {text : String} (hk : t.kind = .op) (ht : t.text = text) :
    t.word = op text := by
  rw [Token.word, op, hk, ht]

/-- A literal is the tree of its own word. -/
theorem literal_sound {α : Type} {t : Token} {x : Except SyntaxError α} {f : α → Expr} {e : Expr}
    (hx : ∀ a, x = .ok a → Grammar.Literal false t.word (f a))
    (h : (do return (f (← x), ts)) = Except.ok (e, rest)) :
    ∃ ws, (t :: ts).map Token.word = ws ++ rest.map Token.word ∧ Derives (.phrase .primary) ws e := by
  obtain ⟨a, ha, hok⟩ := bind_eq_ok.mp h
  cases hok
  exact ⟨[t.word], rfl, .literal (hx a ha)⟩

theorem name_sound (he : Sound (.phrase .expr) expr) {t : Token} {e : Expr} (hk : t.kind = .ident)
    (h : primary expr (t :: ts) = .ok (e, rest)) :
    ∃ ws, (t :: ts).map Token.word = ws ++ rest.map Token.word ∧ Derives (.phrase .primary) ws e := by
  rw [List.map_cons, word_of_ident hk]
  simp only [primary, hk] at h
  split at h
  · rename_i v hv
    cases h
    exact ⟨[ident t.text], rfl, keyword?_some hv⟩
  · rename_i hname
    split at h
    · rename_i ts₁ hopen
      obtain ⟨⟨args, ts₂⟩, hargs, h⟩ := bind_eq_ok.mp h
      cases h
      obtain ⟨us, hus, hd⟩ := commaList_sound (value_sound he) _ _ _ hargs
      refine ⟨ident t.text :: op "(" :: us, ?_, .call (keyword?_eq_none_iff.mp hname) hd⟩
      rw [accept?_some hopen, hus]
      rfl
    · cases h
      exact ⟨[ident t.text], rfl, .name (keyword?_eq_none_iff.mp hname)⟩

theorem bracket_sound (he : Sound (.phrase .expr) expr) {t : Token} {e : Expr} (hk : t.kind = .op)
    (h : primary expr (t :: ts) = .ok (e, rest)) :
    ∃ ws, (t :: ts).map Token.word = ws ++ rest.map Token.word ∧ Derives (.phrase .primary) ws e := by
  rw [List.map_cons]
  simp only [primary, hk] at h
  split at h
  · rename_i ht
    obtain ⟨⟨e', ts₁⟩, he', h⟩ := bind_eq_ok.mp h
    obtain ⟨ts₂, hclose, h⟩ := bind_eq_ok.mp h
    cases h
    obtain ⟨ws, hws, hd⟩ := he _ _ _ he'
    refine ⟨op "(" :: (ws ++ [op ")"]), ?_, .group hd⟩
    rw [word_of_op hk ht, hws, expect_ok hclose]
    simp
  · split at h
    · rename_i ht
      obtain ⟨⟨es, ts₁⟩, hes, h⟩ := bind_eq_ok.mp h
      cases h
      obtain ⟨us, hus, hd⟩ := commaList_sound (value_sound he) _ _ _ hes
      exact ⟨op "[" :: us, by rw [word_of_op hk ht, hus]; rfl, .list hd⟩
    · split at h
      · rename_i ht
        obtain ⟨⟨es, ts₁⟩, hes, h⟩ := bind_eq_ok.mp h
        cases h
        obtain ⟨us, hus, hd⟩ := commaList_sound (mapEntry_sound he) _ _ _ hes
        exact ⟨op "\x7b" :: us, by rw [word_of_op hk ht, hus]; rfl, .map hd⟩
      · cases h

theorem primary_sound (he : Sound (.phrase .expr) expr) : Sound (.phrase .primary) (primary expr) := by
  intro ts e rest h
  cases ts with
  | nil => cases h
  | cons t ts =>
    cases hk : t.kind with
    | ident => exact name_sound he hk h
    | op => exact bracket_sound he hk h
    | int =>
      simp only [primary, hk] at h
      exact literal_sound (fun v => (number_ok_iff (Or.inl hk)).mp) h
    | uint =>
      simp only [primary, hk] at h
      exact literal_sound (fun v => (number_ok_iff (Or.inr (Or.inr ⟨hk, rfl⟩))).mp) h
    | double =>
      simp only [primary, hk] at h
      exact literal_sound (fun v => (number_ok_iff (Or.inr (Or.inl hk))).mp) h
    | string =>
      simp only [primary, hk] at h
      exact literal_sound (fun us => (string_ok_iff hk).mp) h
    | bytes =>
      simp only [primary, hk] at h
      exact literal_sound (fun v => (bytes_ok_iff hk).mp) h
    | eof =>
      simp only [primary, hk] at h
      cases h

theorem suffix?_sound (he : Sound (.phrase .expr) expr) {e e' : Expr}
    (h : suffix? expr e ts = .ok (some (e', rest))) :
    ∃ us, ts.map Token.word = us ++ rest.map Token.word ∧
      ∀ ws, Derives (.phrase .member) ws e → Derives (.phrase .member) (ws ++ us) e' := by
  unfold suffix? at h
  split at h
  · rename_i ts₁ hdot
    obtain ⟨⟨name, ts₂⟩, hname, h⟩ := bind_eq_ok.mp h
    dsimp only at h
    split at h
    · rename_i ts₃ hopen
      obtain ⟨⟨args, ts₄⟩, hargs, h⟩ := bind_eq_ok.mp h
      cases h
      obtain ⟨us, hus, hd⟩ := commaList_sound (value_sound he) _ _ _ hargs
      refine ⟨op "." :: ident name :: op "(" :: us, ?_, fun ws hw => .method hw hd⟩
      rw [accept?_some hdot, identifier_ok hname, accept?_some hopen, hus]
      rfl
    · cases h
      refine ⟨[op ".", ident name], ?_, fun ws hw => .select hw⟩
      rw [accept?_some hdot, identifier_ok hname]
      rfl
  · split at h
    · rename_i ts₁ hopen
      obtain ⟨⟨i, ts₂⟩, hi, h⟩ := bind_eq_ok.mp h
      obtain ⟨ts₃, hclose, h⟩ := bind_eq_ok.mp h
      cases h
      obtain ⟨us, hus, hd⟩ := he _ _ _ hi
      refine ⟨op "[" :: (us ++ [op "]"]), ?_, fun ws hw => .index hw hd⟩
      rw [accept?_some hopen, hus, expect_ok hclose]
      simp
    · split at h
      · rename_i ts₁ name hopen hname
        obtain ⟨⟨fields, ts₂⟩, hfields, h⟩ := bind_eq_ok.mp h
        cases h
        obtain ⟨us, hus, hd⟩ := commaList_sound (fieldInit_sound he) _ _ _ hfields
        refine ⟨op "\x7b" :: us, ?_, fun ws hw => .message hw hname hd⟩
        rw [accept?_some hopen, hus]
        rfl
      · cases h

theorem suffixes_sound (he : Sound (.phrase .expr) expr) :
    ∀ (n : Nat) {e e' : Expr} {ts rest : List Token}, suffixes expr n e ts = .ok (e', rest) →
      ∃ us, ts.map Token.word = us ++ rest.map Token.word ∧
        ∀ ws, Derives (.phrase .member) ws e → Derives (.phrase .member) (ws ++ us) e'
  | 0, e, e', ts, rest, h => by cases h
  | n + 1, e, e', ts, rest, h => by
    obtain ⟨r, hr, h⟩ := bind_eq_ok.mp h
    cases r with
    | none =>
      cases h
      exact ⟨[], rfl, fun ws hw => by rwa [List.append_nil]⟩
    | some r =>
      obtain ⟨e₁, ts₁⟩ := r
      obtain ⟨us₁, hus₁, hd₁⟩ := suffix?_sound he hr
      obtain ⟨us₂, hus₂, hd₂⟩ := suffixes_sound he n h
      refine ⟨us₁ ++ us₂, by rw [hus₁, hus₂, List.append_assoc], fun ws hw => ?_⟩
      rw [← List.append_assoc]
      exact hd₂ _ (hd₁ ws hw)

/-- What begins as a member goes on as one. -/
theorem member_sound (he : Sound (.phrase .expr) expr) {e e' : Expr} {ws : List Word}
    (hd : Derives (.phrase .member) ws e) (h : member expr e ts = .ok (e', rest)) :
    ∃ us, ts.map Token.word = us ++ rest.map Token.word ∧ Derives (.phrase .unary) (ws ++ us) e' := by
  obtain ⟨us, hus, hd'⟩ := suffixes_sound he _ h
  exact ⟨us, hus, .member (hd' ws hd)⟩

theorem unary_sound (he : Sound (.phrase .expr) expr) : Sound (.phrase .unary) (unary expr)
  | [], e, rest, h => by
    rw [unary] at h
    cases h
  | t :: ts, e, rest, h => by
    unfold unary at h
    rw [List.map_cons]
    split at h
    · rename_i hnot
      obtain ⟨⟨e', ts₁⟩, he', h⟩ := bind_eq_ok.mp h
      cases h
      obtain ⟨ws, hws, hd⟩ := unary_sound he ts _ _ he'
      exact ⟨op "!" :: ws, by rw [isOp_iff.mp hnot, hws]; rfl, .not hd⟩
    · split at h
      · rename_i hminus
        rw [isOp_iff.mp hminus]
        cases ts with
        | nil => cases h
        | cons n ts =>
          dsimp only at h
          split at h
          · rename_i hk
            obtain ⟨v, hv, h⟩ := bind_eq_ok.mp h
            have hl := (number_ok_iff (hk.elim Or.inl fun hk => Or.inr (Or.inl hk))).mp hv
            obtain ⟨us, hus, hd⟩ := member_sound he (.negative hk hl) h
            exact ⟨[op "-", n.word] ++ us, by rw [List.map_cons, hus]; rfl, hd⟩
          · rename_i hk
            obtain ⟨⟨e', ts₁⟩, he', h⟩ := bind_eq_ok.mp h
            cases h
            obtain ⟨ws, hws, hd⟩ := unary_sound he (n :: ts) _ _ he'
            cases ws with
            | nil => exact absurd rfl hd.ne_nil
            | cons w ws =>
              have hw : w = n.word := by
                rw [List.map_cons, List.cons_append] at hws
                exact (List.cons.inj hws).1.symm
              exact ⟨op "-" :: w :: ws, by rw [hws]; rfl, .minus (by rw [hw]; exact not_or.mp hk) hd⟩
      · obtain ⟨⟨e', ts₁⟩, he', h⟩ := bind_eq_ok.mp h
        obtain ⟨ws, hws, hd⟩ := primary_sound he _ _ _ he'
        obtain ⟨us, hus, hd⟩ := member_sound he (.primary hd) h
        exact ⟨ws ++ us, by rw [← List.map_cons, hws, hus, List.append_assoc], hd⟩

/-! ### Levels of operators -/

/-- The operators that the chain of a level looks for. -/
def levelOp? : Level → Token → Option BinaryOp
  | .or => orOp?
  | .and => andOp?
  | .relation => relOp?
  | .sum => addOp?
  | .product => mulOp?

/-- The parser of a phrase. A member is read as part of what it is in. -/
def phraseParser (expr : Parse Expr) : Phrase → Parse Expr
  | .expr => conditional expr
  | .chain .or => disjunction expr
  | .chain .and => conjunction expr
  | .chain .relation => relation expr
  | .chain .sum => addition expr
  | .chain .product => multiplication expr
  | .unary | .member => unary expr
  | .primary => primary expr

theorem phraseParser_chain (l : Level) :
    phraseParser expr (.chain l) = chain (levelOp? l) (phraseParser expr l.operand) := by
  cases l <;> rfl

theorem levelOp?_some {l : Level} {t : Token} {o : BinaryOp} (h : levelOp? l t = some o) :
    (t.word, o) ∈ l.operators := by
  have close : ∀ {x y : BinaryOp} {text : String}, t.isOp text = true → some x = some y →
      (t.word, y) = (op text, x) := fun ht hxy => by
    rw [isOp_iff.mp ht, Option.some.inj hxy]
  cases l with
  | or =>
    simp only [levelOp?, orOp?] at h
    split at h
    · rename_i ht
      simp [Level.operators, close ht h]
    · cases h
  | and =>
    simp only [levelOp?, andOp?] at h
    split at h
    · rename_i ht
      simp [Level.operators, close ht h]
    · cases h
  | relation =>
    simp only [levelOp?, relOp?] at h
    repeat
      split at h
      · rename_i ht
        simp [Level.operators, close ht h]
    split at h
    · rename_i ht
      have hw := word_of_ident ht.1
      simp [Level.operators, hw, ht.2, ← Option.some.inj h]
    · cases h
  | sum =>
    simp only [levelOp?, addOp?] at h
    repeat
      split at h
      · rename_i ht
        simp [Level.operators, close ht h]
    cases h
  | product =>
    simp only [levelOp?, mulOp?] at h
    repeat
      split at h
      · rename_i ht
        simp [Level.operators, close ht h]
    cases h

theorem chainFrom_sound {l : Level} {operand : Parse Expr} (ho : Sound (.phrase l.operand) operand) :
    ∀ (n : Nat) {left e : Expr} {ts rest : List Token} {ws : List Word},
      Derives (.phrase (.chain l)) ws left → chainFrom (levelOp? l) operand n left ts = .ok (e, rest) →
        ∃ us, ts.map Token.word = us ++ rest.map Token.word ∧ Derives (.phrase (.chain l)) (ws ++ us) e
  | 0, left, e, ts, rest, ws, hd, h => by cases h
  | n + 1, left, e, [], rest, ws, hd, h => by
    rw [chainFrom] at h
    cases h
    exact ⟨[], rfl, by rwa [List.append_nil]⟩
  | n + 1, left, e, t :: ts, rest, ws, hd, h => by
    rw [chainFrom] at h
    split at h
    · rename_i o ho'
      obtain ⟨⟨right, ts₁⟩, hright, h⟩ := bind_eq_ok.mp h
      obtain ⟨rs, hrs, hdr⟩ := ho _ _ _ hright
      obtain ⟨us, hus, hde⟩ := chainFrom_sound ho n (.binary hd (levelOp?_some ho') hdr) h
      refine ⟨t.word :: (rs ++ us), ?_, by simpa using hde⟩
      rw [List.map_cons, hrs, hus]
      simp
    · cases h
      exact ⟨[], rfl, by rwa [List.append_nil]⟩

theorem chain_sound {l : Level} {operand : Parse Expr} (ho : Sound (.phrase l.operand) operand) :
    Sound (.phrase (.chain l)) (chain (levelOp? l) operand) := by
  intro ts e rest h
  obtain ⟨⟨left, ts₁⟩, hleft, h⟩ := bind_eq_ok.mp h
  obtain ⟨ws, hws, hd⟩ := ho _ _ _ hleft
  obtain ⟨us, hus, hde⟩ := chainFrom_sound ho _ (.operand hd) h
  exact ⟨ws ++ us, by rw [hws, hus, List.append_assoc], hde⟩

theorem disjunction_sound (he : Sound (.phrase .expr) expr) :
    Sound (.phrase (.chain .or)) (disjunction expr) :=
  chain_sound (l := .or) (chain_sound (l := .and) (chain_sound (l := .relation)
    (chain_sound (l := .sum) (chain_sound (l := .product) (unary_sound he)))))

theorem conditional_sound (he : Sound (.phrase .expr) expr) :
    Sound (.phrase .expr) (conditional expr) := by
  intro ts e rest h
  obtain ⟨⟨c, ts₁⟩, hc, h⟩ := bind_eq_ok.mp h
  obtain ⟨cs, hcs, hdc⟩ := disjunction_sound he _ _ _ hc
  dsimp only at h
  split at h
  · cases h
    exact ⟨cs, hcs, .disjunction hdc⟩
  · rename_i ts₂ hquestion
    obtain ⟨⟨y, ts₃⟩, hy, h⟩ := bind_eq_ok.mp h
    obtain ⟨ts₄, hcolon, h⟩ := bind_eq_ok.mp h
    obtain ⟨⟨n, ts₅⟩, hn, h⟩ := bind_eq_ok.mp h
    cases h
    obtain ⟨ys, hys, hdy⟩ := disjunction_sound he _ _ _ hy
    obtain ⟨ns, hns, hdn⟩ := he _ _ _ hn
    refine ⟨cs ++ op "?" :: (ys ++ op ":" :: ns), ?_, .conditional hdc hdy hdn⟩
    rw [hcs, accept?_some hquestion, hys, expect_ok hcolon, hns]
    simp

theorem expression_sound : ∀ n, Sound (.phrase .expr) (expression n)
  | 0, ts, e, rest, h => by cases h
  | n + 1, ts, e, rest, h => conditional_sound (expression_sound n) ts e rest h

/-- The first end mark is the last word when no word before the last one is an end mark. -/
theorem eq_of_append_eof {as bs cs : List Word} {x y : Word} (h : as ++ x :: bs = cs ++ [y])
    (hx : x.kind = .eof) (hcs : ∀ w ∈ cs, w.kind ≠ .eof) : as = cs := by
  rcases List.append_eq_append_iff.mp h with ⟨us, rfl, hus⟩ | ⟨us, rfl, hus⟩
  · cases us with
    | nil => exact (List.append_nil as).symm
    | cons u us =>
      obtain ⟨rfl, -⟩ := List.cons.inj hus
      exact absurd hx (hcs x (by simp))
  · cases us with
    | nil => exact List.append_nil cs
    | cons u us => simp at hus

theorem parse_sound {body : List Token} {eof : Token} {e : Expr} (hbody : ∀ t ∈ body, t.kind ≠ .eof)
    (h : parse (body ++ [eof]) = .ok e) : Derives (.phrase .expr) (body.map Token.word) e := by
  obtain ⟨⟨e', rest⟩, he, h⟩ := bind_eq_ok.mp h
  obtain ⟨ws, hws, hd⟩ := expression_sound _ _ _ _ he
  dsimp only at h
  split at h
  · cases h
  · split at h
    · rename_i t rest ht
      cases h
      have hcs : ∀ w ∈ body.map Token.word, w.kind ≠ .eof := by
        intro w hw
        obtain ⟨t', ht', rfl⟩ := List.mem_map.mp hw
        exact hbody t' ht'
      rw [List.map_append, List.map_cons] at hws
      exact eq_of_append_eof hws.symm ht hcs ▸ hd
    · cases h

end CelSuite.Parser
