import CelSuite.Expr.Parser
import CelSuite.Proofs.Except
import CelSuite.Proofs.Lexing.Literals

/-! # The bounds of the parser are enough

Every parser is given fewer tokens than its bound and leaves fewer than it was given, a loop in each turn too. So no
bound is used up, and a parser that returns no tree met a syntax error, or threw what a literal among its tokens
throws. -/

namespace CelSuite

/-! ### Literals -/

namespace Literal

variable {t : Token} {x : Exception} {cs : List Char}

/-- What a literal throws that nothing catches. -/
inductive Throws (t : Token) (x : Exception) : Prop
  | number (kind : t.kind = .int ∨ t.kind = .uint) (negate : Bool) (h : Literal.number t negate = .error (.exception x))
  | string (kind : t.kind = .string) (h : Literal.string t.text = .error (.exception x))

/-- A number that is out of range is a syntax error, so what is thrown is that the text is no integer. -/
theorem exception_of_number {negate : Bool} (h : number t negate = .error (.exception x)) :
    t.kind ≠ .double ∧ x = .noIntegerText (signed negate t.text) ∧ Decimal.integer? (signed negate t.text) = none := by
  unfold number at h
  split at h
  · cases h
  · rename_i hdouble
    refine ⟨hdouble, ?_⟩
    rcases bind_eq_error.mp h with h | ⟨n, -, h⟩
    · obtain ⟨y, hy, heq⟩ := mapError_eq_error.mp h
      cases heq
      unfold Integer.ofText at hy
      split at hy
      · cases hy
      · rename_i hnone
        cases hy
        exact ⟨rfl, hnone⟩
    · dsimp only at h
      split at h
      · unfold Value.ofUint at h
        split at h <;> cases h
      · unfold Value.ofInt at h
        split at h <;> cases h

/-- What an escape throws is a code point out of range. -/
theorem exception_of_stringEscape (h : stringEscape cs = .error (.exception x)) : ∃ n, x = .invalidCodePoint n := by
  cases cs with
  | nil => cases h
  | cons c cs =>
    rw [stringEscape] at h
    split at h
    · cases h
    · split at h
      · cases h
      · dsimp only at h
        split at h
        · split at h
          · cases h
            exact ⟨_, rfl⟩
          · cases h
        · cases h

theorem exception_of_codePoints (h : codePoints cs = .error (.exception x)) : ∃ n, x = .invalidCodePoint n := by
  induction cs using codePoints.induct with
  | case1 =>
    rw [codePoints] at h
    cases h
  | case2 rest e he =>
    rw [codePoints, he] at h
    cases h
    exact exception_of_stringEscape he
  | case3 rest m k he ih =>
    rw [codePoints_escape he] at h
    exact ih (map_eq_error.mp h)
  | case4 c rest hc ih =>
    have hslash : c ≠ '\\' := fun heq => hc heq
    rw [codePoints_cons hslash] at h
    exact ih (map_eq_error.mp h)

theorem Throws.ne_exhausted (h : Throws t x) : x ≠ .exhausted := by
  rintro rfl
  cases h with
  | number kind negate h => cases (exception_of_number h).2.1
  | string kind h =>
    obtain ⟨n, hn⟩ := exception_of_codePoints (map_eq_error.mp h)
    cases hn

theorem bytes_ne_exception {body : String} : bytes body ≠ .error (.exception x) := by
  intro h
  unfold bytes at h
  split at h <;> cases h

end Literal

/-! ### Parsers -/

namespace Parser

variable {ts us : List Token} {k m : Nat}

/-- Some of the tokens, fewer than `k`. -/
structure Below (ts : List Token) (k : Nat) (us : List Token) : Prop where
  among : us ⊆ ts
  fewer : us.length < k

/-- A step on some tokens: what it returns has a property, and what it throws a literal among them throws. -/
structure Confined {α : Type} (ts : List Token) (P : α → Prop) (x : Except SyntaxError α) : Prop where
  ok : Yields P x
  fault : ∀ y, x = .error (.exception y) → ∃ t ∈ ts, Literal.Throws t y

/-- A parser that is confined to fewer than `k` tokens and takes at least one of those that it is given. -/
def Takes {α : Type} (ts : List Token) (k : Nat) (p : Parse α) : Prop :=
  ∀ {us : List Token}, Below ts k us → Confined ts (fun r => Below ts us.length r.2) (p us)

theorem Below.mono (h : Below ts k us) (hkm : k ≤ m) : Below ts m us := ⟨h.among, Nat.lt_of_lt_of_le h.fewer hkm⟩

theorem Below.self (h : Below ts k us) : Below ts (us.length + 1) us := ⟨h.among, Nat.lt_succ_self _⟩

theorem Below.tail {t : Token} (h : Below ts k (t :: us)) : Below ts (t :: us).length us :=
  ⟨(List.cons_subset.mp h.among).2, Nat.lt_succ_self _⟩

/-- What is left of what is left. -/
theorem Below.of_rest {rest : List Token} (h : Below ts us.length rest) (hus : Below ts k us) : Below ts k rest :=
  h.mono (Nat.le_of_lt hus.fewer)

section
variable {α β : Type} {P P' : α → Prop} {Q : β → Prop} {x : Except SyntaxError α} {f : α → Except SyntaxError β}
  {e : SyntaxError} {a : α}

theorem confined_ok (h : P a) : Confined ts P (.ok a) := by
  refine ⟨yields_ok h, fun n heq => ?_⟩
  cases heq

theorem confined_error (h : ∀ y, e ≠ .exception y) : Confined ts P (.error e) := by
  refine ⟨yields_error, fun y heq => ?_⟩
  cases heq
  exact absurd rfl (h y)

theorem Confined.bind (hx : Confined ts P x) (hf : ∀ a, P a → Confined ts Q (f a)) :
    Confined ts Q (x >>= f) := by
  refine ⟨hx.ok.bind fun a ha => (hf a ha).ok, fun n h => ?_⟩
  rcases bind_eq_error.mp h with h | ⟨a, ha, h⟩
  · exact hx.fault n h
  · exact (hf a (hx.ok a ha)).fault n h

theorem Confined.mono (hx : Confined ts P x) (hP : ∀ a, P a → P' a) : Confined ts P' x :=
  ⟨hx.ok.mono hP, hx.fault⟩

end

variable {expr : Parse Expr} {text : String}

theorem accept?_below {rest : List Token} (hus : Below ts k us) (h : accept? text us = some rest) :
    Below ts us.length rest := by
  cases us with
  | nil => cases h
  | cons u us =>
    rw [accept?] at h
    split at h
    · cases h
      exact hus.tail
    · cases h

theorem expect_confined (hus : Below ts k us) : Confined ts (Below ts us.length) (expect text us) := by
  cases us with
  | nil => exact confined_error nofun
  | cons u us =>
    rw [expect]
    split
    · exact confined_ok hus.tail
    · exact confined_error nofun

theorem identifier_takes : Takes ts k identifier := by
  intro us hus
  cases us with
  | nil => exact confined_error nofun
  | cons u us =>
    rw [identifier]
    split
    · exact confined_ok hus.tail
    · exact confined_error nofun

/-- Every turn takes a token, so as many turns as there are tokens are enough, and one more for the end. -/
theorem items_confined {α : Type} {item : Parse α} {close : String} (hi : Takes ts k item) :
    ∀ n us, us.length < n → Below ts k us → Confined ts (fun r => Below ts us.length r.2) (items item close n us)
  | 0, _, hn, _ => absurd hn (Nat.not_lt_zero _)
  | n + 1, us, hn, hus => by
    unfold items
    split
    · rename_i rest hclose
      exact confined_ok (accept?_below hus hclose)
    · refine (hi hus).bind fun ⟨a, rest⟩ hrest => ?_
      dsimp only
      split
      · rename_i rest' hcomma
        have hrest' := (accept?_below hrest hcomma).of_rest hrest
        have hturns : rest'.length < n := Nat.lt_of_lt_of_le hrest'.fewer (Nat.le_of_lt_succ hn)
        refine (items_confined hi n rest' hturns (hrest'.of_rest hus)).bind fun ⟨as, last⟩ hlast => ?_
        exact confined_ok (hlast.of_rest hrest')
      · exact (expect_confined hrest).bind fun last hlast => confined_ok (hlast.of_rest hrest)

theorem commaList_takes {α : Type} {item : Parse α} {close : String} (hi : Takes ts k item) :
    Takes ts k (commaList item close) := fun {us} hus => items_confined hi _ us (Nat.lt_succ_self _) hus

theorem mapEntry_takes (he : Takes ts k expr) : Takes ts k (mapEntry expr) := fun hus =>
  (he hus).bind fun _ hkey => (expect_confined hkey).bind fun _ hcolon =>
    have hcolon := hcolon.of_rest hkey
    (he (hcolon.of_rest hus)).bind fun _ hvalue => confined_ok (hvalue.of_rest hcolon)

theorem fieldInit_takes (he : Takes ts k expr) : Takes ts k (fieldInit expr) := fun hus =>
  (identifier_takes hus).bind fun _ hname => (expect_confined hname).bind fun _ hcolon =>
    have hcolon := hcolon.of_rest hname
    (he (hcolon.of_rest hus)).bind fun _ hvalue => confined_ok (hvalue.of_rest hcolon)

theorem number_confined {t : Token} (ht : t ∈ ts) (kind : t.kind = .int ∨ t.kind = .uint ∨ t.kind = .double)
    (negate : Bool) : Confined ts (fun _ => True) (Literal.number t negate) := by
  refine ⟨fun _ _ => trivial, fun y h => ⟨t, ht, .number ?_ negate h⟩⟩
  rw [← or_assoc] at kind
  exact kind.resolve_right (Literal.exception_of_number h).1

/-- Whole expressions stand behind a bracket, a point or a mark only, so they are given fewer tokens. -/
theorem primary_takes (he : Takes ts k expr) : Takes ts (k + 1) (primary expr) := by
  intro us hus
  cases us with
  | nil => exact confined_error nofun
  | cons t us =>
    have ht : t ∈ ts := (List.cons_subset.mp hus.among).1
    have hrest := hus.tail
    have hfewer : Below ts k us := hrest.mono (Nat.le_of_lt_succ hus.fewer)
    rw [primary]
    split
    · rename_i hk
      exact (number_confined ht (Or.inl hk) false).bind fun v _ => confined_ok hrest
    · rename_i hk
      exact (number_confined ht (Or.inr (Or.inl hk)) false).bind fun v _ => confined_ok hrest
    · rename_i hk
      exact (number_confined ht (Or.inr (Or.inr hk)) false).bind fun v _ => confined_ok hrest
    · rename_i hk
      have hstring : Confined ts (fun _ => True) (Literal.string t.text) :=
        ⟨fun _ _ => trivial, fun y h => ⟨t, ht, .string hk h⟩⟩
      exact hstring.bind fun units _ => confined_ok hrest
    · have hbytes : Confined ts (fun _ => True) (Literal.bytes t.text) :=
        ⟨fun _ _ => trivial, fun _ h => absurd h Literal.bytes_ne_exception⟩
      exact hbytes.bind fun v _ => confined_ok hrest
    · split
      · exact confined_ok hrest
      · split
        · rename_i rest hopen
          have hargs := (accept?_below hfewer hopen).of_rest hfewer
          exact (commaList_takes he hargs).bind fun _ hlast =>
            confined_ok ((hlast.of_rest (accept?_below hfewer hopen)).of_rest hrest)
        · exact confined_ok hrest
    · split
      · exact (he hfewer).bind fun _ hinner => (expect_confined hinner).bind fun _ hlast =>
          confined_ok ((hlast.of_rest hinner).of_rest hrest)
      · split
        · exact (commaList_takes he hfewer).bind fun _ hlast => confined_ok (hlast.of_rest hrest)
        · split
          · exact (commaList_takes (mapEntry_takes he) hfewer).bind fun _ hlast => confined_ok (hlast.of_rest hrest)
          · exact confined_error nofun
    · exact confined_error nofun

theorem suffix?_confined (he : Takes ts k expr) (e : Expr) (hus : Below ts (k + 1) us) :
    Confined ts (fun r => ∀ a ∈ r, Below ts us.length a.2) (suffix? expr e us) := by
  have some_confined {e : Expr} {rest : List Token} (h : Below ts us.length rest) :
      Confined ts (fun r => ∀ a ∈ r, Below ts us.length a.2) (.ok (some (e, rest))) :=
    confined_ok fun a ha => by
      cases ha
      exact h
  have hfewer {rest : List Token} (h : Below ts us.length rest) : Below ts k rest :=
    h.mono (Nat.le_of_lt_succ hus.fewer)
  unfold suffix?
  split
  · rename_i rest hdot
    have hdot := accept?_below hus hdot
    refine (identifier_takes hdot).bind fun ⟨field, rest⟩ hrest => ?_
    have hrest := hrest.of_rest hdot
    dsimp only
    split
    · rename_i rest' hopen
      have hopen := (accept?_below hrest hopen).of_rest hrest
      exact (commaList_takes he (hfewer hopen)).bind fun _ hlast => some_confined (hlast.of_rest hopen)
    · exact some_confined hrest
  · split
    · rename_i rest hopen
      have hopen := accept?_below hus hopen
      exact (he (hfewer hopen)).bind fun _ hrest =>
        (expect_confined hrest).bind fun _ hlast => some_confined ((hlast.of_rest hrest).of_rest hopen)
    · split
      · rename_i rest name hopen hname
        have hopen := accept?_below hus hopen
        exact (commaList_takes (fieldInit_takes he) (hfewer hopen)).bind fun _ hlast =>
          some_confined (hlast.of_rest hopen)
      · refine confined_ok fun a ha => ?_
        cases ha

theorem suffixes_confined (he : Takes ts k expr) : ∀ n e us, us.length < n → Below ts (k + 1) us →
    Confined ts (fun r => Below ts (us.length + 1) r.2) (suffixes expr n e us)
  | 0, _, _, hn, _ => absurd hn (Nat.not_lt_zero _)
  | n + 1, e, us, hn, hus => by
    refine (suffix?_confined he e hus).bind fun r hr => ?_
    cases r with
    | none => exact confined_ok hus.self
    | some a =>
      have ha := hr a rfl
      have hturns : a.2.length < n := Nat.lt_of_lt_of_le ha.fewer (Nat.le_of_lt_succ hn)
      exact (suffixes_confined he n a.1 a.2 hturns (ha.of_rest hus)).mono fun r hlast =>
        hlast.mono (Nat.succ_le_succ (Nat.le_of_lt ha.fewer))

theorem member_confined (he : Takes ts k expr) (e : Expr) (hus : Below ts (k + 1) us) :
    Confined ts (fun r => Below ts (us.length + 1) r.2) (member expr e us) :=
  suffixes_confined he _ e us (Nat.lt_succ_self _) hus

theorem unary_takes (he : Takes ts k expr) : Takes ts (k + 1) (unary expr) := by
  intro us hus
  induction us with
  | nil => exact confined_error nofun
  | cons t us ih =>
    have hrest := hus.tail
    replace ih := ih (hrest.of_rest hus)
    unfold unary
    dsimp only
    split
    · exact ih.bind fun _ hlast => confined_ok (hlast.of_rest hrest)
    · split
      · split
        · rename_i n rest
          split
          · rename_i hk
            have hkind : n.kind = .int ∨ n.kind = .uint ∨ n.kind = .double := hk.imp_right Or.inr
            have hn : n ∈ ts := (List.cons_subset.mp hrest.among).1
            have hafter := hrest.tail.of_rest hrest
            exact (number_confined hn hkind true).bind fun v _ =>
              (member_confined he _ (hafter.of_rest hus)).mono fun _ hlast => hlast.mono hafter.fewer
          · exact ih.bind fun _ hlast => confined_ok (hlast.of_rest hrest)
        · exact confined_error nofun
      · exact (primary_takes he hus).bind fun a ha =>
          (member_confined he a.1 (ha.of_rest hus)).mono fun _ hlast => hlast.mono ha.fewer

theorem chainFrom_confined {op? : Token → Option BinaryOp} {operand : Parse Expr} (ho : Takes ts k operand) :
    ∀ n e us, us.length < n → Below ts k us →
      Confined ts (fun r => Below ts (us.length + 1) r.2) (chainFrom op? operand n e us)
  | 0, _, _, hn, _ => absurd hn (Nat.not_lt_zero _)
  | n + 1, e, [], _, hus => by
    unfold chainFrom
    exact confined_ok hus.self
  | n + 1, e, t :: us, hn, hus => by
    unfold chainFrom
    split
    · have hrest := hus.tail
      refine (ho (hrest.of_rest hus)).bind fun ⟨right, rest⟩ hright => ?_
      have hright := hright.of_rest hrest
      have hturns : rest.length < n := Nat.lt_of_lt_of_le hright.fewer (Nat.le_of_lt_succ hn)
      exact (chainFrom_confined ho n _ rest hturns (hright.of_rest hus)).mono fun _ hlast =>
        hlast.mono (Nat.succ_le_succ (Nat.le_of_lt hright.fewer))
    · exact confined_ok hus.self

theorem chain_takes {op? : Token → Option BinaryOp} {operand : Parse Expr} (ho : Takes ts k operand) :
    Takes ts k (chain op? operand) := by
  intro us hus
  refine (ho hus).bind fun (left, rest) hrest => ?_
  exact (chainFrom_confined ho _ left rest (Nat.lt_succ_self _) (hrest.of_rest hus)).mono fun _ hlast =>
    hlast.mono hrest.fewer

theorem disjunction_takes (he : Takes ts k expr) : Takes ts (k + 1) (disjunction expr) :=
  chain_takes (chain_takes (chain_takes (chain_takes (chain_takes (unary_takes he)))))

theorem conditional_takes (he : Takes ts k expr) : Takes ts (k + 1) (conditional expr) := by
  intro us hus
  refine (disjunction_takes he hus).bind fun ⟨cond, rest⟩ hrest => ?_
  dsimp only
  split
  · exact confined_ok hrest
  · rename_i rest' hmark
    have hmark := (accept?_below hrest hmark).of_rest hrest
    refine (disjunction_takes he (hmark.of_rest hus)).bind fun ⟨yes, rest⟩ hyes => ?_
    have hyes := hyes.of_rest hmark
    refine (expect_confined hyes).bind fun rest hcolon => ?_
    have hcolon := hcolon.of_rest hyes
    exact (he (hcolon.mono (Nat.le_of_lt_succ hus.fewer))).bind fun _ hno => confined_ok (hno.of_rest hcolon)

/-- By induction on the bound: what is nested has a bound less by one, and fewer tokens. -/
theorem expression_takes : ∀ n, Takes ts n (expression n)
  | 0, _, hus => absurd hus.fewer (Nat.not_lt_zero _)
  | n + 1, _, hus => conditional_takes (expression_takes n) hus

theorem parse_confined (ts : List Token) : Confined ts (fun _ => True) (parse ts) := by
  have hall : Below ts (ts.length + 1) ts := ⟨List.Subset.refl ts, Nat.lt_succ_self _⟩
  refine (expression_takes _ hall).bind fun ⟨e, rest⟩ _ => ?_
  dsimp only
  split
  · exact confined_error nofun
  · split
    · exact confined_ok trivial
    · exact confined_error nofun

/-- No bound is used up. -/
theorem parse_ne_exhausted (ts : List Token) : parse ts ≠ .error (.exception .exhausted) := fun h => by
  obtain ⟨t, -, hthrows⟩ := (parse_confined ts).fault _ h
  exact hthrows.ne_exhausted rfl

end Parser

end CelSuite
