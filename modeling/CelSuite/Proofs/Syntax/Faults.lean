import CelSuite.Proofs.Escapes.Literals
import CelSuite.Proofs.Lexing.Lexemes
import CelSuite.Proofs.Text.Digits

/-! # Code points out of range

The one failure to read a text that is no syntax error is a code point out of range. The lexer throws nothing, and it
makes an integer of digits only, which has a value. So what is thrown is met in the body of a string literal, where an
escape with eight digits writes it. -/

namespace CelSuite

variable {n : Nat} {x : Exception}

/-! ### In the body of a string literal -/

namespace Literal
open Text

/-- A body in which an escape with eight digits, after escapes and characters that are in order, writes a code
    point out of range. -/
inductive Overflows (n : Nat) : List Char → Prop
  | here {digits after : List Char} (hlen : digits.length = 8) (hhex : ∀ d ∈ digits, (hexValue? d).isSome)
      (hn : ofHexDigits digits = n) (range : 0x10FFFF < n) : Overflows n ('\\' :: 'U' :: (digits ++ after))
  | char {c : Char} {cs : List Char} (hc : c ≠ '\\') (h : Overflows n cs) : Overflows n (c :: cs)
  | escape {m k : Nat} {cs : List Char} (he : stringEscape cs = .ok (m, k)) (h : Overflows n (cs.drop k)) :
      Overflows n ('\\' :: cs)

variable {cs : List Char}

/-- Two and four digits write no code point out of range. -/
theorem eq_of_escapeWidth? {c : Char} {w : Nat} (hw : escapeWidth? c = some w) (hlarge : 0x10FFFF < Nat.pow 16 w) :
    c = 'U' ∧ w = 8 := by
  unfold escapeWidth? at hw
  split at hw
  · cases hw
    exact absurd hlarge (by decide)
  · split at hw
    · cases hw
      exact absurd hlarge (by decide)
    · split at hw
      · rename_i hc
        cases hw
        exact ⟨hc, rfl⟩
      · cases hw

theorem overflows_of_stringEscape (h : stringEscape cs = .error (.invalidCodePoint n)) :
    Overflows n ('\\' :: cs) := by
  cases cs with
  | nil => cases h
  | cons c cs =>
    rw [stringEscape] at h
    cases hs : simpleEscape? c with
    | some m =>
      rw [hs] at h
      cases h
    | none =>
      rw [hs] at h
      dsimp only at h
      cases hw : escapeWidth? c with
      | none =>
        rw [hw] at h
        cases h
      | some w =>
        rw [hw] at h
        dsimp only at h
        split at h
        · rename_i hdigits
          obtain ⟨hlen, hhex⟩ := hdigits
          split at h
          · rename_i hlarge
            cases h
            -- A value that large takes more than four digits.
            have hbound := ofHexDigits_lt (cs.take w)
            rw [hlen] at hbound
            obtain ⟨rfl, rfl⟩ := eq_of_escapeWidth? hw (Nat.lt_trans hlarge hbound)
            have hover : Overflows (ofHexDigits (cs.take 8)) ('\\' :: 'U' :: (cs.take 8 ++ cs.drop 8)) :=
              .here hlen (List.all_eq_true.mp hhex) rfl hlarge
            rwa [List.take_append_drop] at hover
          · cases h
        · cases h

theorem stringEscape_eight {digits : List Char} (hlen : digits.length = 8)
    (hhex : ∀ d ∈ digits, (hexValue? d).isSome) (range : 0x10FFFF < ofHexDigits digits) (after : List Char) :
    stringEscape ('U' :: (digits ++ after)) = .error (.invalidCodePoint (ofHexDigits digits)) := by
  have htake : (digits ++ after).take 8 = digits := List.take_left' hlen
  have hsimple : simpleEscape? 'U' = none := rfl
  have hwidth : escapeWidth? 'U' = some 8 := rfl
  rw [stringEscape, hsimple, hwidth]
  dsimp only
  rw [htake, if_pos ⟨hlen, List.all_eq_true.mpr hhex⟩, if_pos range]

theorem codePoints_eq_invalidCodePoint_iff :
    codePoints cs = .error (.invalidCodePoint n) ↔ Overflows n cs := by
  constructor
  · intro h
    induction cs using codePoints.induct with
    | case1 =>
      rw [codePoints] at h
      cases h
    | case2 rest e he =>
      rw [codePoints, he] at h
      cases h
      exact overflows_of_stringEscape he
    | case3 rest m k he ih =>
      rw [codePoints_escape he] at h
      exact .escape he (ih (map_eq_error.mp h))
    | case4 c rest hc ih =>
      have hslash : c ≠ '\\' := fun heq => hc heq
      rw [codePoints_cons hslash] at h
      exact .char hslash (ih (map_eq_error.mp h))
  · intro h
    induction h with
    | here hlen hhex hn range =>
      subst hn
      rw [codePoints, stringEscape_eight hlen hhex range]
    | char hc _ ih =>
      rw [codePoints_cons hc]
      exact map_eq_error.mpr ih
    | escape he _ ih =>
      rw [codePoints_escape he]
      exact map_eq_error.mpr ih

theorem overflows_of_string {body : String} (h : string body = .error (.invalidCodePoint n)) :
    Overflows n body.toList :=
  codePoints_eq_invalidCodePoint_iff.mp (map_eq_error.mp h)

end Literal

/-! ### In the lexer -/

namespace Lexer

variable {pos : Nat} {c : Char} {cs : List Char} {l : Lexeme}

theorem number_ne_exception : number pos cs ≠ .error (.exception x) := by
  intro h
  unfold number at h
  dsimp only at h
  split at h
  · cases h
  · split at h <;> cases h

theorem quoted_ne_exception {kind : TokenKind} {mark : List Char} {q : Char} :
    quoted kind mark pos q cs ≠ .error (.exception x) := by
  intro h
  unfold quoted at h
  split at h <;> cases h

theorem plain_ne_exception : lexeme.plain pos c cs ≠ .error (.exception x) := by
  unfold lexeme.plain
  split
  · exact quoted_ne_exception
  · split
    · exact number_ne_exception
    · split
      · intro h
        cases h
      · unfold operator
        intro h
        split at h <;> cases h

theorem lexeme_ne_exception : lexeme pos c cs ≠ .error (.exception x) := by
  unfold lexeme
  split
  · split
    · exact quoted_ne_exception
    · exact plain_ne_exception
  · exact plain_ne_exception

theorem tokens_ne_exception : tokens pos cs ≠ .error (.exception x) := by
  induction pos, cs using tokens.induct with
  | case1 pos =>
    rw [tokens]
    intro h
    cases h
  | case2 pos c cs hc ih =>
    rw [tokens, if_pos hc]
    exact ih
  | case3 pos c cs hc e he =>
    rw [tokens, if_neg hc, he]
    rintro ⟨⟩
    exact lexeme_ne_exception he
  | case4 pos c cs hc l hl ih =>
    rw [tokens, if_neg hc, hl]
    exact mt map_eq_error.mp ih

/-- The digits of an integer. -/
theorem digits_of_number (hc : Text.isDigit c = true) (h : number pos (c :: cs) = .ok l) (hk : l.kind ≠ .double) :
    l.text ≠ [] ∧ ∀ d ∈ l.text, Text.isDigit d = true := by
  unfold number at h
  dsimp only at h
  split at h
  · rename_i hint
    cases h
    dsimp only
    rw [hint.2, hint.1, List.append_nil, List.append_nil, List.takeWhile_cons, if_pos hc]
    exact ⟨List.cons_ne_nil _ _, List.forall_mem_cons.mpr ⟨hc, List.all_eq_true.mp List.all_takeWhile⟩⟩
  · split at h
    · cases h
      exact absurd rfl hk
    · cases h

theorem Leads.digits (h : Leads cs l) (hk : l.kind = .int ∨ l.kind = .uint) :
    l.text ≠ [] ∧ ∀ d ∈ l.text, Text.isDigit d = true := by
  cases h with
  | number hc hn =>
    refine digits_of_number hc hn ?_
    rcases hk with hk | hk <;> simp [hk]
  | string | bytes | ident | operator => simp at hk

/-- The tokens of a text, whose integers consist of digits. -/
theorem digits_of_tokens {ts : List Token} (h : tokens pos cs = .ok ts) :
    ∀ t ∈ ts, t.kind = .int ∨ t.kind = .uint → ∃ ds, ds ≠ [] ∧ (∀ d ∈ ds, Text.isDigit d = true) ∧
      t.text = String.ofList ds := by
  obtain ⟨ls, hls, body, eof, rfl, heof, hbody⟩ := lexes_of_tokens h
  intro t ht hk
  rcases List.mem_append.mp ht with ht | ht
  · have hmem : t.word ∈ ls.map Lexeme.word := hbody ▸ List.mem_map_of_mem ht
    obtain ⟨l, hl, hword⟩ := List.mem_map.mp hmem
    have hkind : l.kind = t.kind := congrArg Word.kind hword
    obtain ⟨cs', hleads⟩ := hls.leads l hl
    obtain ⟨hne, hds⟩ := hleads.digits (hkind.symm ▸ hk)
    exact ⟨l.text, hne, hds, (congrArg Word.text hword).symm⟩
  · cases List.mem_singleton.mp ht
    simp [heof] at hk

end Lexer

/-! ### In a text -/

/-- Digits have a value, with a sign too. -/
theorem Literal.number_ne_exception {t : Token} {ds : List Char} (hne : ds ≠ [])
    (hds : ∀ d ∈ ds, Text.isDigit d = true) (ht : t.text = String.ofList ds) (negate : Bool) :
    number t negate ≠ .error (.exception x) := by
  intro h
  have hnone := (exception_of_number h).2.2
  rw [ht] at hnone
  cases negate with
  | true => cases (Decimal.integer?_minus hds hne).symm.trans hnone
  | false => cases (Decimal.integer?_digits hds hne).symm.trans hnone

/-- What is thrown while a text is read is a code point out of range, and a string literal of the text writes it. -/
theorem Evaluator.overflows_of_parse {text : String} (h : parse text = .error (.exception x)) :
    ∃ n, x = .invalidCodePoint n ∧ ∃ ts, Lexer.tokenize text = .ok ts ∧
      ∃ t ∈ ts, t.kind = .string ∧ Literal.Overflows n t.text.toList := by
  rcases bind_eq_error.mp h with h | ⟨ts, hts, h⟩
  · exact absurd h Lexer.tokens_ne_exception
  · obtain ⟨t, ht, hthrows⟩ := (Parser.parse_confined ts).fault x h
    cases hthrows with
    | number kind negate hnumber =>
      obtain ⟨ds, hne, hds, htext⟩ := Lexer.digits_of_tokens hts t ht kind
      exact absurd hnumber (Literal.number_ne_exception hne hds htext negate)
    | string kind hstring =>
      obtain ⟨n, rfl⟩ := Literal.exception_of_codePoints (map_eq_error.mp hstring)
      exact ⟨n, rfl, ts, hts, t, ht, kind, Literal.overflows_of_string hstring⟩

end CelSuite
