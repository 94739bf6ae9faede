import CelSuite.Attempt
import CelSuite.Proofs.Syntax.Completeness

/-! # The lexical grammar

Which lexemes a text consists of, as rules without positions, and that the lexer splits a text by them.
Together with the rules of the parser they say which texts are expressions, and which tree each has. -/

namespace CelSuite.Lexer

variable {c : Char} {cs rest : List Char} {l : Lexeme} {ls : List Lexeme} {pos : Nat}

/-- The word of a lexeme. -/
def Lexeme.word (l : Lexeme) : Word := ⟨l.kind, String.ofList l.text⟩

/-- The quote around a literal. -/
def Lexeme.delimiter? (l : Lexeme) : Option Char :=
  if l.kind = .string ∨ l.kind = .bytes then l.spelling.getLast? else none

/-- What can stand between two quotes: a backslash takes the character after it along, and the quote does
    not stand alone. -/
inductive Body (q : Char) : List Char → Prop where
  | nil : Body q []
  | escape {c : Char} {body : List Char} (h : Body q body) : Body q ('\\' :: c :: body)
  | plain {c : Char} {body : List Char} (hc : c ≠ '\\') (hq : c ≠ q) (h : Body q body) : Body q (c :: body)

/-- The lexeme at the start of a text. -/
inductive Leads : List Char → Lexeme → Prop where
  | string {q : Char} {body rest : List Char} (hq : isQuote q = true) (hb : Body q body) :
      Leads (q :: (body ++ q :: rest)) ⟨.string, body, q :: (body ++ [q])⟩
  | bytes {b q : Char} {body rest : List Char} (hm : b = 'b' ∨ b = 'B') (hq : isQuote q = true)
      (hb : Body q body) : Leads (b :: q :: (body ++ q :: rest)) ⟨.bytes, body, b :: q :: (body ++ [q])⟩
  | number {c : Char} {cs : List Char} {l : Lexeme} (hc : Text.isDigit c = true)
      (hn : Lexer.number 0 (c :: cs) = .ok l) : Leads (c :: cs) l
  | ident {c : Char} {cs : List Char} (hc : isIdentStart c = true)
      (hm : c = 'b' ∨ c = 'B' → ∀ q ∈ cs.head?, isQuote q = false) :
      Leads (c :: cs) ⟨.ident, c :: cs.takeWhile isIdentChar, c :: cs.takeWhile isIdentChar⟩
  | operator {c : Char} {cs op : List Char} (hq : isQuote c = false) (hd : Text.isDigit c = false)
      (hi : isIdentStart c = false) (hop : operators.find? (·.isPrefixOf (c :: cs)) = some op) :
      Leads (c :: cs) ⟨.op, op, op⟩

/-- The lexemes of a text, with blanks between them. -/
inductive Lexes : List Char → List Lexeme → Prop where
  | nil : Lexes [] []
  | blank {c : Char} {cs : List Char} {ls : List Lexeme} (hc : Text.isBlank c = true) (h : Lexes cs ls) :
      Lexes (c :: cs) ls
  | lexeme {rest : List Char} {l : Lexeme} {ls : List Lexeme} (hl : Leads (l.spelling ++ rest) l)
      (h : Lexes rest ls) : Lexes (l.spelling ++ rest) (l :: ls)

theorem Lexes.of_leads (hl : Leads cs l) (hcs : cs = l.spelling ++ rest) (h : Lexes rest ls) :
    Lexes cs (l :: ls) := by
  subst hcs
  exact .lexeme hl h

/-! ### The lexeme at the start of a text -/

theorem isQuote_iff : isQuote c = true ↔ c = '"' ∨ c = '\x27' := by
  simp [isQuote]

theorem not_quote_of_isDigit (h : Text.isDigit c = true) : isQuote c = false := by
  rw [← Bool.not_eq_true, isQuote_iff]
  rintro (rfl | rfl) <;> cases h

theorem not_quote_of_isIdentStart (h : isIdentStart c = true) : isQuote c = false := by
  rw [← Bool.not_eq_true, isQuote_iff]
  rintro (rfl | rfl) <;> cases h

theorem not_mark_of_isDigit (h : Text.isDigit c = true) : ¬(c = 'b' ∨ c = 'B') := by
  rintro (rfl | rfl) <;> cases h

theorem not_digit_of_isIdentStart (h : isIdentStart c = true) : Text.isDigit c = false := by
  rw [← Bool.not_eq_true]
  intro hd
  simp only [isIdentStart, Text.isDigit, Bool.or_eq_true, Bool.and_eq_true, decide_eq_true_eq, Char.le_def,
    UInt32.le_iff_toNat_le, beq_iff_eq] at h hd
  rcases h with (h | h) | rfl
  · exact absurd (Nat.le_trans h.1 hd.2) (by decide)
  · exact absurd (Nat.le_trans h.1 hd.2) (by decide)
  · exact absurd hd.2 (by decide)

/-- A number does not depend on its position. -/
theorem number_pos (h : number pos cs = .ok l) (pos' : Nat) : number pos' cs = .ok l := by
  unfold number at h ⊢
  dsimp only at h ⊢
  split at h
  · rename_i hint
    rw [if_pos hint]
    exact h
  · rename_i hint
    rw [if_neg hint]
    split at h
    · rename_i hsuffix
      rw [if_pos hsuffix]
      exact h
    · cases h

theorem ne_backslash_of_isQuote (h : isQuote c = true) : c ≠ '\\' := by
  rintro rfl
  cases h

theorem quotedBody?_append {q : Char} {body : List Char} (hq : q ≠ '\\') (h : Body q body)
    (rest : List Char) : quotedBody? q (body ++ q :: rest) = some body := by
  induction h with
  | nil =>
    rw [List.nil_append, quotedBody?, if_pos rfl]
    · exact fun _ _ hslash => absurd hslash hq
    · exact fun hslash => absurd hslash hq
  | escape h ih =>
    rw [List.cons_append, List.cons_append, quotedBody?, ih]
    rfl
  | plain hc hne h ih =>
    rw [List.cons_append, quotedBody?, if_neg hne, ih]
    · rfl
    · exact fun _ _ hslash => absurd hslash hc
    · exact fun hslash => absurd hslash hc

theorem quotedBody?_some {q : Char} {body : List Char} (h : quotedBody? q cs = some body) :
    Body q body ∧ ∃ rest, cs = body ++ q :: rest := by
  induction cs using quotedBody?.induct q generalizing body with
  | case1 c cs ih =>
    obtain ⟨b, hb, rfl⟩ := Option.map_eq_some_iff.mp h
    obtain ⟨hbody, rest, rfl⟩ := ih hb
    exact ⟨.escape hbody, rest, rfl⟩
  | case2 => cases h
  | case3 cs hc hnil =>
    rw [quotedBody?, if_pos rfl] at h
    · cases h
      exact ⟨.nil, cs, rfl⟩
    · exact hc
    · exact hnil
  | case4 c cs hc hnil hne ih =>
    rw [quotedBody?, if_neg hne] at h
    · obtain ⟨b, hb, rfl⟩ := Option.map_eq_some_iff.mp h
      obtain ⟨hbody, rest, rfl⟩ := ih hb
      refine ⟨.plain ?_ hne hbody, rest, rfl⟩
      rintro rfl
      cases hcs : b ++ q :: rest with
      | nil => simp at hcs
      | cons d ds => exact hc d ds rfl hcs
    · exact hc
    · exact hnil
  | case5 => cases h

theorem quoted_ok {kind : TokenKind} {mark : List Char} {q : Char}
    (h : quoted kind mark pos q cs = .ok l) :
    ∃ body, quotedBody? q cs = some body ∧ l = ⟨kind, body, mark ++ q :: (body ++ [q])⟩ := by
  unfold quoted at h
  split at h
  · rename_i body hbody
    cases h
    exact ⟨body, hbody, rfl⟩
  · cases h

theorem operator_ok (h : operator pos c cs = .ok l) :
    ∃ op, operators.find? (·.isPrefixOf (c :: cs)) = some op ∧ l = ⟨.op, op, op⟩ := by
  unfold operator at h
  split at h
  · rename_i op hop
    cases h
    exact ⟨op, hop, rfl⟩
  · cases h

/-- Without the mark of a bytes literal. -/
theorem leads_of_plain (hm : c = 'b' ∨ c = 'B' → ∀ q ∈ cs.head?, isQuote q = false)
    (h : lexeme.plain pos c cs = .ok l) : Leads (c :: cs) l := by
  unfold lexeme.plain at h
  split at h
  · rename_i hq
    obtain ⟨body, hquoted, rfl⟩ := quoted_ok h
    obtain ⟨hbody, rest, rfl⟩ := quotedBody?_some hquoted
    exact .string hq hbody
  split at h
  · rename_i hd
    exact .number hd (number_pos h 0)
  split at h
  · rename_i hi
    cases h
    exact .ident hi hm
  · rename_i hq hd hi
    obtain ⟨op, hop, rfl⟩ := operator_ok h
    exact .operator (by simpa using hq) (by simpa using hd) (by simpa using hi) hop

theorem leads_of_lexeme (h : lexeme pos c cs = .ok l) : Leads (c :: cs) l := by
  unfold lexeme at h
  split at h
  · rename_i q cs'
    split at h
    · rename_i hm
      obtain ⟨body, hquoted, rfl⟩ := quoted_ok h
      obtain ⟨hbody, rest, rfl⟩ := quotedBody?_some hquoted
      exact .bytes hm.1 hm.2 hbody
    · rename_i hm
      refine leads_of_plain (fun hc q' hq' => ?_) h
      cases hq'
      simpa [hc] using hm
  · exact leads_of_plain (fun _ q hq => by cases hq) h

theorem lexeme_of_leads (h : Leads (c :: cs) l) : lexeme pos c cs = .ok l := by
  have plain (hm : c = 'b' ∨ c = 'B' → ∀ q ∈ cs.head?, isQuote q = false) :
      lexeme pos c cs = lexeme.plain pos c cs := by
    unfold lexeme
    split
    · rename_i q cs'
      rw [if_neg]
      rintro ⟨hc, hq⟩
      rw [hm hc q rfl] at hq
      cases hq
    · rfl
  cases h with
  | string hq hb =>
    have hbody := quotedBody?_append (ne_backslash_of_isQuote hq) hb
    rw [plain (by rintro (rfl | rfl) <;> cases hq), lexeme.plain, if_pos hq, quoted, hbody]
    rfl
  | bytes hm hq hb =>
    have hbody := quotedBody?_append (ne_backslash_of_isQuote hq) hb
    unfold lexeme
    dsimp only
    rw [if_pos ⟨hm, hq⟩, quoted, hbody]
    rfl
  | number hc hn =>
    rw [plain fun hm => absurd hm (not_mark_of_isDigit hc), lexeme.plain, not_quote_of_isDigit hc,
      if_neg Bool.false_ne_true, if_pos hc]
    exact number_pos hn pos
  | ident hc hm =>
    rw [plain hm, lexeme.plain, not_quote_of_isIdentStart hc, if_neg Bool.false_ne_true,
      not_digit_of_isIdentStart hc, if_neg Bool.false_ne_true, if_pos hc]
  | operator hq hd hi hop =>
    have hm : c = 'b' ∨ c = 'B' → ∀ q ∈ cs.head?, isQuote q = false := by
      rintro (rfl | rfl) <;> cases hi
    rw [plain hm, lexeme.plain, hq, if_neg Bool.false_ne_true, hd, if_neg Bool.false_ne_true, hi,
      if_neg Bool.false_ne_true, operator, hop]

/-! ### What a lexeme takes up -/

theorem fractionPart_starts (cs : List Char) : fractionPart cs <+: cs := by
  unfold fractionPart
  split
  · split
    · exact List.nil_prefix
    · exact List.cons_prefix_cons.mpr ⟨rfl, List.takeWhile_prefix _⟩
  · exact List.nil_prefix

theorem exponentPart_starts (cs : List Char) : exponentPart cs <+: cs := by
  unfold exponentPart
  split
  · split
    · split
      · split
        · split
          · exact List.nil_prefix
          · exact List.cons_prefix_cons.mpr ⟨rfl, List.cons_prefix_cons.mpr ⟨rfl, List.takeWhile_prefix _⟩⟩
        · split
          · exact List.nil_prefix
          · exact List.cons_prefix_cons.mpr ⟨rfl, List.takeWhile_prefix _⟩
      · exact List.nil_prefix
    · exact List.nil_prefix
  · exact List.nil_prefix

theorem suffixPart_starts (cs : List Char) : suffixPart cs <+: cs := by
  unfold suffixPart
  split
  · split
    · exact List.cons_prefix_cons.mpr ⟨rfl, List.nil_prefix⟩
    · exact List.nil_prefix
  · exact List.nil_prefix

/-- What is left after a prefix. -/
theorem append_drop_of_starts {ps : List Char} (h : ps <+: cs) : ps ++ cs.drop ps.length = cs := by
  obtain ⟨rest, rfl⟩ := h
  rw [List.drop_left]

theorem number_starts (h : number pos cs = .ok l) : l.spelling <+: cs := by
  unfold number at h
  dsimp only at h
  have hwhole := List.takeWhile_append_dropWhile (p := Text.isDigit) (l := cs)
  have hfraction := append_drop_of_starts (fractionPart_starts (cs.dropWhile Text.isDigit))
  generalize cs.dropWhile Text.isDigit = r at *
  have hexponent := append_drop_of_starts (exponentPart_starts (r.drop (fractionPart r).length))
  generalize r.drop (fractionPart r).length = r₂ at *
  have hsuffix := append_drop_of_starts (suffixPart_starts (r₂.drop (exponentPart r₂).length))
  generalize r₂.drop (exponentPart r₂).length = r₃ at *
  rw [← hwhole, ← hfraction, ← hexponent, ← hsuffix, ← List.append_assoc, ← List.append_assoc]
  split at h
  · cases h
    rw [← List.append_assoc]
    exact List.prefix_append _ _
  · split at h
    · cases h
      exact List.prefix_append _ _
    · cases h

theorem Leads.spelling_starts (h : Leads cs l) : l.spelling <+: cs := by
  cases h with
  | @string q body rest hq hb => exact ⟨rest, by simp⟩
  | @bytes b q body rest hm hq hb => exact ⟨rest, by simp⟩
  | number hc hn => exact number_starts hn
  | ident hc hm => exact List.cons_prefix_cons.mpr ⟨rfl, List.takeWhile_prefix _⟩
  | operator hq hd hi hop =>
    have hprefix := List.find?_some hop
    exact List.isPrefixOf_iff_prefix.mp hprefix

theorem number_spelling_ne_nil (hc : Text.isDigit c = true) (h : number pos (c :: cs) = .ok l) :
    l.spelling ≠ [] := by
  unfold number at h
  dsimp only at h
  rw [List.takeWhile_cons, if_pos hc] at h
  split at h
  · cases h
    simp
  · split at h
    · cases h
      simp
    · cases h

theorem Leads.spelling_ne_nil (h : Leads cs l) : l.spelling ≠ [] := by
  cases h with
  | string | bytes | ident => exact List.cons_ne_nil _ _
  | number hc hn => exact number_spelling_ne_nil hc hn
  | operator hq hd hi hop =>
    have hnonempty : ∀ op ∈ operators, op ≠ [] := by decide
    exact hnonempty _ (List.mem_of_find?_eq_some hop)

theorem number_kind (h : number pos cs = .ok l) : l.kind = .int ∨ l.kind = .uint ∨ l.kind = .double := by
  unfold number at h
  dsimp only at h
  split at h
  · cases h
    dsimp only
    split
    · exact Or.inl rfl
    · exact Or.inr (Or.inl rfl)
  · split at h
    · cases h
      exact Or.inr (Or.inr rfl)
    · cases h

theorem Leads.kind_ne_eof (h : Leads cs l) : l.kind ≠ .eof := by
  cases h with
  | number hc hn => rcases number_kind hn with hk | hk | hk <;> simp [hk]
  | _ => exact nofun

/-! ### Blanks -/

theorem toNat_of_isDigit (h : Text.isDigit c = true) : 48 ≤ c.toNat ∧ c.toNat ≤ 57 := by
  simp only [Text.isDigit, Bool.and_eq_true, decide_eq_true_eq, Char.le_def, UInt32.le_iff_toNat_le] at h
  exact h

theorem toNat_of_isIdentStart (h : isIdentStart c = true) : 65 ≤ c.toNat ∧ c.toNat ≤ 122 := by
  simp only [isIdentStart, Bool.or_eq_true, Bool.and_eq_true, decide_eq_true_eq, Char.le_def,
    UInt32.le_iff_toNat_le, beq_iff_eq] at h
  rcases h with (⟨hlow, hhigh⟩ | ⟨hlow, hhigh⟩) | rfl
  · exact ⟨Nat.le_trans (by decide) hlow, hhigh⟩
  · exact ⟨hlow, Nat.le_trans hhigh (by decide)⟩
  · decide

theorem not_blank_of_toNat (h : 0x20 < c.toNat ∧ c.toNat < 0xA0) : Text.isBlank c = false := by
  simp only [Text.isBlank, Bool.or_eq_false_iff, Bool.and_eq_false_iff, beq_eq_false_iff_ne,
    decide_eq_false_iff_not]
  omega

/-- No lexeme begins with a blank. -/
theorem Leads.not_blank (h : Leads (c :: cs) l) : Text.isBlank c = false := by
  cases h with
  | string hq hb => rcases isQuote_iff.mp hq with rfl | rfl <;> decide
  | bytes hm hq hb => rcases hm with rfl | rfl <;> decide
  | number hc hn =>
    have hrange := toNat_of_isDigit hc
    exact not_blank_of_toNat (by omega)
  | ident hc hm =>
    have hrange := toNat_of_isIdentStart hc
    exact not_blank_of_toNat (by omega)
  | operator hq hd hi hop =>
    have hheads : ∀ op ∈ operators, op.head?.all (!Text.isBlank ·) = true := by decide
    have hmem := List.mem_of_find?_eq_some hop
    obtain ⟨rest, hrest⟩ := (Leads.operator hq hd hi hop).spelling_starts
    have hne := (Leads.operator hq hd hi hop).spelling_ne_nil
    obtain ⟨d, op', rfl⟩ := List.exists_cons_of_ne_nil hne
    cases hrest
    exact (Bool.not_eq_true' _).mp (hheads _ hmem)

/-! ### The lexer and the lexical grammar -/

/-- Tokens that spell lexemes, with the mark of the end. -/
def Spell (ts : List Token) (ls : List Lexeme) : Prop :=
  ∃ body eof, ts = body ++ [eof] ∧ eof.kind = .eof ∧ body.map Token.word = ls.map Lexeme.word

theorem Spell.nil : Spell [⟨.eof, "", pos⟩] [] := ⟨[], ⟨.eof, "", pos⟩, rfl, rfl, rfl⟩

theorem Spell.cons {ts : List Token} (h : Spell ts ls) :
    Spell (⟨l.kind, String.ofList l.text, pos⟩ :: ts) (l :: ls) := by
  obtain ⟨body, eof, rfl, heof, hbody⟩ := h
  refine ⟨⟨l.kind, String.ofList l.text, pos⟩ :: body, eof, rfl, heof, ?_⟩
  rw [List.map_cons, List.map_cons, hbody]
  rfl

theorem drop_lexeme (h : l.spelling ++ rest = c :: cs) (hne : l.spelling ≠ []) :
    cs.drop (l.spelling.length - 1) = rest := by
  obtain ⟨d, sp, hsp⟩ := List.exists_cons_of_ne_nil hne
  rw [hsp] at h ⊢
  cases h
  exact List.drop_left

/-- The lexeme at the start of a text is its first token. -/
theorem tokens_lexeme (hl : Leads (l.spelling ++ rest) l) (pos : Nat) :
    tokens pos (l.spelling ++ rest) =
      (tokens (pos + Text.unitLength l.spelling) rest).map (⟨l.kind, String.ofList l.text, pos⟩ :: ·) := by
  obtain ⟨c, cs, hcs⟩ := List.exists_cons_of_ne_nil (l := l.spelling ++ rest) (by simp [hl.spelling_ne_nil])
  have hrest := drop_lexeme hcs hl.spelling_ne_nil
  rw [hcs] at hl ⊢
  rw [tokens, hl.not_blank, if_neg Bool.false_ne_true, lexeme_of_leads hl]
  dsimp only
  rw [hrest]

theorem lexes_of_tokens {ts : List Token} (h : tokens pos cs = .ok ts) :
    ∃ ls, Lexes cs ls ∧ Spell ts ls := by
  induction pos, cs using tokens.induct generalizing ts with
  | case1 pos =>
    rw [tokens] at h
    cases h
    exact ⟨[], .nil, .nil⟩
  | case2 pos c cs hc ih =>
    rw [tokens, if_pos hc] at h
    obtain ⟨ls, hls, hts⟩ := ih h
    exact ⟨ls, .blank hc hls, hts⟩
  | case3 pos c cs hc e he =>
    rw [tokens, if_neg hc, he] at h
    cases h
  | case4 pos c cs hc l hl ih =>
    rw [tokens, if_neg hc, hl] at h
    obtain ⟨ts, hts, rfl⟩ := map_eq_ok.mp h
    obtain ⟨ls, hls, hspell⟩ := ih hts
    have hlead := leads_of_lexeme hl
    obtain ⟨rest, hrest⟩ := hlead.spelling_starts
    rw [drop_lexeme hrest hlead.spelling_ne_nil] at hls
    rw [← hrest] at hlead ⊢
    exact ⟨l :: ls, .lexeme hlead hls, hspell.cons⟩

theorem tokens_of_lexes (h : Lexes cs ls) (pos : Nat) : ∃ ts, tokens pos cs = .ok ts ∧ Spell ts ls := by
  induction h generalizing pos with
  | nil => exact ⟨[⟨.eof, "", pos⟩], by rw [tokens], .nil⟩
  | @blank c cs ls hc h ih =>
    obtain ⟨ts, hts, hspell⟩ := ih (pos + Text.unitWidth c)
    exact ⟨ts, by rw [tokens, if_pos hc, hts], hspell⟩
  | @lexeme rest l ls hl h ih =>
    obtain ⟨ts, hts, hspell⟩ := ih (pos + Text.unitLength l.spelling)
    refine ⟨⟨l.kind, String.ofList l.text, pos⟩ :: ts, ?_, hspell.cons⟩
    rw [tokens_lexeme hl, hts]
    rfl

theorem Lexes.leads (h : Lexes cs ls) : ∀ l ∈ ls, ∃ cs, Leads cs l := by
  induction h with
  | nil => exact nofun
  | blank hc h ih => exact ih
  | lexeme hl h ih =>
    intro l hmem
    rcases List.mem_cons.mp hmem with rfl | hmem
    · exact ⟨_, hl⟩
    · exact ih l hmem

theorem Lexes.kind_ne_eof (h : Lexes cs ls) : ∀ l ∈ ls, l.kind ≠ .eof := fun l hmem => by
  obtain ⟨cs', hl⟩ := h.leads l hmem
  exact hl.kind_ne_eof

/-! ### A text has its lexemes in one way -/

theorem Leads.unique {l' : Lexeme} (h : Leads cs l) (h' : Leads cs l') : l = l' := by
  obtain ⟨c, r, rfl⟩ : ∃ c r, cs = c :: r := by
    cases h <;> exact ⟨_, _, rfl⟩
  have hl : lexeme 0 c r = .ok l := lexeme_of_leads h
  rw [lexeme_of_leads h'] at hl
  cases hl
  rfl

theorem Lexes.unique {ls' : List Lexeme} (h : Lexes cs ls) (h' : Lexes cs ls') : ls = ls' := by
  induction h generalizing ls' with
  | nil =>
    generalize hcs : [] = cs at h'
    cases h' with
    | nil => rfl
    | blank hc h' => cases hcs
    | lexeme hl h' =>
      obtain ⟨hnil, -⟩ := List.append_eq_nil_iff.mp hcs.symm
      exact absurd hnil hl.spelling_ne_nil
  | @blank c cs ls hc h ih =>
    generalize hcs : c :: cs = cs' at h'
    cases h' with
    | nil => cases hcs
    | blank hc' h' =>
      cases hcs
      exact ih h'
    | lexeme hl h' =>
      rw [← hcs] at hl
      rw [hl.not_blank] at hc
      cases hc
  | @lexeme rest l ls hl h ih =>
    generalize hcs : l.spelling ++ rest = cs at h' hl
    cases h' with
    | nil =>
      obtain ⟨hnil, -⟩ := List.append_eq_nil_iff.mp hcs
      exact absurd hnil hl.spelling_ne_nil
    | blank hc h' =>
      rw [hl.not_blank] at hc
      cases hc
    | lexeme hl' h' =>
      have heq := hl.unique hl'
      subst heq
      rw [List.append_cancel_left_eq] at hcs
      rw [ih (hcs ▸ h')]

end CelSuite.Lexer

namespace CelSuite.Evaluator
open Lexer Grammar

/-- A text is an expression exactly when its lexemes spell a tree. -/
theorem parse_ok_iff_lexes {text : String} {e : Expr} :
    parse text = .ok e ↔
      ∃ ls, Lexes text.toList ls ∧ Derives (.phrase .expr) (ls.map Lexeme.word) e := by
  constructor
  · intro h
    obtain ⟨ts, hts, hparse⟩ := bind_eq_ok.mp h
    obtain ⟨ls, hls, body, eof, rfl, -, hbody⟩ := lexes_of_tokens hts
    refine ⟨ls, hls, hbody ▸ Parser.parse_sound (fun t ht => ?_) hparse⟩
    have hmem : t.word ∈ ls.map Lexeme.word := hbody ▸ List.mem_map_of_mem ht
    obtain ⟨l, hl, hword⟩ := List.mem_map.mp hmem
    exact fun hk => hls.kind_ne_eof l hl ((congrArg Word.kind hword).trans hk)
  · rintro ⟨ls, hls, hd⟩
    obtain ⟨ts, hts, body, eof, rfl, heof, hbody⟩ := tokens_of_lexes hls 0
    exact bind_eq_ok.mpr ⟨_, hts, Parser.parse_complete heof (hbody ▸ hd)⟩

end CelSuite.Evaluator
