import CelSuite.Proofs.Escapes.Literals

/-! # Lexemes without the escapes of a quote

Unescaping a text unescapes its lexemes one by one, when no literal stands between the quote that is
unescaped: a literal between the other quote goes on to its own end, and outside literals a text that has
lexemes has no backslash. -/

namespace CelSuite.Lexer
open Text

variable {q : Quote} {c d : Char} {cs rest body : List Char} {l : Lexeme} {ls : List Lexeme}

/-! ### Literals -/

theorem Body.unescape_append (h : Body d body) (rest : List Char) :
    unescapeQuote q (body ++ rest) = unescapeQuote q body ++ unescapeQuote q rest := by
  induction h with
  | nil => rw [List.nil_append, unescape_nil, List.nil_append]
  | escape h ih =>
    rw [List.cons_append, List.cons_append, unescape_pair, unescape_pair, ih, List.append_assoc]
  | plain hc hq h ih => rw [List.cons_append, unescape_cons hc, unescape_cons hc, ih, List.cons_append]

theorem Body.unescape (h : Body d body) (hd : q.char ≠ d) : Body d (unescapeQuote q body) := by
  induction h with
  | nil =>
    rw [unescape_nil]
    exact .nil
  | escape h ih =>
    rw [unescape_pair]
    split
    · rename_i hq
      rw [hq]
      exact .plain q.char_ne_backslash hd ih
    · exact .escape ih
  | plain hc hq h ih =>
    rw [unescape_cons hc]
    exact .plain hc hq ih

/-! ### Numbers -/

/-- The characters of numbers and names. -/
def isWordChar (c : Char) : Bool :=
  isIdentChar c || c == '.' || c == '+' || c == '-'

theorem apart_word (q : Quote) : Apart q isWordChar := by
  cases q <;> exact ⟨by decide, by decide⟩

theorem apart_ident (q : Quote) : Apart q isIdentChar := by
  cases q <;> exact ⟨by decide, by decide⟩

theorem unescape_fractionPart (cs : List Char) : fractionPart (unescapeQuote q cs) = fractionPart cs := by
  rcases unescape_head (q := q) cs with rfl | ⟨c, r, hc, rfl⟩ | ⟨r, d, r', rfl, hd, hdq⟩
  · rw [unescape_nil]
  · rw [unescape_cons hc]
    by_cases hpoint : c = '.'
    · rw [hpoint, fractionPart, fractionPart, unescape_takeWhile (apart_digit q)]
    · rw [fractionPart_of_ne hpoint, fractionPart_of_ne hpoint]
  · rw [hd, fractionPart_of_ne ((apart_word q).ne hdq rfl), fractionPart_of_ne (by decide)]

theorem unescape_exponentPart (cs : List Char) : exponentPart (unescapeQuote q cs) = exponentPart cs := by
  rcases unescape_head (q := q) cs with rfl | ⟨c, r, hc, rfl⟩ | ⟨r, d, r', rfl, hd, hdq⟩
  · rw [unescape_nil]
  · rw [unescape_cons hc]
    by_cases hletter : c = 'e' ∨ c = 'E'
    · rcases unescape_head (q := q) r with rfl | ⟨s, ds, hs, rfl⟩ | ⟨r₁, d, r₂, rfl, hd, hdq⟩
      · rw [unescape_nil]
      · rw [unescape_cons hs, exponentPart, if_pos hletter, exponentPart, if_pos hletter, ← unescape_cons hs,
          unescape_takeWhile (apart_digit q), unescape_takeWhile (apart_digit q)]
      · rw [hd, exponentPart_letter hletter ((apart_word q).ne hdq rfl) ((apart_word q).ne hdq rfl),
          exponentPart_letter hletter (by decide) (by decide), ← hd, unescape_takeWhile (apart_digit q)]
    · obtain ⟨hlow, hup⟩ := not_or.mp hletter
      rw [exponentPart_of_ne hlow hup, exponentPart_of_ne hlow hup]
  · rw [hd, exponentPart_of_ne ((apart_word q).ne hdq rfl) ((apart_word q).ne hdq rfl),
      exponentPart_of_ne (by decide) (by decide)]

theorem unescape_suffixPart (cs : List Char) : suffixPart (unescapeQuote q cs) = suffixPart cs := by
  rcases unescape_head (q := q) cs with rfl | ⟨c, r, hc, rfl⟩ | ⟨r, d, r', rfl, hd, hdq⟩
  · rw [unescape_nil]
  · rw [unescape_cons hc]
    rfl
  · rw [hd, suffixPart_of_ne ((apart_word q).ne hdq rfl) ((apart_word q).ne hdq rfl),
      suffixPart_of_ne (by decide) (by decide)]

theorem isWordChar_of_isDigit (h : isDigit c = true) : isWordChar c = true := by
  simp [isWordChar, isIdentChar, h]

theorem digits_word (cs : List Char) : ∀ c ∈ cs.takeWhile isDigit, isWordChar c = true := fun c hc =>
  isWordChar_of_isDigit (List.all_eq_true.mp List.all_takeWhile c hc)

theorem fractionPart_word (cs : List Char) : ∀ c ∈ fractionPart cs, isWordChar c = true := by
  unfold fractionPart
  split
  · split
    · exact nofun
    · exact List.forall_mem_cons.mpr ⟨rfl, digits_word _⟩
  · exact nofun

theorem exponentPart_word (cs : List Char) : ∀ c ∈ exponentPart cs, isWordChar c = true := by
  have hletters : ∀ {c : Char}, c = 'e' ∨ c = 'E' → isWordChar c = true := by
    rintro c (rfl | rfl) <;> rfl
  unfold exponentPart
  split
  · split
    · rename_i hletter
      have hword := hletters hletter
      split
      · split
        · rename_i hsign
          split
          · exact nofun
          · refine List.forall_mem_cons.mpr ⟨hword, List.forall_mem_cons.mpr ⟨?_, digits_word _⟩⟩
            rcases hsign with rfl | rfl <;> rfl
        · split
          · exact nofun
          · exact List.forall_mem_cons.mpr ⟨hword, digits_word _⟩
      · exact nofun
    · exact nofun
  · exact nofun

theorem suffixPart_word (cs : List Char) : ∀ c ∈ suffixPart cs, isWordChar c = true := by
  unfold suffixPart
  split
  · split
    · rename_i hletter
      refine List.forall_mem_cons.mpr ⟨?_, nofun⟩
      rcases hletter with rfl | rfl <;> rfl
    · exact nofun
  · exact nofun

theorem number_word {pos : Nat} (h : number pos cs = .ok l) :
    (∀ c ∈ l.spelling, isWordChar c = true) ∧ ∀ c ∈ l.text, isWordChar c = true := by
  have hwhole := digits_word cs
  have hfraction := fractionPart_word (cs.dropWhile isDigit)
  unfold number at h
  dsimp only at h
  generalize cs.dropWhile isDigit = r at *
  have hexponent := exponentPart_word (r.drop (fractionPart r).length)
  generalize r.drop (fractionPart r).length = r₂ at *
  have hsuffix := suffixPart_word (r₂.drop (exponentPart r₂).length)
  have hbody := List.forall_mem_append.mpr ⟨List.forall_mem_append.mpr ⟨hwhole, hfraction⟩, hexponent⟩
  split at h
  · cases h
    exact ⟨List.forall_mem_append.mpr ⟨hbody, hsuffix⟩, hbody⟩
  · split at h
    · cases h
      exact ⟨hbody, hbody⟩
    · cases h

theorem unescape_number {pos : Nat} (cs : List Char) : number pos (unescapeQuote q cs) = number pos cs := by
  have hfraction := not_mem_of_all (apart_word q) (fractionPart_word (cs.dropWhile isDigit))
  unfold number
  dsimp only
  rw [unescape_takeWhile (apart_digit q), unescape_dropWhile (apart_digit q), unescape_fractionPart,
    unescape_drop (fractionPart_starts _) hfraction, unescape_exponentPart,
    unescape_drop (exponentPart_starts _) (not_mem_of_all (apart_word q) (exponentPart_word _)),
    unescape_suffixPart]

/-! ### The lexeme at the start of a text -/

/-- A lexeme without the escapes of a quote. -/
def Lexeme.unescape (q : Quote) (l : Lexeme) : Lexeme :=
  ⟨l.kind, unescapeQuote q l.text, unescapeQuote q l.spelling⟩

/-- Only literals have escapes. -/
theorem Lexeme.unescape_of_not_mem (hs : '\\' ∉ l.spelling) (ht : '\\' ∉ l.text) : l.unescape q = l := by
  rw [Lexeme.unescape, Text.unescape_of_not_mem hs, Text.unescape_of_not_mem ht]

theorem unescape_find_operator (cs : List Char) :
    operators.find? (·.isPrefixOf (unescapeQuote q cs)) = operators.find? (·.isPrefixOf cs) := by
  have happ : ∀ op ∈ operators, op.isPrefixOf (unescapeQuote q cs) = op.isPrefixOf cs := by
    intro op hop
    have hchars : ∀ op ∈ operators, '\\' ∉ op ∧ q.char ∉ op := by
      cases q <;> decide
    obtain ⟨hbackslash, hquote⟩ := hchars op hop
    refine unescape_isPrefixOf (fun c hc => ⟨?_, ?_⟩) cs
    · rintro rfl
      exact hbackslash hc
    · rintro rfl
      exact hquote hc
  generalize operators = ops at happ ⊢
  induction ops with
  | nil => rfl
  | cons op ops ih =>
    rw [List.find?_cons, List.find?_cons, happ op List.mem_cons_self,
      ih fun op' hop' => happ op' (List.mem_cons_of_mem op hop')]

theorem Leads.head_ne_backslash (h : Leads (c :: cs) l) : c ≠ '\\' := by
  rintro rfl
  cases h with
  | string hq hb => cases hq
  | bytes hm hq hb => rcases hm with hm | hm <;> cases hm
  | number hc hn => cases hc
  | ident hc hm => cases hc
  | operator hq hd hi hop =>
    have hheads : ∀ op ∈ operators, op.isPrefixOf ('\\' :: cs) = false := by
      simp [operators, List.isPrefixOf]
    have hprefix := List.find?_some hop
    rw [hheads _ (List.mem_of_find?_eq_some hop)] at hprefix
    cases hprefix

theorem Lexes.head_ne_backslash (h : Lexes cs ls) : ∀ r, cs ≠ '\\' :: r := by
  rintro r rfl
  generalize hcs : '\\' :: r = cs at h
  cases h with
  | nil => cases hcs
  | blank hc h =>
    cases hcs
    cases hc
  | lexeme hl h =>
    rw [← hcs] at hl
    exact hl.head_ne_backslash rfl

/-- Outside literals there is no backslash. -/
theorem Leads.plain (h : Leads cs l) (q : Quote) (hk : ¬(l.kind = .string ∨ l.kind = .bytes)) :
    '\\' ∉ l.spelling ∧ '\\' ∉ l.text := by
  cases h with
  | string hq hb => exact absurd (Or.inl rfl) hk
  | bytes hm hq hb => exact absurd (Or.inr rfl) hk
  | number hc hn =>
    obtain ⟨hs, ht⟩ := number_word hn
    exact ⟨not_mem_of_all (apart_word q) hs, not_mem_of_all (apart_word q) ht⟩
  | @ident c cs hc hm =>
    have hchars := List.all_eq_true.mp (List.all_takeWhile (p := isIdentChar) (l := cs))
    have hs : '\\' ∉ c :: cs.takeWhile isIdentChar := by
      rw [List.mem_cons, not_or]
      exact ⟨Ne.symm (Leads.ident hc hm).head_ne_backslash, not_mem_of_all (apart_ident q) hchars⟩
    exact ⟨hs, hs⟩
  | operator hq hd hi hop =>
    have hchars : ∀ op ∈ operators, '\\' ∉ op := by decide
    have hs := hchars _ (List.mem_of_find?_eq_some hop)
    exact ⟨hs, hs⟩

theorem Lexeme.delimiter?_quoted {kind : TokenKind} (hk : kind = .string ∨ kind = .bytes)
    (text spelling : List Char) : Lexeme.delimiter? ⟨kind, text, spelling ++ [d]⟩ = some d := by
  rw [Lexeme.delimiter?, if_pos hk, List.getLast?_concat]

theorem Body.unescape_quoted (h : Body d body) (hd : d ≠ '\\') (rest : List Char) :
    unescapeQuote q (d :: (body ++ d :: rest)) = d :: (unescapeQuote q body ++ d :: unescapeQuote q rest) := by
  rw [unescape_cons hd, h.unescape_append, unescape_cons hd]

/-- The lexeme at the start of the unescaped text. -/
theorem Leads.unescape (h : Leads cs l) (hcs : cs = l.spelling ++ rest) (hd : l.delimiter? ≠ some q.char)
    (hrest : ∀ r, rest ≠ '\\' :: r) :
    Leads (unescapeQuote q cs) (l.unescape q) ∧
      unescapeQuote q cs = (l.unescape q).spelling ++ unescapeQuote q rest := by
  cases h with
  | @string d body rest' hq hb =>
    have hdq : q.char ≠ d := by
      rintro rfl
      exact hd (Lexeme.delimiter?_quoted (Or.inl rfl) body (_ :: body))
    have hrest' : rest' = rest := by simpa using hcs
    have hslash := ne_backslash_of_isQuote hq
    rw [Lexeme.unescape, hb.unescape_quoted hslash, hb.unescape_quoted hslash, unescape_nil, hrest']
    exact ⟨.string hq (hb.unescape hdq), by simp⟩
  | @bytes b d body rest' hm hq hb =>
    have hdq : q.char ≠ d := by
      rintro rfl
      exact hd (Lexeme.delimiter?_quoted (Or.inr rfl) body (b :: _ :: body))
    have hrest' : rest' = rest := by simpa using hcs
    have hslash := ne_backslash_of_isQuote hq
    have hmark : b ≠ '\\' := by
      rcases hm with rfl | rfl <;> decide
    rw [Lexeme.unescape, unescape_cons hmark, unescape_cons hmark, hb.unescape_quoted hslash,
      hb.unescape_quoted hslash, unescape_nil, hrest']
    exact ⟨.bytes hm hq (hb.unescape hdq), by simp⟩
  | @number c cs l hc hn =>
    have hk : ¬(l.kind = .string ∨ l.kind = .bytes) := by
      rcases number_kind hn with hk | hk | hk <;> simp [hk]
    obtain ⟨hs, ht⟩ := (Leads.number hc hn).plain q hk
    have hslash : c ≠ '\\' := (Leads.number hc hn).head_ne_backslash
    rw [Lexeme.unescape_of_not_mem hs ht]
    constructor
    · rw [← unescape_number (q := q), unescape_cons hslash] at hn
      rw [unescape_cons hslash]
      exact .number hc hn
    · rw [hcs, unescape_append hs]
  | @ident c cs hc hm =>
    obtain ⟨hs, ht⟩ := (Leads.ident hc hm).plain q (by simp)
    have hslash : c ≠ '\\' := (Leads.ident hc hm).head_ne_backslash
    rw [Lexeme.unescape_of_not_mem hs ht]
    constructor
    · rw [unescape_cons hslash, ← unescape_takeWhile (apart_ident q) cs]
      refine .ident hc fun hmark d hd => ?_
      rcases unescape_head (q := q) cs with rfl | ⟨c', r, hc', rfl⟩ | ⟨r, d', r', rfl, -, -⟩
      · cases hd
      · rw [unescape_cons hc'] at hd
        exact hm hmark d hd
      · exact absurd (List.cons.inj hcs).2.symm (hrest r)
    · rw [hcs, unescape_append hs]
  | @operator c cs op hq hd' hi hop =>
    obtain ⟨hs, ht⟩ := (Leads.operator hq hd' hi hop).plain q (by simp)
    have hslash : c ≠ '\\' := (Leads.operator hq hd' hi hop).head_ne_backslash
    rw [Lexeme.unescape_of_not_mem hs ht]
    constructor
    · rw [← unescape_find_operator (q := q), unescape_cons hslash] at hop
      rw [unescape_cons hslash]
      exact .operator hq hd' hi hop
    · rw [hcs, unescape_append hs]

/-! ### The lexemes of a text -/

theorem Lexes.unescape (h : Lexes cs ls) (hd : ∀ l ∈ ls, l.delimiter? ≠ some q.char) :
    Lexes (unescapeQuote q cs) (ls.map (Lexeme.unescape q)) := by
  induction h with
  | nil =>
    rw [unescape_nil]
    exact .nil
  | @blank c cs ls hc h ih =>
    have hslash : c ≠ '\\' := by
      rintro rfl
      cases hc
    rw [unescape_cons hslash]
    exact .blank hc (ih hd)
  | @lexeme rest l ls hl h ih =>
    obtain ⟨hlead, happ⟩ := hl.unescape rfl (hd l List.mem_cons_self) h.head_ne_backslash
    rw [happ] at hlead ⊢
    exact .lexeme hlead (ih fun l' hl' => hd l' (List.mem_cons_of_mem l hl'))

theorem Leads.unescape_word (h : Leads cs l) : (l.unescape q).word = Grammar.unescapeWord q l.word := by
  by_cases hk : l.kind = .string ∨ l.kind = .bytes
  · have hword : Grammar.unescapeWord q l.word = ⟨l.kind, expandEscapes q (String.ofList l.text)⟩ := if_pos hk
    rw [hword, expandEscapes, String.toList_ofList]
    rfl
  · have hword : Grammar.unescapeWord q l.word = l.word := if_neg hk
    obtain ⟨hs, ht⟩ := h.plain q hk
    rw [Lexeme.unescape_of_not_mem hs ht, hword]

theorem Lexes.unescape_words (h : Lexes cs ls) :
    (ls.map (Lexeme.unescape q)).map Lexeme.word = (ls.map Lexeme.word).map (Grammar.unescapeWord q) := by
  induction h with
  | nil => rfl
  | blank hc h ih => exact ih
  | lexeme hl h ih =>
    simp only [List.map_cons]
    rw [ih, hl.unescape_word]

end CelSuite.Lexer
