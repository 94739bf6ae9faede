import CelSuite.Proofs.Lexing.Spelling

/-! # Tokens and blanks cover a text

A text with tokens is a layout: the spellings of lexemes in order, with blanks before the first, between any two and
after the last, and nothing else. Where a lexeme ends is decided before the next blank, so blanks that are put in
between lexemes move the tokens and change nothing else. -/

namespace CelSuite.Lexer
open Text

variable {c : Char} {cs read rest : List Char} {l : Lexeme} {pos : Nat}

/-! ### Turns -/

/-- Reading in turns, each past one blank or one whole lexeme: the number of turns, where it begins, and what comes of
    it. -/
inductive Turns : Nat → Nat → List Char → Except SyntaxError (List Token) → Prop where
  | eof {pos : Nat} : Turns 0 pos [] (.ok [⟨.eof, "", pos⟩])
  | blank {n pos : Nat} {c : Char} {cs : List Char} {result : Except SyntaxError (List Token)}
      (hc : isBlank c = true) (h : Turns n (pos + unitWidth c) cs result) : Turns (n + 1) pos (c :: cs) result
  | fault {pos : Nat} {c : Char} {cs : List Char} {e : SyntaxError} (hc : isBlank c = false)
      (he : lexeme pos c cs = .error e) : Turns 1 pos (c :: cs) (.error e)
  | lexeme {n pos : Nat} {c : Char} {cs : List Char} {l : Lexeme} {result : Except SyntaxError (List Token)}
      (hc : isBlank c = false) (hl : lexeme pos c cs = .ok l)
      (h : Turns n (pos + unitLength l.spelling) ((c :: cs).drop l.spelling.length) result) :
      Turns (n + 1) pos (c :: cs) (result.map (⟨l.kind, String.ofList l.text, pos⟩ :: ·))

/-- The lexer ends after at most as many turns as the text has characters. -/
theorem turns_tokens (pos : Nat) (cs : List Char) : ∃ n, n ≤ cs.length ∧ Turns n pos cs (tokens pos cs) := by
  induction pos, cs using tokens.induct with
  | case1 pos =>
    rw [tokens]
    exact ⟨0, Nat.le_refl 0, .eof⟩
  | case2 pos c cs hc ih =>
    obtain ⟨n, hn, h⟩ := ih
    rw [tokens, if_pos hc]
    exact ⟨n + 1, Nat.succ_le_succ hn, .blank hc h⟩
  | case3 pos c cs hc e he =>
    rw [tokens, if_neg hc, he]
    exact ⟨1, Nat.le_add_left 1 _, .fault (by simpa using hc) he⟩
  | case4 pos c cs hc l hl ih =>
    obtain ⟨n, hn, h⟩ := ih
    have hlead := leads_of_lexeme hl
    obtain ⟨rest, hrest⟩ := hlead.spelling_starts
    rw [drop_lexeme hrest hlead.spelling_ne_nil] at hn h
    have hlength := congrArg List.length hrest
    rw [List.length_append] at hlength
    -- The spelling of a lexeme is not empty, so the next turn begins further on.
    have hpos := List.length_pos_iff.mpr hlead.spelling_ne_nil
    refine ⟨n + 1, by omega, ?_⟩
    rw [← hrest, tokens_lexeme (hrest ▸ hlead), hrest]
    refine .lexeme (by simpa using hc) hl ?_
    rwa [← hrest, List.drop_left]

/-! ### Layouts -/

/-- Blanks, as many as there are. -/
@[ext]
structure Blanks where
  chars : List Char
  blank : ∀ c ∈ chars, isBlank c = true

/-- A text laid out: lexemes with blanks before each of them, and blanks after the last. -/
inductive Layout where
  | last (after : Blanks)
  | next (before : Blanks) (l : Lexeme) (spelled : Spelled l) (rest : Layout)

namespace Layout

variable {L L' : Layout}

def text : Layout → List Char
  | .last after => after.chars
  | .next before l _ rest => before.chars ++ (l.spelling ++ rest.text)

/-- The tokens of a layout that comes after other text. A token begins after as many units as all text before it has. -/
def tokensAfter (read : List Char) : Layout → List Token
  | .last after => [⟨.eof, "", (units (read ++ after.chars)).length⟩]
  | .next before l _ rest =>
    ⟨l.kind, String.ofList l.text, (units (read ++ before.chars)).length⟩ ::
      rest.tokensAfter (read ++ before.chars ++ l.spelling)

def tokens (L : Layout) : List Token := L.tokensAfter []

def words : Layout → List Word
  | .last _ => []
  | .next _ l _ rest => l.word :: rest.words

/-- The same lexemes with more blanks put in: before the first, between any two, or after the last. -/
inductive Loosens : Layout → Layout → Prop where
  | last {after after' : Blanks} (h : after.chars.Sublist after'.chars) : Loosens (.last after) (.last after')
  | next {before before' : Blanks} {l : Lexeme} {spelled : Spelled l} {rest rest' : Layout}
      (h : before.chars.Sublist before'.chars) (hrest : Loosens rest rest') :
      Loosens (.next before l spelled rest) (.next before' l spelled rest')

/-- There is a blank between any two lexemes. -/
inductive Parted : Layout → Prop where
  | last {after : Blanks} : Parted (.last after)
  | single {before after : Blanks} {l : Lexeme} {spelled : Spelled l} : Parted (.next before l spelled (.last after))
  | next {before between : Blanks} {l l' : Lexeme} {spelled : Spelled l} {spelled' : Spelled l'} {rest : Layout}
      (hne : between.chars ≠ []) (h : Parted (.next between l' spelled' rest)) :
      Parted (.next before l spelled (.next between l' spelled' rest))

/-- Each lexeme of a layout is the one that is read where it stands. -/
inductive Stands : Layout → Prop where
  | last {after : Blanks} : Stands (.last after)
  | next {before : Blanks} {l : Lexeme} {spelled : Spelled l} {rest : Layout} (hl : Leads (l.spelling ++ rest.text) l)
      (h : Stands rest) : Stands (.next before l spelled rest)

/-! ### Reading a layout -/

theorem units_append_length (cs ds : List Char) : (units (cs ++ ds)).length = (units cs).length + unitLength ds := by
  rw [← units_length ds, units, List.flatMap_append, List.length_append]
  rfl

theorem tokens_blanks (b : Blanks) (pos : Nat) (rest : List Char) :
    Lexer.tokens pos (b.chars ++ rest) = Lexer.tokens (pos + unitLength b.chars) rest := by
  obtain ⟨cs, hcs⟩ := b
  induction cs generalizing pos with
  | nil => rfl
  | cons c cs ih =>
    obtain ⟨hc, hcs⟩ := List.forall_mem_cons.mp hcs
    rw [List.cons_append, Lexer.tokens, if_pos hc, ih _ hcs, unitLength, Nat.add_assoc]

theorem Stands.tokens (h : Stands L) (read : List Char) :
    Lexer.tokens (units read).length L.text = .ok (L.tokensAfter read) := by
  induction h generalizing read with
  | @last after =>
    have hend := tokens_blanks after (units read).length []
    rw [List.append_nil] at hend
    rw [text, hend, Lexer.tokens, tokensAfter, units_append_length]
  | @next before l spelled rest hl h ih =>
    rw [text, tokens_blanks, tokens_lexeme hl, ← units_append_length, ← units_append_length, ih]
    rfl

theorem Stands.tokenize (h : Stands L) : tokenize (String.ofList L.text) = .ok L.tokens := by
  rw [Lexer.tokenize, String.toList_ofList]
  exact h.tokens []

/-! ### The layout of a text -/

/-- A layout with one more blank at its start. -/
def cons (c : Char) (hc : isBlank c = true) : Layout → Layout
  | .last after => .last ⟨c :: after.chars, List.forall_mem_cons.mpr ⟨hc, after.blank⟩⟩
  | .next before l spelled rest =>
    .next ⟨c :: before.chars, List.forall_mem_cons.mpr ⟨hc, before.blank⟩⟩ l spelled rest

theorem text_cons (hc : isBlank c = true) (L : Layout) : (L.cons c hc).text = c :: L.text := by
  cases L <;> rfl

theorem tokensAfter_cons (hc : isBlank c = true) (read : List Char) (L : Layout) :
    (L.cons c hc).tokensAfter read = L.tokensAfter (read ++ [c]) := by
  cases L <;> simp [cons, tokensAfter]

theorem Stands.cons (h : Stands L) (hc : isBlank c = true) : Stands (L.cons c hc) := by
  cases h with
  | last => exact .last
  | next hl h => exact .next hl h

/-- The text that tokens were read from, behind text that was read before and ends where they begin. -/
theorem exists_layout {ts : List Token} (read : List Char) (h : Lexer.tokens pos cs = .ok ts)
    (hpos : (units read).length = pos) :
    ∃ L : Layout, L.text = cs ∧ L.tokensAfter read = ts ∧ Stands L := by
  induction pos, cs using Lexer.tokens.induct generalizing read ts with
  | case1 pos =>
    rw [Lexer.tokens] at h
    cases h
    refine ⟨.last ⟨[], List.forall_mem_nil _⟩, rfl, ?_, .last⟩
    rw [tokensAfter, List.append_nil, hpos]
  | case2 pos c cs hc ih =>
    rw [Lexer.tokens, if_pos hc] at h
    have hpos' : (units (read ++ [c])).length = pos + unitWidth c := by
      rw [units_append_length, hpos]
      rfl
    obtain ⟨L, htext, htokens, hstands⟩ := ih _ h hpos'
    exact ⟨L.cons c hc, by rw [text_cons, htext], by rw [tokensAfter_cons, htokens], hstands.cons hc⟩
  | case3 pos c cs hc e he =>
    rw [Lexer.tokens, if_neg hc, he] at h
    cases h
  | case4 pos c cs hc l hl ih =>
    have hlead := leads_of_lexeme hl
    obtain ⟨rest, hrest⟩ := hlead.spelling_starts
    rw [drop_lexeme hrest hlead.spelling_ne_nil] at ih
    rw [← hrest] at hlead h ⊢
    rw [tokens_lexeme hlead] at h
    obtain ⟨ts, hts, rfl⟩ := map_eq_ok.mp h
    have hpos' : (units (read ++ l.spelling)).length = pos + unitLength l.spelling := by
      rw [units_append_length, hpos]
    obtain ⟨L, rfl, rfl, hstands⟩ := ih _ hts hpos'
    refine ⟨.next ⟨[], List.forall_mem_nil _⟩ l hlead.spelled L, rfl, ?_, .next hlead hstands⟩
    rw [tokensAfter, List.append_nil, hpos]

/-! ### More blanks -/

theorem upToBlank_blanks {r r' : List Char} (b : Blanks) (h : b.chars = [] → UpToBlank r r') :
    UpToBlank r (b.chars ++ r') := by
  obtain ⟨chars, hblank⟩ := b
  cases chars with
  | nil => exact h rfl
  | cons c cs => exact .blank (hblank c List.mem_cons_self)

theorem Loosens.upToBlank (h : Loosens L L') : UpToBlank L.text L'.text := by
  induction h with
  | @last after after' h =>
    have hend : UpToBlank after.chars (after'.chars ++ []) := upToBlank_blanks after' fun _ => .stop
    rwa [List.append_nil] at hend
  | @next before before' l spelled rest rest' h hrest ih =>
    -- Where there is no blank before the lexeme there was none, and the texts go on with the same spelling.
    refine upToBlank_blanks before' fun hnil => ?_
    rw [hnil, List.sublist_nil] at h
    rw [text, h]
    exact ih.append l.spelling

theorem Stands.loosen (h : Stands L) (hloose : Loosens L L') : Stands L' := by
  induction hloose with
  | last => exact .last
  | next hblanks hrest ih =>
    cases h with
    | next hl h => exact .next (hl.upToBlank hrest.upToBlank) (ih h)

theorem Parted.stands (h : Parted L) : Stands L := by
  induction h with
  | last => exact .last
  | @single before after l spelled =>
    have hend : UpToBlank [] (after.chars ++ []) := upToBlank_blanks after fun _ => .stop
    rw [List.append_nil] at hend
    exact .next (spelled.leads_before hend) .last
  | @next before between l l' spelled spelled' rest hne h ih =>
    exact .next (spelled.leads_before (upToBlank_blanks between fun hnil => absurd hnil hne)) ih

theorem Loosens.words (h : Loosens L L') : L'.words = L.words := by
  induction h with
  | last => rfl
  | next h hrest ih => rw [Layout.words, Layout.words, ih]

/-! ### The tokens of a layout -/

theorem word_tokensAfter (read : List Char) (L : Layout) :
    (L.tokensAfter read).map Token.word = L.words ++ [⟨.eof, ""⟩] := by
  induction L generalizing read with
  | last => rfl
  | next before l spelled rest ih =>
    rw [tokensAfter, List.map_cons, ih]
    rfl

theorem getLast?_tokensAfter (read : List Char) (L : Layout) :
    (L.tokensAfter read).getLast? = some ⟨.eof, "", (units (read ++ L.text)).length⟩ := by
  induction L generalizing read with
  | last => rfl
  | next before l spelled rest ih =>
    rw [tokensAfter, List.getLast?_cons, ih, Option.getD_some, text]
    simp only [List.append_assoc]

/-! ### A text has one layout with its tokens -/

theorem eq_of_text_of_words (htext : L.text = L'.text) (hwords : L.words = L'.words) : L = L' := by
  induction L generalizing L' with
  | last after =>
    cases L' with
    | last after' => rw [Blanks.ext htext]
    | next => cases hwords
  | next before l spelled rest ih =>
    cases L' with
    | last => cases hwords
    | next before' l' spelled' rest' =>
      obtain ⟨hword, htail⟩ := List.cons.inj hwords
      obtain ⟨htake, hdrop⟩ := takeWhile_run before.blank (spelled.head_not_blank rest.text)
      obtain ⟨htake', hdrop'⟩ := takeWhile_run before'.blank (spelled'.head_not_blank rest'.text)
      rw [text, text] at htext
      rw [htext] at htake hdrop
      obtain ⟨rfl, hrest⟩ := spelled.eq_of_word spelled' hword (hdrop.symm.trans hdrop')
      rw [Blanks.ext (htake.symm.trans htake'), ih hrest htail]

theorem eq_of_text_of_tokens (htext : L.text = L'.text) (htokens : L.tokens = L'.tokens) : L = L' := by
  have hwords := congrArg (List.map Token.word) htokens
  rw [tokens, tokens, word_tokensAfter, word_tokensAfter, List.append_cancel_right_eq] at hwords
  exact eq_of_text_of_words htext hwords

end Layout

/-- Reading a text ends after at most as many turns as the text has characters. If it succeeds, the text is the
    spellings of its tokens in order, with blanks before, between and after them and nothing else, in just one way; each
    token begins at its position, and the mark of the end stands at the length of the text. More blanks before the first
    token, between any two or after the last move the tokens and leave their kinds and texts. Lexemes with a blank
    between any two are always read. -/
theorem tokens_and_blanks_cover_text (s : String) :
    (∃ n, n ≤ s.length ∧ Turns n 0 s.toList (tokenize s)) ∧
    (∀ ts, tokenize s = .ok ts →
      (∃! L : Layout, L.text = s.toList ∧ L.tokens = ts) ∧
        ts.getLast? = some ⟨.eof, "", (units s.toList).length⟩) ∧
    (∀ L L' : Layout, L.text = s.toList → tokenize s = .ok L.tokens → L.Loosens L' →
      tokenize (String.ofList L'.text) = .ok L'.tokens ∧ L'.tokens.map Token.word = L.tokens.map Token.word) ∧
    ∀ L : Layout, L.Parted → tokenize (String.ofList L.text) = .ok L.tokens := by
  refine ⟨?ends, ?covered, ?loosened, fun L h => h.stands.tokenize⟩
  case ends =>
    rw [← String.length_toList]
    exact turns_tokens 0 s.toList
  case covered =>
    intro ts h
    obtain ⟨L, htext, rfl, -⟩ := Layout.exists_layout [] h rfl
    refine ⟨⟨L, ⟨htext, rfl⟩, fun L' h' => ?_⟩, ?_⟩
    · exact Layout.eq_of_text_of_tokens (h'.1.trans htext.symm) h'.2
    · rw [Layout.getLast?_tokensAfter, htext, List.nil_append]
  case loosened =>
    intro L L' htext htokens hloose
    obtain ⟨L₀, htext₀, htokens₀, hstands⟩ := Layout.exists_layout [] htokens rfl
    obtain rfl : L₀ = L := Layout.eq_of_text_of_tokens (htext₀.trans htext.symm) htokens₀
    refine ⟨(hstands.loosen hloose).tokenize, ?_⟩
    rw [Layout.tokens, Layout.tokens, Layout.word_tokensAfter, Layout.word_tokensAfter, hloose.words]

/-- Without digits behind it a sign does not belong to a number, and a character outside the basic plane takes two
    units. -/
theorem number_before_sign_and_literal :
    let laidOut (before first second third after : Blanks) : Layout :=
      .next before ⟨.int, ['1'], ['1']⟩ (.int ⟨List.cons_ne_nil _ _, List.forall_mem_singleton.mpr rfl⟩)
        (.next first ⟨.ident, ['e'], ['e']⟩ (.ident rfl (List.forall_mem_nil _))
          (.next second ⟨.op, ['+'], ['+']⟩ (.op (by decide))
            (.next third ⟨.bytes, ['😀', '\\', '\x27'], ['b', '\x27', '😀', '\\', '\x27', '\x27']⟩
              (.bytes (Or.inl rfl) (Or.inr rfl) (.plain (by decide) (by decide) (.escape .nil)))
              (.last after))))
    let none : Blanks := ⟨[], List.forall_mem_nil _⟩
    let one : Blanks := ⟨['\u3000'], List.forall_mem_singleton.mpr rfl⟩
    (∃! L : Layout, L.text = "1e+b'😀\\''".toList ∧
      L.tokens = [⟨.int, "1", 0⟩, ⟨.ident, "e", 1⟩, ⟨.op, "+", 2⟩, ⟨.bytes, "😀\\'", 3⟩, ⟨.eof, "", 10⟩]) ∧
    tokenize (String.ofList (laidOut one none one none one).text) =
      .ok [⟨.int, "1", 1⟩, ⟨.ident, "e", 2⟩, ⟨.op, "+", 4⟩, ⟨.bytes, "😀\\'", 5⟩, ⟨.eof, "", 13⟩] ∧
    tokenize (String.ofList (laidOut none one one one none).text) =
      .ok [⟨.int, "1", 0⟩, ⟨.ident, "e", 2⟩, ⟨.op, "+", 4⟩, ⟨.bytes, "😀\\'", 6⟩, ⟨.eof, "", 13⟩] := by
  intro laidOut none one
  have hread : tokenize "1e+b'😀\\''" =
      .ok [⟨.int, "1", 0⟩, ⟨.ident, "e", 1⟩, ⟨.op, "+", 2⟩, ⟨.bytes, "😀\\'", 3⟩, ⟨.eof, "", 10⟩] := by
    cbv
  obtain ⟨-, hcovered, hloosened, hparted⟩ := tokens_and_blanks_cover_text "1e+b'😀\\''"
  refine ⟨(hcovered _ hread).1, ?_, ?_⟩
  · have hempty (bs : List Char) : [].Sublist bs := List.nil_sublist bs
    have hmore : (laidOut none none none none none).Loosens (laidOut one none one none one) :=
      .next (hempty _) (.next (hempty _) (.next (hempty _) (.next (hempty _) (.last (hempty _)))))
    exact (hloosened (laidOut none none none none none) _ rfl hread hmore).1
  · have hone : one.chars ≠ [] := List.cons_ne_nil _ _
    exact hparted (laidOut none one one one none) (.next hone (.next hone (.next hone .single)))

end CelSuite.Lexer
