import CelSuite.Proofs.Lexing.Lexemes

/-! # Undoing the escapes of a quote, piece by piece

Unescaping keeps what has no backslash, and takes a backslash and the character after it together. So it
goes through a text in step with whoever reads the text in the same pairs, and a reader that stops at
backslashes and at the quote sees no difference. -/

namespace CelSuite.Text

variable {q : Quote} {c : Char} {xs cs : List Char}

theorem Quote.char_ne_backslash (q : Quote) : q.char ≠ '\\' := by
  cases q <;> decide

theorem unescape_nil : unescapeQuote q [] = [] := by rw [unescapeQuote]

theorem unescape_cons (h : c ≠ '\\') : unescapeQuote q (c :: cs) = c :: unescapeQuote q cs := by
  rw [unescapeQuote]
  exact fun _ _ hslash => absurd hslash h

/-- A backslash and the character after it. -/
theorem unescape_pair : unescapeQuote q ('\\' :: c :: cs) =
    (if c = q.char then [c] else ['\\', c]) ++ unescapeQuote q cs := by
  rw [unescapeQuote]
  split
  · rfl
  · split
    · rename_i hslash
      rw [hslash]
      rfl
    · rename_i hslash
      rw [unescape_cons hslash]
      rfl

theorem unescape_append (h : '\\' ∉ xs) : unescapeQuote q (xs ++ cs) = xs ++ unescapeQuote q cs := by
  induction xs with
  | nil => rfl
  | cons x xs ih =>
    rw [List.mem_cons, not_or] at h
    rw [List.cons_append, unescape_cons (Ne.symm h.1), ih h.2]
    rfl

theorem unescape_of_not_mem (h : '\\' ∉ xs) : unescapeQuote q xs = xs := by
  have happ : unescapeQuote q (xs ++ []) = xs ++ unescapeQuote q [] := unescape_append h
  rwa [unescape_nil, List.append_nil] at happ

/-- A text keeps its first character, or begins with a backslash and then with one or the quote. -/
theorem unescape_head (cs : List Char) :
    cs = [] ∨ (∃ c r, c ≠ '\\' ∧ cs = c :: r) ∨
      ∃ r d r', cs = '\\' :: r ∧ unescapeQuote q cs = d :: r' ∧ (d = q.char ∨ d = '\\') := by
  cases cs with
  | nil => exact Or.inl rfl
  | cons c r =>
    by_cases hc : c = '\\'
    · subst hc
      refine Or.inr (Or.inr ?_)
      cases r with
      | nil => exact ⟨[], '\\', [], rfl, rfl, Or.inr rfl⟩
      | cons c r =>
        rw [unescape_pair]
        split
        · rename_i hq
          exact ⟨_, _, _, rfl, rfl, Or.inl hq⟩
        · exact ⟨_, _, _, rfl, rfl, Or.inr rfl⟩
    · exact Or.inr (Or.inl ⟨c, r, hc, rfl⟩)

/-- A class of characters that has neither the backslash nor the quote. -/
def Apart (q : Quote) (p : Char → Bool) : Prop := p '\\' = false ∧ p q.char = false

theorem Apart.of_head {p : Char → Bool} (h : Apart q p) {d : Char} (hd : d = q.char ∨ d = '\\') :
    p d = false := by
  rcases hd with rfl | rfl
  · exact h.2
  · exact h.1

theorem Apart.ne {p : Char → Bool} (h : Apart q p) {d x : Char} (hd : d = q.char ∨ d = '\\')
    (hx : p x = true) : d ≠ x := by
  rintro rfl
  rw [h.of_head hd] at hx
  cases hx

theorem unescape_takeWhile {p : Char → Bool} (h : Apart q p) (cs : List Char) :
    (unescapeQuote q cs).takeWhile p = cs.takeWhile p := by
  induction cs with
  | nil => rw [unescape_nil]
  | cons c r ih =>
    rcases unescape_head (q := q) (c :: r) with hnil | ⟨c', r', hc, heq⟩ | ⟨r₁, d, r₂, heq, hd, hdq⟩
    · cases hnil
    · cases heq
      rw [unescape_cons hc, List.takeWhile_cons, List.takeWhile_cons, ih]
    · cases heq
      rw [hd, List.takeWhile_cons, List.takeWhile_cons, h.of_head hdq, h.1, if_neg Bool.false_ne_true,
        if_neg Bool.false_ne_true]

theorem unescape_dropWhile {p : Char → Bool} (h : Apart q p) (cs : List Char) :
    (unescapeQuote q cs).dropWhile p = unescapeQuote q (cs.dropWhile p) := by
  induction cs with
  | nil => rw [unescape_nil, List.dropWhile_nil, unescape_nil]
  | cons c r ih =>
    rcases unescape_head (q := q) (c :: r) with hnil | ⟨c', r', hc, heq⟩ | ⟨r₁, d, r₂, heq, hd, hdq⟩
    · cases hnil
    · cases heq
      rw [unescape_cons hc, List.dropWhile_cons, List.dropWhile_cons, ih]
      split
      · rfl
      · rw [unescape_cons hc]
    · cases heq
      have hstop : ('\\' :: r).dropWhile p = '\\' :: r := by
        rw [List.dropWhile_cons, h.1, if_neg Bool.false_ne_true]
      rw [hstop, hd, List.dropWhile_cons, h.of_head hdq, if_neg Bool.false_ne_true]

theorem unescape_isPrefixOf {w : List Char} (hw : ∀ c ∈ w, c ≠ '\\' ∧ c ≠ q.char) (cs : List Char) :
    w.isPrefixOf (unescapeQuote q cs) = w.isPrefixOf cs := by
  induction w generalizing cs with
  | nil => rw [List.isPrefixOf_nil_left, List.isPrefixOf_nil_left]
  | cons x w ih =>
    have hx := hw x List.mem_cons_self
    rcases unescape_head (q := q) cs with rfl | ⟨c, r, hc, rfl⟩ | ⟨r, d, r', rfl, hd, hdq⟩
    · rw [unescape_nil]
    · rw [unescape_cons hc, List.isPrefixOf_cons_cons, List.isPrefixOf_cons_cons,
        ih fun c hc => hw c (List.mem_cons_of_mem x hc)]
    · have hne : (x == d) = false := by
        rcases hdq with rfl | rfl
        · exact beq_false_of_ne hx.2
        · exact beq_false_of_ne hx.1
      rw [hd, List.isPrefixOf_cons_cons, List.isPrefixOf_cons_cons, hne, beq_false_of_ne hx.1]
      rfl

end CelSuite.Text
