import CelSuite.Proofs.Rendering.Numbers
import CelSuite.Proofs.Rendering.Texts
import Mathlib.Data.Bool.AllAny

/-! # Lexemes of rendered values

In the notation of values a lexeme ends where a bracket closes, at a comma or a colon, or with the text.
None of these goes on with a number or a name, so each piece of the notation is one lexeme. -/

namespace CelSuite.Lexer
open Text

variable {c : Char} {cs ds body rest : List Char} {ls : List Lexeme}

/-- What can follow a value in the notation of values. -/
def enders : List Char := [',', ']', '\x7d', ':', ')']

/-- The text is at its end, or goes on after a value. -/
def Ends (rest : List Char) : Prop := ∀ c ∈ rest.head?, c ∈ enders

theorem ends_cons (h : c ∈ enders) : Ends (c :: rest) := by
  rintro d ⟨⟩
  exact h

/-! ### Numbers -/

theorem number_digits (hds : ∀ c ∈ ds, isDigit c = true)
    (hrest : ∀ c ∈ rest.head?, isDigit c = false ∧ c ≠ '.' ∧ c ≠ 'e' ∧ c ≠ 'E') :
    number 0 (ds ++ rest) = .ok ⟨if suffixPart rest = [] then .int else .uint, ds, ds ++ suffixPart rest⟩ := by
  obtain ⟨htake, hdrop⟩ := takeWhile_run hds fun c hc => (hrest c hc).1
  have hfraction : fractionPart rest = [] := by
    cases rest with
    | nil => rfl
    | cons c rest => exact fractionPart_of_ne (hrest c rfl).2.1
  have hexponent : exponentPart rest = [] := by
    cases rest with
    | nil => rfl
    | cons c rest => exact exponentPart_of_ne (hrest c rfl).2.2.1 (hrest c rfl).2.2.2
  rw [number, htake, hdrop]
  simp only [hfraction, hexponent, List.length_nil, List.drop_zero, List.append_nil, and_self, if_true]

theorem lexes_number {l : Lexeme} (hds : ∀ c ∈ ds, isDigit c = true) (hne : ds ≠ [])
    (hn : number 0 (ds ++ cs) = .ok l) (hcs : ds ++ cs = l.spelling ++ rest) (h : Lexes rest ls) :
    Lexes (ds ++ cs) (l :: ls) := by
  obtain ⟨d, ds, rfl⟩ := List.exists_cons_of_ne_nil hne
  exact .of_leads (.number (hds d List.mem_cons_self) hn) hcs h

theorem lexes_int (n : Nat) (hr : Ends rest) (h : Lexes rest ls) :
    Lexes (n.repr.toList ++ rest) (⟨.int, n.repr.toList, n.repr.toList⟩ :: ls) := by
  have hrest : ∀ c ∈ enders, isDigit c = false ∧ c ≠ '.' ∧ c ≠ 'e' ∧ c ≠ 'E' :=
    List.all_iff_forall_prop.mp rfl
  have hsuffix : suffixPart rest = [] := by
    have hends : ∀ c ∈ enders, c ≠ 'u' ∧ c ≠ 'U' := List.all_iff_forall_prop.mp rfl
    cases rest with
    | nil => rfl
    | cons c rest => exact suffixPart_of_ne (hends c (hr c rfl)).1 (hends c (hr c rfl)).2
  have hn := number_digits (isDigit_repr n) fun c hc => hrest c (hr c hc)
  rw [hsuffix, if_pos rfl, List.append_nil] at hn
  exact lexes_number (isDigit_repr n) (repr_ne_nil n) hn rfl h

theorem lexes_uint (n : Nat) (h : Lexes rest ls) :
    Lexes (n.repr.toList ++ 'u' :: rest) (⟨.uint, n.repr.toList, n.repr.toList ++ ['u']⟩ :: ls) := by
  have hu : ∀ c ∈ ('u' :: rest).head?, isDigit c = false ∧ c ≠ '.' ∧ c ≠ 'e' ∧ c ≠ 'E' := by
    rintro c ⟨⟩
    decide
  exact lexes_number (isDigit_repr n) (repr_ne_nil n) (number_digits (isDigit_repr n) hu) (by simp) h

/-! ### Names -/

/-- Whether characters are a name of at least two characters. -/
def isName : List Char → Bool
  | c :: d :: cs => isIdentStart c && (isIdentChar d && cs.all isIdentChar)
  | _ => false

theorem lexes_name (hname : isName cs = true) (hrest : ∀ c ∈ rest.head?, isIdentChar c = false)
    (h : Lexes rest ls) : Lexes (cs ++ rest) (⟨.ident, cs, cs⟩ :: ls) := by
  unfold isName at hname
  split at hname
  · rename_i c d ds
    obtain ⟨hc, hds⟩ := Bool.and_eq_true_iff.mp hname
    have hall : ∀ x ∈ d :: ds, isIdentChar x = true := by
      rw [← List.all_eq_true, List.all_cons]
      exact hds
    have hlead : Leads (c :: (d :: ds ++ rest))
        ⟨.ident, c :: (d :: ds ++ rest).takeWhile isIdentChar, c :: (d :: ds ++ rest).takeWhile isIdentChar⟩ := by
      refine .ident hc fun _ q hq => ?_
      cases hq
      rw [← Bool.not_eq_true]
      intro hquote
      have hd := hall d List.mem_cons_self
      rcases isQuote_iff.mp hquote with rfl | rfl <;> cases hd
    rw [(takeWhile_run hall hrest).1] at hlead
    exact .of_leads hlead rfl h
  · cases hname

theorem ends_name (hr : Ends rest) : ∀ c ∈ rest.head?, isIdentChar c = false := by
  have hends : ∀ c ∈ enders, isIdentChar c = false := List.all_iff_forall_prop.mp rfl
  exact fun c hc => hends c (hr c hc)

/-! ### Punctuation -/

/-- The operators of one character that the notation of values uses. -/
def punctuation : List Char := ['[', ']', '\x7b', '\x7d', '(', ')', ',', ':', '.', '-']

theorem lexes_punctuation (hc : c ∈ punctuation) (h : Lexes rest ls) :
    Lexes (c :: rest) (⟨.op, [c], [c]⟩ :: ls) := by
  simp only [punctuation, List.mem_cons, List.not_mem_nil, or_false] at hc
  rcases hc with rfl | rfl | rfl | rfl | rfl | rfl | rfl | rfl | rfl | rfl
  all_goals exact .of_leads (.operator rfl rfl rfl rfl) rfl h

/-! ### Literals -/

theorem lexes_string (hb : Body '"' body) (h : Lexes rest ls) :
    Lexes ('"' :: (body ++ '"' :: rest)) (⟨.string, body, '"' :: (body ++ ['"'])⟩ :: ls) :=
  .of_leads (.string rfl hb) (by simp) h

theorem lexes_bytes (hb : Body '"' body) (h : Lexes rest ls) :
    Lexes ('b' :: '"' :: (body ++ '"' :: rest)) (⟨.bytes, body, 'b' :: '"' :: (body ++ ['"'])⟩ :: ls) :=
  .of_leads (.bytes (Or.inl rfl) rfl hb) (by simp) h

end CelSuite.Lexer
