import CelSuite.Expr.Lexer
import CelSuite.Expr.Literal
import Mathlib.Data.List.Induction

/-! # Reading literals

One step of each reader of a literal: a character that stands for itself, an escape, and the parts of a
number that are absent. A hexadecimal digit weighs less than sixteen. -/

namespace CelSuite

variable {c : Char} {cs : List Char}

namespace Literal

theorem codePoints_cons (hc : c ≠ '\\') :
    codePoints (c :: cs) = (codePoints cs).map (c.toNat :: ·) := by
  rw [codePoints]
  exact fun hslash => absurd hslash hc

theorem codePoints_escape {n k : Nat} (h : stringEscape cs = .ok (n, k)) :
    codePoints ('\\' :: cs) = (codePoints (cs.drop k)).map (n :: ·) := by
  rw [codePoints, h]

theorem stringEscape_simple {n : Nat} (h : simpleEscape? c = some n) :
    stringEscape (c :: cs) = .ok (n, 1) := by
  rw [stringEscape, h]

end Literal

namespace Text

theorem hexValue?_lt (c : Char) : (hexValue? c).getD 0 < 16 := by
  have between {lo hi : Char} (h : (lo ≤ c && c ≤ hi) = true) : lo.toNat ≤ c.toNat ∧ c.toNat ≤ hi.toNat := by
    simp only [Bool.and_eq_true, decide_eq_true_eq, Char.le_def, UInt32.le_iff_toNat_le] at h
    exact h
  unfold hexValue?
  split
  · rename_i h
    obtain ⟨-, hhigh⟩ := between h
    exact Nat.lt_succ_of_le (Nat.sub_le_of_le_add (Nat.le_trans hhigh (by decide)))
  · split
    · rename_i h
      obtain ⟨-, hhigh⟩ := between h
      exact Nat.lt_succ_of_le (Nat.sub_le_of_le_add (Nat.le_trans hhigh (by decide)))
    · split
      · rename_i h
        obtain ⟨-, hhigh⟩ := between h
        exact Nat.lt_succ_of_le (Nat.sub_le_of_le_add (Nat.le_trans hhigh (by decide)))
      · decide

theorem ofHexDigits_lt (cs : List Char) : ofHexDigits cs < Nat.pow 16 cs.length := by
  induction cs using List.reverseRecOn with
  | nil => decide
  | append_singleton cs c ih =>
    have hlast := hexValue?_lt c
    have hstep : ofHexDigits (cs ++ [c]) = 16 * ofHexDigits cs + (hexValue? c).getD 0 := by
      rw [ofHexDigits, List.foldl_append]
      rfl
    have hpow : Nat.pow 16 (cs.length + 1) = Nat.pow 16 cs.length * 16 := rfl
    rw [hstep, List.length_append, List.length_singleton, hpow]
    omega

theorem decodeBytes_cons (hc : c ≠ '\\') :
    decodeBytes (c :: cs) = (decodeBytes cs).map (utf8OfChar c ++ ·) := by
  rw [decodeBytes]
  exact fun hslash => absurd hslash hc

theorem decodeBytes_escape {b : UInt8} {n : Nat} (h : byteEscape cs = .ok (b, n)) :
    decodeBytes ('\\' :: cs) = (decodeBytes (cs.drop n)).map (b :: ·) := by
  rw [decodeBytes, h]

end Text

namespace Lexer

theorem fractionPart_of_ne (h : c ≠ '.') : fractionPart (c :: cs) = [] := by
  unfold fractionPart
  split
  · rename_i heq
    cases heq
    exact absurd rfl h
  · rfl

theorem exponentPart_of_ne (hlow : c ≠ 'e') (hup : c ≠ 'E') : exponentPart (c :: cs) = [] :=
  if_neg (not_or.mpr ⟨hlow, hup⟩)

/-- After the letter of an exponent, without a sign. -/
theorem exponentPart_letter {s : Char} {ds : List Char} (hc : c = 'e' ∨ c = 'E') (hplus : s ≠ '+')
    (hminus : s ≠ '-') : exponentPart (c :: s :: ds) =
      if (s :: ds).takeWhile Text.isDigit = [] then [] else c :: (s :: ds).takeWhile Text.isDigit := by
  rw [exponentPart, if_pos hc]
  exact if_neg (not_or.mpr ⟨hplus, hminus⟩)

theorem suffixPart_of_ne (hlow : c ≠ 'u') (hup : c ≠ 'U') : suffixPart (c :: cs) = [] :=
  if_neg (not_or.mpr ⟨hlow, hup⟩)

end Lexer

end CelSuite
