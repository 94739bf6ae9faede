import CelSuite.Unicode.Ranges
import Mathlib.Data.String.Basic

/-! # Looking up a character

The ranges of a table ascend, so a character is looked up by reading words from the left only until a range begins
after it. A table is a long text, and most characters of interest stand near its beginning. -/

namespace CelSuite

/-! ### A text cut at one character -/

namespace Text

theorem splitOnAux_singleton (s : String) (c : Char) (b i : String.Pos.Raw) (r : List String) :
    s.splitOnAux (String.singleton c) b i 0 r = s.splitAux (· == c) b i r := by
  have hget : String.Pos.Raw.get (String.singleton c) 0 = c := by
    rw [String.singleton_eq_ofList]
    exact String.get_of_valid [] [c]
  have hnext : String.Pos.Raw.next (String.singleton c) 0 = ⟨c.utf8Size⟩ := by
    rw [String.Pos.Raw.next, hget]
    exact String.Pos.Raw.zero_add_char_eq c
  have hend : String.Pos.Raw.atEnd (String.singleton c) ⟨c.utf8Size⟩ = true := by simp [String.Pos.Raw.atEnd]
  fun_induction String.splitAux s (· == c) b i r with
  | case1 b i r h => rw [String.splitOnAux, if_pos h]
  | case2 b i r h hlt hc i' ih =>
    -- The piece ends where the separator began, one character back from where the reading goes on.
    have hback : (String.Pos.Raw.next s i).unoffsetBy ⟨c.utf8Size⟩ = i := by
      rw [beq_iff_eq] at hc
      simp [String.Pos.Raw.next, String.Pos.Raw.unoffsetBy, hc]
    rw [String.splitOnAux, if_neg h, hget, if_pos hc, hnext, if_pos hend]
    simp only [hback]
    exact ih
  | case3 b i r h hlt hc ih =>
    rw [String.splitOnAux, if_neg h, hget, if_neg hc]
    exact ih

theorem splitOn_singleton (s : String) (c : Char) :
    s.splitOn (String.singleton c) = (s.toList.splitOn c).map String.ofList := by
  have hne : (String.singleton c == "") = false := by simp
  rw [String.splitOn, hne, if_neg Bool.false_ne_true, splitOnAux_singleton]
  exact String.splitToList_of_valid s (· == c)

end Text

namespace Unicode.Ranges

/-- The ends of the range that a word writes, counted from `start`. -/
def ends (start : Nat) (w : List Char) : Nat × Nat :=
  let low := start + hexNumber (w.takeWhile (· ≠ '+'))
  (low, low + hexNumber ((w.dropWhile (· ≠ '+')).drop 1))

theorem ofWords_cons (start : Nat) (w : String) (ws : List String) :
    ofWords start (w :: ws) = ends start w.toList :: ofWords ((ends start w.toList).2 + 1) ws := rfl

theorem start_le_ends (start : Nat) (w : List Char) : start ≤ (ends start w).1 ∧ (ends start w).1 ≤ (ends start w).2 :=
  ⟨Nat.le_add_right .., Nat.le_add_right ..⟩

theorem contains_cons (r : Nat × Nat) (rs : Ranges) (n : Nat) :
    Ranges.contains (r :: rs) n = ((r.1 ≤ n && n ≤ r.2) || Ranges.contains rs n) := rfl

theorem not_contains_of_lt {n : Nat} (ws : List String) {start : Nat} (h : n < start) :
    (ofWords start ws).contains n = false := by
  induction ws generalizing start with
  | nil => rfl
  | cons w ws ih =>
    obtain ⟨hlow, hhigh⟩ := start_le_ends start w.toList
    rw [ofWords_cons, contains_cons, ih (by omega), Bool.or_false, decide_eq_false (by omega), Bool.false_and]

/-- Whether a character is in one of the ranges that words write, read up to the first range that begins after it. -/
def search (n start : Nat) : List (List Char) → Bool
  | [] => false
  | w :: ws =>
    if n < (ends start w).1 then false
    else if n ≤ (ends start w).2 then true
    else search n ((ends start w).2 + 1) ws

theorem contains_ofWords (n : Nat) (ws : List (List Char)) (start : Nat) :
    (ofWords start (ws.map String.ofList)).contains n = search n start ws := by
  induction ws generalizing start with
  | nil => rfl
  | cons w ws ih =>
    have hle := (start_le_ends start w).2
    rw [List.map_cons, ofWords_cons, String.toList_ofList, contains_cons, search]
    split
    · rename_i hlow
      rw [not_contains_of_lt _ (by omega), decide_eq_false (by omega)]
      rfl
    · rename_i hlow
      split
      · rename_i hhigh
        simp [hhigh, Nat.not_lt.mp hlow]
      · rename_i hhigh
        rw [ih, decide_eq_false hhigh, Bool.and_false, Bool.false_or]

theorem contains_ofText (s : String) (n : Nat) : (ofText s).contains n = search n 0 (s.toList.splitOn ' ') := by
  rw [ofText, ← contains_ofWords, ← Text.splitOn_singleton]
  rfl

end Unicode.Ranges

end CelSuite
