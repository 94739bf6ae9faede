import CelSuite.Text.Units
import Mathlib.Data.List.Lex
import Mathlib.Data.List.Nodup

/-! # The order of text

A text is told by its units: no character is a half of a pair, so the units of a text are read back as its
characters. Text in the order of units is therefore in strict order, and sorted text does not depend on
how it was arranged before. -/

namespace CelSuite.Text

variable {a b : String} {cs ds : List Char} {as bs : List Nat} {xs ys : List String}

/-! ### Units -/

theorem not_surrogate (c : Char) : c.toNat < 0xD800 ∨ 0xDFFF < c.toNat ∧ c.toNat < 0x110000 := c.valid

theorem joinPairs_unit {n : Nat} (h : n < 0xD800 ∨ 0xDFFF < n) (us : List Nat) :
    joinPairs (n :: us) = Char.ofNat n :: joinPairs us := by
  have hchar : joinPairs.charOfUnit n = Char.ofNat n := if_neg (by omega)
  cases us with
  | nil => rw [joinPairs, hchar, joinPairs]
  | cons u us => rw [joinPairs, if_neg (by omega), hchar]

theorem joinPairs_pair {hi lo : Nat} (hhi : 0xD800 ≤ hi ∧ hi < 0xDC00) (hlo : 0xDC00 ≤ lo ∧ lo < 0xE000)
    (us : List Nat) :
    joinPairs (hi :: lo :: us) = Char.ofNat (0x10000 + (hi - 0xD800) * 0x400 + (lo - 0xDC00)) :: joinPairs us := by
  rw [joinPairs, if_pos ⟨hhi.1, hhi.2, hlo⟩]

theorem joinPairs_unitsOfChar (c : Char) (us : List Nat) :
    joinPairs (unitsOfChar c ++ us) = c :: joinPairs us := by
  have hc := not_surrogate c
  unfold unitsOfChar unitsOfCodePoint
  split
  · rw [List.singleton_append, joinPairs_unit (by omega), Char.ofNat_toNat]
  · have hvalue : 0x10000 + (0xD800 + (c.toNat - 0x10000) / 0x400 - 0xD800) * 0x400 +
        (0xDC00 + (c.toNat - 0x10000) % 0x400 - 0xDC00) = c.toNat := by omega
    rw [List.cons_append, List.singleton_append, joinPairs_pair (by omega) (by omega), hvalue, Char.ofNat_toNat]

/-- The units of characters are read back as these characters. -/
@[simp]
theorem joinPairs_units (cs : List Char) : joinPairs (units cs) = cs := by
  induction cs with
  | nil => rfl
  | cons c cs ih => rw [units, List.flatMap_cons, joinPairs_unitsOfChar, ← units, ih]

@[simp]
theorem ofUnits_units (cs : List Char) : ofUnits (units cs) = String.ofList cs := by
  rw [ofUnits, joinPairs_units]

theorem units_inj : units cs = units ds ↔ cs = ds := by
  constructor
  · intro h
    rw [← joinPairs_units cs, h, joinPairs_units]
  · rintro rfl
    rfl

/-! ### Order -/

theorem unitsBefore_iff : unitsBefore as bs = true ↔ as < bs := by
  induction as generalizing bs with
  | nil => cases bs <;> simp [unitsBefore]
  | cons a as ih =>
    cases bs with
    | nil => simp [unitsBefore]
    | cons b bs =>
      rw [unitsBefore, List.cons_lt_cons_iff, ← ih]
      rcases Nat.lt_trichotomy a b with h | h | h
      · simp [h]
      · simp [h]
      · simp [h, Nat.lt_asymm h, Nat.ne_of_gt h]

theorem before_iff : before a b = true ↔ units a.toList < units b.toList := unitsBefore_iff

theorem not_before_iff : (!before a b) = true ↔ units b.toList ≤ units a.toList := by
  rw [Bool.not_eq_true', ← Bool.not_eq_true, before_iff, not_lt]

/-- Of two different texts one comes before the other. -/
theorem before_or_before (h : a ≠ b) : before a b = true ∨ before b a = true := by
  rw [before_iff, before_iff]
  by_contra hboth
  rw [not_or, not_lt, not_lt] at hboth
  exact h (String.toList_inj.mp (units_inj.mp (le_antisymm hboth.2 hboth.1)))

/-! ### Sorted text -/

theorem sorted_perm (xs : List String) : (sorted xs).Perm xs := List.mergeSort_perm _ _

theorem sorted_pairwise (xs : List String) : (sorted xs).Pairwise fun a b => (!before b a) = true := by
  refine List.pairwise_mergeSort (fun a b c hab hbc => ?_) (fun a b => ?_) xs
  · rw [not_before_iff] at hab hbc ⊢
    exact le_trans hab hbc
  · rw [Bool.or_eq_true, not_before_iff, not_before_iff]
    exact le_total _ _

/-- Texts that all differ are sorted in strict order. -/
theorem sorted_strict (h : xs.Nodup) : (sorted xs).Pairwise fun a b => before a b = true := by
  have hnodup : (sorted xs).Nodup := (sorted_perm xs).nodup_iff.mpr h
  refine (List.Pairwise.and (sorted_pairwise xs) hnodup).imp fun {a b} hab => ?_
  obtain ⟨hle, hne⟩ := hab
  rcases before_or_before hne with hbefore | hafter
  · exact hbefore
  · simp [hafter] at hle

theorem sorted_eq_of_perm (h : xs.Perm ys) : sorted xs = sorted ys := by
  have hperm : (sorted xs).Perm (sorted ys) := ((sorted_perm xs).trans h).trans (sorted_perm ys).symm
  refine hperm.eq_of_pairwise (fun a b _ _ hab hba => ?_) (sorted_pairwise xs) (sorted_pairwise ys)
  by_contra hne
  rcases before_or_before hne with hbefore | hafter
  · simp [hbefore] at hba
  · simp [hafter] at hab

end CelSuite.Text
