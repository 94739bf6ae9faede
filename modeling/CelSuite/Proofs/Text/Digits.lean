import CelSuite.Exception
import Mathlib.Algebra.Group.Nat.Defs

/-! # Decimal digits

The digits that a number is written with read as the number, zeros before them weigh nothing, and a run of digits ends
where something else begins. Digits with a sign before them or without one are an integer for every reader of
integers. -/

namespace CelSuite.Text

variable {c : Char} {cs ds rest : List Char}

theorem isDigit_eq (c : Char) : isDigit c = c.isDigit := rfl

theorem isBlank_of_isDigit (h : isDigit c = true) : isBlank c = false := by
  rw [isDigit, Bool.and_eq_true, decide_eq_true_eq, decide_eq_true_eq] at h
  have hlow : 48 ≤ c.toNat := h.1
  have hhigh : c.toNat ≤ 57 := h.2
  simp [isBlank]
  omega

theorem ofDigits_eq_ofDigitChars (cs : List Char) : ofDigits cs = Nat.ofDigitChars 10 cs 0 := by
  rw [Nat.ofDigitChars_eq_foldl]
  rfl

theorem ofDigits_repr (n : Nat) : ofDigits n.repr.toList = n := by
  rw [ofDigits_eq_ofDigitChars, Nat.toList_repr, Nat.ofDigitChars_ten_toDigits]

theorem isDigit_repr (n : Nat) : ∀ c ∈ n.repr.toList, isDigit c = true := by
  intro c hc
  rw [Nat.toList_repr] at hc
  exact (isDigit_eq c).trans (Nat.isDigit_of_mem_toDigits (by decide) (by decide) hc)

theorem repr_ne_nil (n : Nat) : n.repr.toList ≠ [] := by
  rw [Nat.toList_repr]
  exact Nat.toDigits_ne_nil

theorem ofDigits_append (cs ds : List Char) :
    ofDigits (cs ++ ds) = ofDigits cs * 10 ^ ds.length + ofDigits ds := by
  rw [ofDigits_eq_ofDigitChars, ofDigits_eq_ofDigitChars, ofDigits_eq_ofDigitChars, Nat.ofDigitChars_append,
    Nat.ofDigitChars_eq_ofDigitChars_zero, Nat.mul_comm]

theorem ofDigits_zeros (n : Nat) : ofDigits (List.replicate n '0') = 0 := by
  rw [ofDigits_eq_ofDigitChars, Nat.ofDigitChars_replicate_zero, Nat.mul_zero]

/-- Where a run of characters of one class ends. -/
theorem takeWhile_run {p : Char → Bool} (hds : ∀ c ∈ ds, p c = true) (hrest : ∀ c ∈ rest.head?, p c = false) :
    (ds ++ rest).takeWhile p = ds ∧ (ds ++ rest).dropWhile p = rest := by
  rw [List.takeWhile_append_of_pos hds, List.dropWhile_append_of_pos hds]
  cases rest with
  | nil => simp
  | cons c rest =>
    rw [List.takeWhile_cons, List.dropWhile_cons, hrest c rfl]
    exact ⟨List.append_nil ds, rfl⟩

/-! ### Integers -/

/-- Where nothing is blank there is nothing to trim. -/
theorem trimChars_eq_self (h : ∀ c ∈ cs, isBlank c = false) : trimChars cs = cs := by
  have hnil : ∀ c ∈ ([] : List Char), isBlank c = true := nofun
  have hkeep {ds : List Char} (hds : ∀ c ∈ ds, isBlank c = false) : ds.dropWhile isBlank = ds :=
    (takeWhile_run hnil fun c hc => hds c (List.mem_of_mem_head? hc)).2
  rw [trimChars, hkeep h, hkeep fun c hc => h c (List.mem_reverse.mp hc), List.reverse_reverse]

theorem signedInteger?_digits (hds : ∀ c ∈ ds, isDigit c = true) (hne : ds ≠ []) :
    signedInteger? ds = some (ofDigits ds : Int) := by
  have hall : ds ≠ [] ∧ ds.all isDigit = true := ⟨hne, List.all_eq_true.mpr hds⟩
  unfold signedInteger?
  split
  · cases hds '-' List.mem_cons_self
  · cases hds '+' List.mem_cons_self
  · rw [if_pos hall]

/-- What is read as an integer is digits, with or without a sign. -/
theorem digits_of_signedInteger? {n : Int} (h : signedInteger? cs = some n) : ∃ ds, ds ≠ [] ∧
    (∀ c ∈ ds, isDigit c = true) ∧ (cs = ds ∨ cs = '-' :: ds ∨ cs = '+' :: ds) := by
  have hsplit {ds : List Char} (hall : ds ≠ [] ∧ ds.all isDigit = true) : ds ≠ [] ∧ ∀ c ∈ ds, isDigit c = true :=
    ⟨hall.1, List.all_eq_true.mp hall.2⟩
  unfold signedInteger? at h
  split at h
  all_goals
    split at h
    · rename_i hall
      exact ⟨_, (hsplit hall).1, (hsplit hall).2, by simp⟩
    · cases h

end CelSuite.Text

namespace CelSuite.Decimal
open Text

variable {cs ds : List Char} {s : String} {n : Int}

theorem base?_digits (h : ∀ c ∈ ds, isDigit c = true) : base? ds = none := by
  unfold base?
  split
  · rename_i c r
    have hc : isDigit c = true := h c (by simp)
    have hne {l : Char} (hl : isDigit l = false) : c ≠ l := fun heq => by simp [← heq, hc] at hl
    rw [if_neg (not_or.mpr ⟨hne rfl, hne rfl⟩), if_neg (not_or.mpr ⟨hne rfl, hne rfl⟩),
      if_neg (not_or.mpr ⟨hne rfl, hne rfl⟩)]
  · rfl

/-- There is nothing to trim, and no mark of a base, in an integer with or without a sign. -/
theorem integer?_of_signedInteger? (h : signedInteger? s.toList = some n) : integer? s = some n := by
  obtain ⟨ds, hne, hds, hcs⟩ := digits_of_signedInteger? h
  have hblank : ∀ c ∈ ds, isBlank c = false := fun c hc => isBlank_of_isDigit (hds c hc)
  have htrim : trimChars s.toList = s.toList := by
    refine trimChars_eq_self ?_
    rcases hcs with hcs | hcs | hcs
    · rwa [hcs]
    · rw [hcs]
      exact List.forall_mem_cons.mpr ⟨rfl, hblank⟩
    · rw [hcs]
      exact List.forall_mem_cons.mpr ⟨rfl, hblank⟩
  have hbase : base? s.toList = none := by
    rcases hcs with hcs | hcs | hcs
    · rw [hcs]
      exact base?_digits hds
    · rw [hcs]
      rfl
    · rw [hcs]
      rfl
  have hnil : s.toList ≠ [] := by
    rcases hcs with hcs | hcs | hcs <;> simp [hcs, hne]
  rw [integer?, htrim, if_neg hnil, hbase, h]

theorem integer?_digits (hds : ∀ c ∈ ds, isDigit c = true) (hne : ds ≠ []) :
    integer? (String.ofList ds) = some (ofDigits ds : Int) := by
  refine integer?_of_signedInteger? ?_
  rw [String.toList_ofList]
  exact signedInteger?_digits hds hne

theorem integer?_minus (hds : ∀ c ∈ ds, isDigit c = true) (hne : ds ≠ []) :
    integer? ("-" ++ String.ofList ds) = some (-(ofDigits ds : Int)) := by
  refine integer?_of_signedInteger? ?_
  have htext : ("-" ++ String.ofList ds).toList = '-' :: ds := by simp
  rw [htext, signedInteger?, if_pos ⟨hne, List.all_eq_true.mpr hds⟩]

end CelSuite.Decimal
