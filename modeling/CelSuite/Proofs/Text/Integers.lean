import CelSuite.Expr.Functions
import CelSuite.Proofs.Rendering.Numbers

/-! # Integers in decimal text

A text writes an integer when it is decimal digits, with a sign before them or without one. There is no blank in such a
text, so trimming takes away the blanks around it and nothing else. -/

namespace CelSuite.Text
open Duration (Number)

/-- A text that writes an integer: digits, with or without a sign. -/
inductive WritesInteger : List Char → Int → Prop
  | unsigned (n : Number) : WritesInteger n.digits n.value
  | plus (n : Number) : WritesInteger ('+' :: n.digits) n.value
  | minus (n : Number) : WritesInteger ('-' :: n.digits) (-(n.value : Int))

/-- A text that writes a natural number: digits, with or without a plus. -/
inductive WritesNatural : List Char → Nat → Prop
  | unsigned (n : Number) : WritesNatural n.digits n.value
  | plus (n : Number) : WritesNatural ('+' :: n.digits) n.value

variable {cs : List Char} {z : Int}

/-! ### Reading -/

theorem exists_number (h : cs ≠ [] ∧ cs.all isDigit = true) : ∃ n : Number, n.digits = cs ∧ ofDigits cs = n.value := by
  obtain ⟨hne, hall⟩ := h
  let n : Number := ⟨cs, hne, fun c hc => (isDigit_eq c).symm.trans (List.all_eq_true.mp hall c hc)⟩
  exact ⟨n, rfl, n.ofDigits⟩

theorem signedInteger?_eq_some : signedInteger? cs = some z ↔ WritesInteger cs z := by
  constructor
  · intro h
    unfold signedInteger? at h
    split at h
    all_goals
      split at h
      · rename_i hdigits
        obtain ⟨n, rfl, hn⟩ := exists_number hdigits
        cases h
        rw [hn]
        constructor
      · cases h
  · intro h
    have hall (n : Number) : n.digits ≠ [] ∧ n.digits.all isDigit = true :=
      ⟨n.nonempty, List.all_eq_true.mpr n.isDigit⟩
    cases h with
    | unsigned n => rw [signedInteger?_digits n.isDigit n.nonempty, n.ofDigits]
    | plus n | minus n => rw [signedInteger?, if_pos (hall n), n.ofDigits]

theorem natural?_eq_some : Functions.natural? cs = some z ↔ ∃ n : Nat, WritesNatural cs n ∧ z = n := by
  constructor
  · intro h
    unfold Functions.natural? at h
    split at h
    · cases h
    · rename_i hminus
      cases signedInteger?_eq_some.mp h with
      | unsigned n => exact ⟨n.value, .unsigned n, rfl⟩
      | plus n => exact ⟨n.value, .plus n, rfl⟩
      | minus n => exact absurd rfl (hminus n.digits)
  · rintro ⟨n, hn, rfl⟩
    have hinteger : WritesInteger cs n := by
      cases hn with
      | unsigned n => exact .unsigned n
      | plus n => exact .plus n
    unfold Functions.natural?
    split
    · -- A minus is no digit.
      rename_i ds
      generalize hcs : '-' :: ds = cs at hn
      cases hn with
      | unsigned n => cases n.decimal '-' (hcs ▸ List.mem_cons_self)
      | plus n => cases hcs
    · exact signedInteger?_eq_some.mpr hinteger

/-! ### Writing -/

/-- An integer is written with the digits of its size, behind a minus if it is negative. -/
theorem writesInteger_repr (z : Int) : WritesInteger z.repr.toList z := by
  rw [Int.repr_eq_if]
  split
  · rename_i hpos
    have hwrites := WritesInteger.unsigned (.ofNat z.toNat)
    rwa [Number.value_ofNat, Int.toNat_of_nonneg hpos] at hwrites
  · rename_i hneg
    have hwrites := WritesInteger.minus (.ofNat (-z).toNat)
    have htext : ("-" ++ (-z).toNat.repr).toList = '-' :: (-z).toNat.repr.toList := String.toList_append
    rw [Number.value_ofNat, Int.toNat_of_nonneg (by omega), Int.neg_neg] at hwrites
    rwa [htext]

theorem writesNatural_repr (n : Nat) : WritesNatural n.repr.toList n := by
  have hwrites := WritesNatural.unsigned (.ofNat n)
  rwa [Number.value_ofNat] at hwrites

/-! ### Blanks around -/

/-- A text with blanks around it, or none. -/
inductive Around (cs : List Char) : List Char → Prop
  | mk {pre post : List Char} (hpre : ∀ c ∈ pre, isBlank c = true) (hpost : ∀ c ∈ post, isBlank c = true) :
      Around cs (pre ++ cs ++ post)

theorem around_trimChars (cs : List Char) : Around (trimChars cs) cs := by
  have hblank (ds : List Char) : ∀ c ∈ ds.takeWhile isBlank, isBlank c = true := List.all_eq_true.mp List.all_takeWhile
  have hend : trimChars cs ++ ((cs.dropWhile isBlank).reverse.takeWhile isBlank).reverse = cs.dropWhile isBlank := by
    rw [trimChars, ← List.reverse_append, List.takeWhile_append_dropWhile, List.reverse_reverse]
  have haround : Around (trimChars cs) (cs.takeWhile isBlank ++ trimChars cs ++
      ((cs.dropWhile isBlank).reverse.takeWhile isBlank).reverse) :=
    .mk (hblank cs) fun c hc => hblank _ c (List.mem_reverse.mp hc)
  rwa [List.append_assoc, hend, List.takeWhile_append_dropWhile] at haround

/-- Of a text without blanks trimming leaves all, and of the blanks around it nothing. -/
theorem Around.trimChars_eq {ds : List Char} (h : Around cs ds) (hne : cs ≠ [])
    (hcs : ∀ c ∈ cs, isBlank c = false) : trimChars ds = cs := by
  obtain ⟨hpre, hpost⟩ := h
  rename_i pre post
  have hstart : (pre ++ cs ++ post).dropWhile isBlank = cs ++ post := by
    rw [List.append_assoc]
    refine (takeWhile_run hpre fun c hc => hcs c ?_).2
    rw [List.head?_append_of_ne_nil _ hne] at hc
    exact List.mem_of_mem_head? hc
  have hrest : (post.reverse ++ cs.reverse).dropWhile isBlank = cs.reverse := by
    refine (takeWhile_run (fun c hc => hpost c (List.mem_reverse.mp hc)) fun c hc => hcs c ?_).2
    exact List.mem_reverse.mp (List.mem_of_mem_head? hc)
  rw [trimChars, hstart, List.reverse_append, hrest, List.reverse_reverse]

theorem WritesInteger.ne_nil (h : WritesInteger cs z) : cs ≠ [] := by
  cases h with
  | unsigned n => exact n.nonempty
  | plus n | minus n => exact List.cons_ne_nil _ _

theorem WritesInteger.not_blank (h : WritesInteger cs z) : ∀ c ∈ cs, isBlank c = false := by
  have hdigits (n : Number) : ∀ c ∈ n.digits, isBlank c = false := fun c hc => isBlank_of_isDigit (n.isDigit c hc)
  cases h with
  | unsigned n => exact hdigits n
  | plus n | minus n => exact List.forall_mem_cons.mpr ⟨rfl, hdigits n⟩

theorem signedInteger?_trimChars :
    signedInteger? (trimChars cs) = some z ↔ ∃ ds, WritesInteger ds z ∧ Around ds cs := by
  rw [signedInteger?_eq_some]
  constructor
  · exact fun h => ⟨_, h, around_trimChars cs⟩
  · rintro ⟨ds, hds, haround⟩
    rwa [haround.trimChars_eq hds.ne_nil hds.not_blank]

end CelSuite.Text
