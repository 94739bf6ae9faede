import CelSuite.Text.Utf8
import Mathlib.Data.List.Forall2
import Mathlib.Data.String.Basic

/-! # UTF-8 is decoded as it was encoded

The bytes of a character are told apart from the bytes of every other, and a sequence of bytes is the encoding of at
most one text. Which sequences are encodings is what the Unicode table of well-formed byte sequences says, row by
row; decoding accepts these and no others. -/

namespace CelSuite.Text

/-! ### The bytes of a character -/

/-- The bytes of a number, as many as it needs: the first begins with a mark for how many there are, and each byte
    after it holds six bits. -/
inductive Encodes (n : Nat) : List UInt8 → Prop
  | one {b : UInt8} : n < 0x80 → b.toNat = n → Encodes n [b]
  | two {b b₁ : UInt8} : 0x80 ≤ n → n < 0x800 → b.toNat = 0xC0 + n / 0x40 → b₁.toNat = 0x80 + n % 0x40 →
      Encodes n [b, b₁]
  | three {b b₁ b₂ : UInt8} : 0x800 ≤ n → n < 0x10000 → b.toNat = 0xE0 + n / 0x1000 →
      b₁.toNat = 0x80 + n / 0x40 % 0x40 → b₂.toNat = 0x80 + n % 0x40 → Encodes n [b, b₁, b₂]
  | four {b b₁ b₂ b₃ : UInt8} : 0x10000 ≤ n → n < 0x110000 → b.toNat = 0xF0 + n / 0x40000 →
      b₁.toNat = 0x80 + n / 0x1000 % 0x40 → b₂.toNat = 0x80 + n / 0x40 % 0x40 → b₃.toNat = 0x80 + n % 0x40 →
      Encodes n [b, b₁, b₂, b₃]

theorem toNat_toUInt8 {n : Nat} (h : n < 0x100) : n.toUInt8.toNat = n := Nat.mod_eq_of_lt h

theorem toUInt8_eq {n : Nat} {b : UInt8} (h : b.toNat = n) : n.toUInt8 = b := by
  subst h
  exact UInt8.ofNat_toNat

theorem toNat_lt (c : Char) : c.toNat < 0x110000 := by
  rcases c.valid with h | ⟨-, h⟩
  · exact Nat.lt_trans h (by decide)
  · exact h

theorem toNat_ofNat {n : Nat} (h : n.isValidChar) : (Char.ofNat n).toNat = n := by
  rw [Char.ofNat, dif_pos h]
  rfl

theorem encodes_utf8OfChar (c : Char) : Encodes c.toNat (utf8OfChar c) := by
  have hc := toNat_lt c
  simp only [utf8OfChar]
  split
  · exact .one ‹_› (toNat_toUInt8 (by omega))
  · split
    · exact .two (by omega) ‹_› (toNat_toUInt8 (by omega)) (toNat_toUInt8 (by omega))
    · split
      · exact .three (by omega) ‹_› (toNat_toUInt8 (by omega)) (toNat_toUInt8 (by omega)) (toNat_toUInt8 (by omega))
      · exact .four (by omega) hc (toNat_toUInt8 (by omega)) (toNat_toUInt8 (by omega)) (toNat_toUInt8 (by omega))
          (toNat_toUInt8 (by omega))

theorem utf8OfChar_eq {c : Char} {bs : List UInt8} (h : Encodes c.toNat bs) : utf8OfChar c = bs := by
  cases h with
  | one h hb => rw [utf8OfChar, if_pos h, toUInt8_eq hb]
  | two hlow h hb h₁ => rw [utf8OfChar, if_neg (by omega), if_pos h, toUInt8_eq hb, toUInt8_eq h₁]
  | three hlow h hb h₁ h₂ =>
    rw [utf8OfChar, if_neg (by omega), if_neg (by omega), if_pos h, toUInt8_eq hb, toUInt8_eq h₁, toUInt8_eq h₂]
  | four hlow h hb h₁ h₂ h₃ =>
    rw [utf8OfChar, if_neg (by omega), if_neg (by omega), if_neg (by omega), toUInt8_eq hb, toUInt8_eq h₁,
      toUInt8_eq h₂, toUInt8_eq h₃]

theorem utf8_cons (c : Char) (cs : List Char) : utf8 (c :: cs) = utf8OfChar c ++ utf8 cs := List.flatMap_cons

theorem encodes_utf8EncodeChar (c : Char) : Encodes c.toNat (String.utf8EncodeChar c) := by
  have hc := toNat_lt c
  change Encodes c.val.toNat _
  change c.val.toNat < _ at hc
  simp only [String.utf8EncodeChar]
  split
  · exact .one (by omega) (toNat_toUInt8 (by omega))
  · split
    · exact .two (by omega) (by omega) ((toNat_toUInt8 (by omega)).trans (by omega))
        ((toNat_toUInt8 (by omega)).trans (by omega))
    · split
      · exact .three (by omega) (by omega) ((toNat_toUInt8 (by omega)).trans (by omega))
          ((toNat_toUInt8 (by omega)).trans (by omega)) ((toNat_toUInt8 (by omega)).trans (by omega))
      · exact .four (by omega) hc ((toNat_toUInt8 (by omega)).trans (by omega))
          ((toNat_toUInt8 (by omega)).trans (by omega)) ((toNat_toUInt8 (by omega)).trans (by omega))
          ((toNat_toUInt8 (by omega)).trans (by omega))

/-- The bytes that a text is stored as. -/
def encoding (t : String) : List UInt8 := t.toUTF8.data.toList

theorem utf8_toList (t : String) : utf8 t.toList = encoding t := by
  have hchar : utf8OfChar = String.utf8EncodeChar := funext fun c => utf8OfChar_eq (encodes_utf8EncodeChar c)
  have hstored : t.toUTF8 = t.toList.utf8Encode := String.utf8Encode_toList.symm
  rw [utf8, hchar, encoding, hstored, List.utf8Encode, List.data_toByteArray, List.toList_toArray]

theorem encoding_ofList (cs : List Char) : encoding (String.ofList cs) = utf8 cs := by
  rw [← utf8_toList, String.toList_ofList]

/-! ### Decoding -/

theorem continuation?_eq_some {b : UInt8} {x : Nat} : continuation? b = some x ↔ b.toNat = 0x80 + x ∧ x < 0x40 := by
  unfold continuation?
  split
  · rw [Option.some_inj]
    omega
  · simp only [reduceCtorEq, false_iff]
    omega

theorem scalar?_eq_some {least n : Nat} {c : Char} : scalar? least n = some c ↔ c.toNat = n ∧ least ≤ n := by
  constructor
  · intro h
    unfold scalar? at h
    split at h
    · rename_i hvalid
      split at h
      · rename_i hleast
        have hn : n < UInt32.size := by rcases hvalid with h | h <;> simp only [UInt32.size] <;> omega
        obtain rfl := Option.some_inj.mp h
        exact ⟨Nat.mod_eq_of_lt hn, hleast⟩
      · cases h
    · cases h
  · rintro ⟨rfl, hleast⟩
    have hvalid : c.toNat.isValidChar := c.valid
    rw [scalar?, dif_pos hvalid, if_pos hleast, Option.some_inj]
    exact Char.ext UInt32.ofNat_toNat

theorem bind_of_some {α β : Type} {x : Option α} {a : α} (h : x = some a) (f : α → Option β) : (x >>= f) = f a := by
  subst h
  rfl

theorem decodeUtf8_append {c : Char} {taken : List UInt8} (h : Encodes c.toNat taken) (bs : List UInt8) :
    decodeUtf8 (taken ++ bs) = (decodeUtf8 bs).map (c :: ·) := by
  -- The binds are rewritten one at a time: `simp` leaves the kernel to compare two numbers above 0x10000 by unfolding.
  cases h with
  | @one b hn hb =>
    rw [List.singleton_append, decodeUtf8.eq_def]
    dsimp only
    rw [if_pos (show b.toNat < 0x80 by omega), hb, Char.ofNat_toNat]
  | @two b b₁ hlow hn hb h₁ =>
    have hx₁ := continuation?_eq_some.mpr ⟨h₁, by omega⟩
    have hc : scalar? 0x80 ((b.toNat - 0xC0) * 0x40 + c.toNat % 0x40) = some c :=
      scalar?_eq_some.mpr ⟨by omega, by omega⟩
    rw [List.cons_append, List.singleton_append, decodeUtf8.eq_def]
    dsimp only
    rw [if_neg (show ¬b.toNat < 0x80 by omega), if_neg (show ¬b.toNat < 0xC0 by omega),
      if_pos (show b.toNat < 0xE0 by omega), bind_of_some hx₁, bind_of_some hc]
    exact Option.map_eq_bind.symm
  | @three b b₁ b₂ hlow hn hb h₁ h₂ =>
    have hx₁ := continuation?_eq_some.mpr ⟨h₁, by omega⟩
    have hx₂ := continuation?_eq_some.mpr ⟨h₂, by omega⟩
    have hc : scalar? 0x800 ((b.toNat - 0xE0) * 0x1000 + c.toNat / 0x40 % 0x40 * 0x40 + c.toNat % 0x40) = some c :=
      scalar?_eq_some.mpr ⟨by omega, by omega⟩
    rw [List.cons_append, List.cons_append, List.singleton_append, decodeUtf8.eq_def]
    dsimp only
    rw [if_neg (show ¬b.toNat < 0x80 by omega), if_neg (show ¬b.toNat < 0xC0 by omega),
      if_neg (show ¬b.toNat < 0xE0 by omega), if_pos (show b.toNat < 0xF0 by omega), bind_of_some hx₁,
      bind_of_some hx₂, bind_of_some hc]
    exact Option.map_eq_bind.symm
  | @four b b₁ b₂ b₃ hlow hn hb h₁ h₂ h₃ =>
    have hx₁ := continuation?_eq_some.mpr ⟨h₁, by omega⟩
    have hx₂ := continuation?_eq_some.mpr ⟨h₂, by omega⟩
    have hx₃ := continuation?_eq_some.mpr ⟨h₃, by omega⟩
    have hc : scalar? 0x10000 ((b.toNat - 0xF0) * 0x40000 + c.toNat / 0x1000 % 0x40 * 0x1000 +
        c.toNat / 0x40 % 0x40 * 0x40 + c.toNat % 0x40) = some c :=
      scalar?_eq_some.mpr ⟨by omega, by omega⟩
    rw [List.cons_append, List.cons_append, List.cons_append, List.singleton_append, decodeUtf8.eq_def]
    dsimp only
    rw [if_neg (show ¬b.toNat < 0x80 by omega), if_neg (show ¬b.toNat < 0xC0 by omega),
      if_neg (show ¬b.toNat < 0xE0 by omega), if_neg (show ¬b.toNat < 0xF0 by omega),
      if_pos (show b.toNat < 0xF8 by omega), bind_of_some hx₁, bind_of_some hx₂, bind_of_some hx₃, bind_of_some hc]
    exact Option.map_eq_bind.symm

theorem decodeUtf8_utf8 (cs : List Char) : decodeUtf8 (utf8 cs) = some cs := by
  induction cs with
  | nil => rfl
  | cons c cs ih => rw [utf8_cons, decodeUtf8_append (encodes_utf8OfChar c), ih, Option.map_some]

theorem utf8_cons_eq {c : Char} {cs : List Char} {taken bs : List UInt8} (h : Encodes c.toNat taken)
    (hcs : utf8 cs = bs) : utf8 (c :: cs) = taken ++ bs := by
  rw [utf8_cons, utf8OfChar_eq h, hcs]

theorem utf8_of_decodeUtf8 {bs : List UInt8} {cs : List Char} (h : decodeUtf8 bs = some cs) : utf8 cs = bs := by
  fun_induction decodeUtf8 bs generalizing cs with
  | case1 =>
    cases h
    rfl
  | case2 b bs n h80 =>
    rename_i ih
    obtain ⟨cs, hcs, rfl⟩ := Option.map_eq_some_iff.mp h
    have hc : (Char.ofNat n).toNat = b.toNat := toNat_ofNat (.inl (by omega))
    exact utf8_cons_eq (.one (by omega) hc.symm) (ih hcs)
  | case4 b n h80 hC0 hE0 b₁ bs =>
    rename_i ih
    simp only [Option.bind_eq_bind, Option.bind_eq_some_iff, Option.pure_def, Option.some_inj, continuation?_eq_some,
      scalar?_eq_some] at h
    obtain ⟨x₁, hx₁, c, hc, cs, hcs, rfl⟩ := h
    exact utf8_cons_eq (.two (by omega) (by omega) (by omega) (by omega)) (ih hcs)
  | case6 b n h80 hC0 hE0 hF0 b₁ b₂ bs =>
    rename_i ih
    simp only [Option.bind_eq_bind, Option.bind_eq_some_iff, Option.pure_def, Option.some_inj, continuation?_eq_some,
      scalar?_eq_some] at h
    obtain ⟨x₁, hx₁, x₂, hx₂, c, hc, cs, hcs, rfl⟩ := h
    exact utf8_cons_eq (.three (by omega) (by omega) (by omega) (by omega) (by omega)) (ih hcs)
  | case8 b n h80 hC0 hE0 hF0 hF8 b₁ b₂ b₃ bs =>
    rename_i ih
    simp only [Option.bind_eq_bind, Option.bind_eq_some_iff, Option.pure_def, Option.some_inj, continuation?_eq_some,
      scalar?_eq_some] at h
    obtain ⟨x₁, hx₁, x₂, hx₂, x₃, hx₃, c, hc, cs, hcs, rfl⟩ := h
    exact utf8_cons_eq (.four (by omega) (toNat_lt c) (by omega) (by omega) (by omega) (by omega)) (ih hcs)
  | case3 | case5 | case7 | case9 | case10 => cases h

theorem decodeUtf8_eq_some {bs : List UInt8} {cs : List Char} : decodeUtf8 bs = some cs ↔ utf8 cs = bs :=
  ⟨utf8_of_decodeUtf8, fun h => h ▸ decodeUtf8_utf8 cs⟩

/-- An overlong form, half of a pair and a sequence that is cut short. -/
example : decodeUtf8 [0xC0, 0x80] = none ∧ decodeUtf8 [0xED, 0xA0, 0x80] = none ∧ decodeUtf8 [0xE2, 0x82] = none := by
  decide

theorem utf8_injective : Function.Injective utf8 := fun cs cs' h => by
  have heq := decodeUtf8_eq_some.mpr h
  rw [decodeUtf8_utf8] at heq
  exact (Option.some_inj.mp heq).symm

/-! ### Well-formed sequences -/

/-- The table of well-formed sequences: for each kind of character, which bytes may stand at each place. -/
def rows : List (List (Nat × Nat)) :=
  [[(0x00, 0x7F)],
    [(0xC2, 0xDF), (0x80, 0xBF)],
    [(0xE0, 0xE0), (0xA0, 0xBF), (0x80, 0xBF)],
    [(0xE1, 0xEC), (0x80, 0xBF), (0x80, 0xBF)],
    [(0xED, 0xED), (0x80, 0x9F), (0x80, 0xBF)],
    [(0xEE, 0xEF), (0x80, 0xBF), (0x80, 0xBF)],
    [(0xF0, 0xF0), (0x90, 0xBF), (0x80, 0xBF), (0x80, 0xBF)],
    [(0xF1, 0xF3), (0x80, 0xBF), (0x80, 0xBF), (0x80, 0xBF)],
    [(0xF4, 0xF4), (0x80, 0x8F), (0x80, 0xBF), (0x80, 0xBF)]]

def Within (r : Nat × Nat) (b : UInt8) : Prop := r.1 ≤ b.toNat ∧ b.toNat ≤ r.2

/-- The bytes fit a row of the table. -/
def FitsRow (bs : List UInt8) : Prop := ∃ row ∈ rows, List.Forall₂ Within row bs

/-- The bytes are sequences of the table, one after another. -/
inductive WellFormed : List UInt8 → Prop
  | nil : WellFormed []
  | append {taken bs : List UInt8} : FitsRow taken → WellFormed bs → WellFormed (taken ++ bs)

section
variable {b b₁ b₂ b₃ : UInt8} {bs : List UInt8}

theorem fitsRow_one : FitsRow [b] ↔ b.toNat < 0x80 := by
  simp only [FitsRow, rows, List.mem_cons, List.not_mem_nil, or_false, exists_eq_or_imp, List.forall₂_cons,
    Within, zero_le, true_and, List.forall₂_nil_right_iff, and_true, List.cons_ne_self, and_false, reduceCtorEq,
    ↓existsAndEq, or_self]
  omega

theorem fitsRow_two :
    FitsRow [b, b₁] ↔ (0xC2 ≤ b.toNat ∧ b.toNat < 0xE0) ∧ (0x80 ≤ b₁.toNat ∧ b₁.toNat < 0xC0) := by
  simp only [FitsRow, rows, List.mem_cons, List.not_mem_nil, or_false, exists_eq_or_imp, List.forall₂_cons,
    Within, List.forall₂_nil_left_iff, List.cons_ne_self, and_false, List.forall₂_nil_right_iff, and_true,
    reduceCtorEq, ↓existsAndEq, or_self, false_or]
  omega

theorem fitsRow_three :
    FitsRow [b, b₁, b₂] ↔ (0xE0 ≤ b.toNat ∧ b.toNat < 0xF0) ∧ (0x80 ≤ b₁.toNat ∧ b₁.toNat < 0xC0) ∧
      (0x80 ≤ b₂.toNat ∧ b₂.toNat < 0xC0) ∧
      (b.toNat = 0xE0 → 0xA0 ≤ b₁.toNat) ∧ (b.toNat = 0xED → b₁.toNat < 0xA0) := by
  simp only [FitsRow, rows, List.mem_cons, List.not_mem_nil, or_false, exists_eq_or_imp, List.forall₂_cons,
    Within, List.forall₂_nil_left_iff, reduceCtorEq, and_false, List.cons_ne_self, List.forall₂_nil_right_iff,
    and_true, ↓existsAndEq, or_self, false_or]
  omega

theorem fitsRow_four :
    FitsRow [b, b₁, b₂, b₃] ↔ (0xF0 ≤ b.toNat ∧ b.toNat < 0xF5) ∧ (0x80 ≤ b₁.toNat ∧ b₁.toNat < 0xC0) ∧
      (0x80 ≤ b₂.toNat ∧ b₂.toNat < 0xC0) ∧ (0x80 ≤ b₃.toNat ∧ b₃.toNat < 0xC0) ∧
      (b.toNat = 0xF0 → 0x90 ≤ b₁.toNat) ∧ (b.toNat = 0xF4 → b₁.toNat < 0x90) := by
  simp only [FitsRow, rows, List.mem_cons, List.not_mem_nil, or_false, exists_eq_or_imp, List.forall₂_cons,
    Within, List.forall₂_nil_left_iff, reduceCtorEq, and_false, List.cons_ne_self, List.forall₂_nil_right_iff,
    and_true, ↓existsAndEq, false_or, true_and]
  omega

theorem FitsRow.length (h : FitsRow bs) :
    (∃ b, bs = [b]) ∨ (∃ b b₁, bs = [b, b₁]) ∨ (∃ b b₁ b₂, bs = [b, b₁, b₂]) ∨ ∃ b b₁ b₂ b₃, bs = [b, b₁, b₂, b₃] := by
  obtain ⟨row, hrow, hfits⟩ := h
  have hlength : bs.length ∈ rows.map List.length := hfits.length_eq ▸ List.mem_map_of_mem hrow
  rw [← List.length_eq_one_iff, ← List.length_eq_two, ← List.length_eq_three, ← List.length_eq_four]
  simp only [rows, List.map_cons, List.map_nil, List.length_cons, List.length_nil, List.mem_cons,
    List.not_mem_nil, or_false] at hlength
  omega

/-- A number that is no half of a pair is that of a character. -/
theorem exists_char_encodes {n : Nat} (hvalid : n < 0xD800 ∨ 0xDFFF < n ∧ n < 0x110000) (h : Encodes n bs) :
    ∃ c : Char, Encodes c.toNat bs := by
  exact ⟨Char.ofNat n, (toNat_ofNat hvalid).symm ▸ h⟩

theorem fitsRow_iff_encodes : FitsRow bs ↔ ∃ c : Char, Encodes c.toNat bs := by
  constructor
  · intro h
    rcases h.length with ⟨b, rfl⟩ | ⟨b, b₁, rfl⟩ | ⟨b, b₁, b₂, rfl⟩ | ⟨b, b₁, b₂, b₃, rfl⟩
    · have hfits := fitsRow_one.mp h
      exact exists_char_encodes (n := b.toNat) (by omega) (.one hfits rfl)
    · have hfits := fitsRow_two.mp h
      exact exists_char_encodes (n := (b.toNat - 0xC0) * 0x40 + (b₁.toNat - 0x80)) (by omega)
        (.two (by omega) (by omega) (by omega) (by omega))
    · have hfits := fitsRow_three.mp h
      exact exists_char_encodes (n := (b.toNat - 0xE0) * 0x1000 + (b₁.toNat - 0x80) * 0x40 + (b₂.toNat - 0x80))
        (by omega) (.three (by omega) (by omega) (by omega) (by omega) (by omega))
    · have hfits := fitsRow_four.mp h
      exact exists_char_encodes (n := (b.toNat - 0xF0) * 0x40000 + (b₁.toNat - 0x80) * 0x1000 +
        (b₂.toNat - 0x80) * 0x40 + (b₃.toNat - 0x80))
        (by omega) (.four (by omega) (by omega) (by omega) (by omega) (by omega) (by omega))
  · rintro ⟨c, h⟩
    have hc : c.toNat < 0xD800 ∨ 0xDFFF < c.toNat ∧ c.toNat < 0x110000 := c.valid
    cases h with
    | one h hb => exact fitsRow_one.mpr (by omega)
    | two hlow h hb h₁ => exact fitsRow_two.mpr (by omega)
    | three hlow h hb h₁ h₂ => exact fitsRow_three.mpr (by omega)
    | four hlow h hb h₁ h₂ h₃ => exact fitsRow_four.mpr (by omega)

end

theorem wellFormed_iff {bs : List UInt8} : WellFormed bs ↔ ∃ cs, utf8 cs = bs := by
  constructor
  · intro h
    induction h with
    | nil => exact ⟨[], rfl⟩
    | append hrow _ ih =>
      obtain ⟨c, hc⟩ := fitsRow_iff_encodes.mp hrow
      obtain ⟨cs, rfl⟩ := ih
      exact ⟨c :: cs, utf8_cons_eq hc rfl⟩
  · rintro ⟨cs, rfl⟩
    induction cs with
    | nil => exact .nil
    | cons c cs ih =>
      rw [utf8_cons]
      exact .append (fitsRow_iff_encodes.mpr ⟨c, encodes_utf8OfChar c⟩) ih

theorem wellFormed_iff_encoding {bs : List UInt8} : WellFormed bs ↔ ∃ t, encoding t = bs := by
  rw [wellFormed_iff]
  constructor
  · rintro ⟨cs, rfl⟩
    exact ⟨String.ofList cs, encoding_ofList cs⟩
  · rintro ⟨t, rfl⟩
    exact ⟨t.toList, utf8_toList t⟩

/-! ### The byte order mark -/

def mark : List UInt8 := [0xEF, 0xBB, 0xBF]

theorem encodes_mark : Encodes '\uFEFF'.toNat mark := encodes_utf8OfChar '\uFEFF'

theorem mark_prefix_utf8_iff {cs : List Char} : mark <+: utf8 cs ↔ ∃ rest, cs = '\uFEFF' :: rest := by
  constructor
  · rintro ⟨bs, hbs⟩
    have hdecoded := decodeUtf8_utf8 cs
    rw [← hbs, decodeUtf8_append encodes_mark] at hdecoded
    obtain ⟨rest, -, rfl⟩ := Option.map_eq_some_iff.mp hdecoded
    exact ⟨rest, rfl⟩
  · rintro ⟨rest, rfl⟩
    exact ⟨utf8 rest, rfl⟩

theorem dropMark_mark (bs : List UInt8) : dropMark (mark ++ bs) = bs := rfl

theorem dropMark_eq_self_iff {bs : List UInt8} : dropMark bs = bs ↔ ¬mark <+: bs := by
  constructor
  · rintro h ⟨rest, rfl⟩
    have hlength := congrArg List.length h
    rw [dropMark_mark, List.length_append] at hlength
    exact absurd hlength (Nat.ne_of_lt (Nat.lt_add_of_pos_left (by decide)))
  · intro h
    unfold dropMark
    split
    · exact absurd ⟨_, rfl⟩ h
    · rfl

theorem wellFormed_dropMark {bs : List UInt8} : WellFormed (dropMark bs) ↔ WellFormed bs := by
  by_cases h : mark <+: bs
  · obtain ⟨bs, rfl⟩ := h
    rw [wellFormed_iff, wellFormed_iff]
    constructor
    · rintro ⟨cs, hcs⟩
      exact ⟨'\uFEFF' :: cs, utf8_cons_eq encodes_mark hcs⟩
    · rintro ⟨cs, hcs⟩
      obtain ⟨rest, rfl⟩ := mark_prefix_utf8_iff.mp ⟨bs, hcs.symm⟩
      exact ⟨rest, List.append_cancel_left hcs⟩
  · rw [dropMark_eq_self_iff.mpr h]

end CelSuite.Text
