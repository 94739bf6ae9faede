import CelSuite.Proofs.Escapes.Unescape
import CelSuite.Proofs.Lexing.Literals

/-! # Literals mean the same without the escapes of a quote

An escaped quote stands for the quote itself. Every other escape is kept, with all its digits: a digit is
no backslash and no quote, so where an escape of a variable length ends does not change either. -/

namespace CelSuite.Text

variable {q : Quote} {c : Char} {cs : List Char}

theorem takeUpTo_starts (p : Char → Bool) (n : Nat) (cs : List Char) : takeUpTo p n cs <+: cs := by
  induction cs generalizing n with
  | nil => cases n <;> exact List.nil_prefix
  | cons c cs ih =>
    cases n with
    | zero => exact List.nil_prefix
    | succ n =>
      rw [takeUpTo]
      split
      · exact List.cons_prefix_cons.mpr ⟨rfl, ih n⟩
      · exact List.nil_prefix

theorem takeUpTo_all {p : Char → Bool} (n : Nat) (cs : List Char) : ∀ c ∈ takeUpTo p n cs, p c = true := by
  induction cs generalizing n with
  | nil => cases n <;> exact nofun
  | cons c cs ih =>
    cases n with
    | zero => exact nofun
    | succ n =>
      rw [takeUpTo]
      split
      · rename_i hc
        intro d hd
        rcases List.mem_cons.mp hd with rfl | hd
        · exact hc
        · exact ih n d hd
      · exact nofun

theorem unescape_takeUpTo {p : Char → Bool} (h : Apart q p) (n : Nat) (cs : List Char) :
    takeUpTo p n (unescapeQuote q cs) = takeUpTo p n cs := by
  induction cs generalizing n with
  | nil => rw [unescape_nil]
  | cons c r ih =>
    cases n with
    | zero => rfl
    | succ n =>
      rcases unescape_head (q := q) (c :: r) with hnil | ⟨c', r', hc, heq⟩ | ⟨r₁, d, r₂, heq, hd, hdq⟩
      · cases hnil
      · cases heq
        rw [unescape_cons hc, takeUpTo, takeUpTo, ih]
      · cases heq
        rw [hd, takeUpTo, takeUpTo, h.of_head hdq, h.1, if_neg Bool.false_ne_true, if_neg Bool.false_ne_true]

/-- What is left after characters without a backslash. -/
theorem unescape_drop {ps : List Char} (h : ps <+: cs) (hps : '\\' ∉ ps) :
    (unescapeQuote q cs).drop ps.length = unescapeQuote q (cs.drop ps.length) := by
  obtain ⟨r, rfl⟩ := h
  rw [unescape_append hps, List.drop_left, List.drop_left]

theorem not_mem_of_all {p : Char → Bool} {ps : List Char} (h : Apart q p) (hps : ∀ c ∈ ps, p c = true) :
    '\\' ∉ ps := by
  intro hmem
  have hslash := hps _ hmem
  rw [h.1] at hslash
  cases hslash

theorem apart_octal (q : Quote) : Apart q fun c => (octalValue? c).isSome := by
  cases q <;> exact ⟨rfl, rfl⟩

theorem apart_hex (q : Quote) : Apart q fun c => (hexValue? c).isSome := by
  cases q <;> exact ⟨rfl, rfl⟩

theorem apart_digit (q : Quote) : Apart q isDigit := by
  cases q <;> exact ⟨rfl, rfl⟩

/-! ### Bytes -/

theorem byteEscape_quote (cs : List Char) : byteEscape (q.char :: cs) = .ok (q.char.toNat.toUInt8, 1) := by
  cases q <;> rfl

/-- The bytes of a quote that stands alone. -/
theorem utf8OfChar_quote (q : Quote) : utf8OfChar q.char = [q.char.toNat.toUInt8] := by
  cases q <;> decide

/-- An escape that is kept stays the same escape, and what follows it is unescaped. -/
theorem byteEscape_unescape {b : UInt8} {n : Nat} (h : byteEscape (c :: cs) = .ok (b, n)) :
    byteEscape (c :: unescapeQuote q cs) = .ok (b, n) ∧
      (c :: unescapeQuote q cs).drop n = unescapeQuote q ((c :: cs).drop n) := by
  unfold byteEscape at h ⊢
  dsimp only at h ⊢
  cases hs : simpleEscape? c with
  | some b' =>
    rw [hs] at h
    cases h
    exact ⟨rfl, rfl⟩
  | none =>
    have hc : c ≠ '\\' := by
      rintro rfl
      cases hs
    rw [hs] at h
    dsimp only at h ⊢
    rw [← unescape_cons hc, unescape_takeUpTo (apart_octal q), unescape_takeUpTo (apart_hex q)]
    have hoctal := not_mem_of_all (apart_octal q) (takeUpTo_all 3 (c :: cs))
    have hhex := not_mem_of_all (apart_hex q) (takeUpTo_all 2 cs)
    split at h
    · rename_i hne
      rw [if_pos hne]
      split at h
      · cases h
      · rename_i hsmall
        cases h
        rw [if_neg hsmall]
        exact ⟨rfl, unescape_drop (takeUpTo_starts _ 3 (c :: cs)) hoctal⟩
    · rename_i hne
      rw [if_neg hne]
      split at h
      · rename_i hx
        rw [if_pos hx]
        split at h
        · cases h
        · rename_i hdigits
          cases h
          rw [if_neg hdigits, unescape_cons hc, Nat.add_comm 1, List.drop_succ_cons, List.drop_succ_cons]
          exact ⟨rfl, unescape_drop (takeUpTo_starts _ 2 cs) hhex⟩
      · cases h

theorem decodeBytes_unescape {bs : List UInt8} (h : decodeBytes cs = .ok bs) :
    decodeBytes (unescapeQuote q cs) = .ok bs := by
  induction cs using decodeBytes.induct generalizing bs with
  | case1 => rw [unescape_nil, h]
  | case2 rest e he =>
    rw [decodeBytes, he] at h
    cases h
  | case3 rest b n he ih =>
    rw [decodeBytes_escape he] at h
    obtain ⟨bs', hbs, rfl⟩ := map_eq_ok.mp h
    cases rest with
    | nil => cases he
    | cons c r =>
      rw [unescape_pair]
      split
      · rename_i hq
        rw [hq, byteEscape_quote] at he
        cases he
        rw [List.cons_append, hq, decodeBytes_cons q.char_ne_backslash, List.nil_append]
        have hrest := ih hbs
        rw [List.drop_succ_cons, List.drop_zero] at hrest
        rw [hrest, utf8OfChar_quote]
        rfl
      · obtain ⟨he', hdrop⟩ := byteEscape_unescape (q := q) he
        rw [List.cons_append, List.cons_append, List.nil_append, decodeBytes_escape he', hdrop, ih hbs]
        rfl
  | case4 c rest hc ih =>
    have hslash : c ≠ '\\' := fun heq => hc heq
    rw [decodeBytes_cons hslash] at h
    obtain ⟨bs', hbs, rfl⟩ := map_eq_ok.mp h
    rw [unescape_cons hslash, decodeBytes_cons hslash, ih hbs]
    rfl

end CelSuite.Text

namespace CelSuite.Literal
open Text

variable {q : Quote} {c : Char} {cs : List Char}

/-! ### Strings -/

theorem stringEscape_quote (cs : List Char) : stringEscape (q.char :: cs) = .ok (q.char.toNat, 1) := by
  cases q <;> rfl

/-- As many digits as an escape needs are kept. -/
theorem unescape_take {w : Nat} (hlen : (cs.take w).length = w)
    (hhex : (cs.take w).all (fun d => (hexValue? d).isSome) = true) :
    (unescapeQuote q cs).take w = cs.take w ∧ (unescapeQuote q cs).drop w = unescapeQuote q (cs.drop w) := by
  have hslash := not_mem_of_all (apart_hex q) (List.all_eq_true.mp hhex)
  have happ : unescapeQuote q cs = cs.take w ++ unescapeQuote q (cs.drop w) := by
    rw [← unescape_append hslash, List.take_append_drop]
  rw [happ]
  exact ⟨List.take_left' hlen, List.drop_left' hlen⟩

theorem stringEscape_unescape {n k : Nat} (h : stringEscape (c :: cs) = .ok (n, k)) :
    stringEscape (c :: unescapeQuote q cs) = .ok (n, k) ∧
      (c :: unescapeQuote q cs).drop k = unescapeQuote q ((c :: cs).drop k) := by
  unfold stringEscape at h ⊢
  dsimp only at h ⊢
  cases hs : simpleEscape? c with
  | some m =>
    rw [hs] at h
    cases h
    exact ⟨rfl, rfl⟩
  | none =>
    rw [hs] at h
    dsimp only at h ⊢
    cases hw : escapeWidth? c with
    | none =>
      rw [hw] at h
      cases h
    | some w =>
      rw [hw] at h
      dsimp only at h ⊢
      split at h
      · rename_i hdigits
        obtain ⟨htake, hdrop⟩ := unescape_take (q := q) hdigits.1 hdigits.2
        rw [htake, if_pos hdigits]
        split at h
        · cases h
        · rename_i hsmall
          cases h
          rw [if_neg hsmall, Nat.add_comm 1, List.drop_succ_cons, List.drop_succ_cons]
          exact ⟨rfl, hdrop⟩
      · cases h

theorem codePoints_unescape {ns : List Nat} (h : codePoints cs = .ok ns) :
    codePoints (unescapeQuote q cs) = .ok ns := by
  induction cs using codePoints.induct generalizing ns with
  | case1 => rw [unescape_nil, h]
  | case2 rest e he =>
    rw [codePoints, he] at h
    cases h
  | case3 rest n k he ih =>
    rw [codePoints_escape he] at h
    obtain ⟨ns', hns, rfl⟩ := map_eq_ok.mp h
    cases rest with
    | nil => cases he
    | cons c r =>
      rw [unescape_pair]
      split
      · rename_i hq
        rw [hq, stringEscape_quote] at he
        cases he
        rw [List.cons_append, hq, codePoints_cons q.char_ne_backslash, List.nil_append]
        have hrest := ih hns
        rw [List.drop_succ_cons, List.drop_zero] at hrest
        rw [hrest]
        rfl
      · obtain ⟨he', hdrop⟩ := stringEscape_unescape (q := q) he
        rw [List.cons_append, List.cons_append, List.nil_append, codePoints_escape he', hdrop, ih hns]
        rfl
  | case4 c rest hc ih =>
    have hslash : c ≠ '\\' := fun heq => hc heq
    rw [codePoints_cons hslash] at h
    obtain ⟨ns', hns, rfl⟩ := map_eq_ok.mp h
    rw [unescape_cons hslash, codePoints_cons hslash, ih hns]
    rfl

end CelSuite.Literal

namespace CelSuite.Grammar
open Text

/-- A word without the escapes of a quote; only string and bytes literals have any. -/
def unescapeWord (q : Quote) (w : Word) : Word :=
  if w.kind = .string ∨ w.kind = .bytes then ⟨w.kind, expandEscapes q w.text⟩ else w

/-- A literal means the same without the escapes of a quote. -/
theorem Literal.unescape {q : Quote} {negative : Bool} {w : Word} {e : Expr} (h : Literal negative w e) :
    Literal negative (unescapeWord q w) e := by
  cases h with
  | int reads range => exact .int reads range
  | uint positive reads range => exact .uint positive reads range
  | double => exact .double
  | string positive escapes =>
    refine .string positive ?_
    rw [expandEscapes, String.toList_ofList]
    exact Literal.codePoints_unescape escapes
  | bytes positive escapes =>
    refine .bytes positive ?_
    rw [expandEscapes, String.toList_ofList]
    exact decodeBytes_unescape escapes

end CelSuite.Grammar
