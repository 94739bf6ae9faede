import CelSuite.Fixture.Payload
import CelSuite.Proofs.Escapes.Literals
import CelSuite.Proofs.Text.Utf8
import CelSuite.Value.Render
import Mathlib.Data.Nat.Digits.Defs

/-! # Bytes literals are read unit by unit

A bytes literal is cut from the left into units: a character that stands for its encoding, or an escape for one
byte. An escape with digits takes as many as are there, up to the most it may have, so where a unit ends is decided
by what follows it. Behind a backslash there is always either an escape or one of four defects, and never both; so a
literal without a value has a first place that is no unit. An escape that is written with the most digits ends there
whatever follows, which is why such escapes can be put side by side. -/

namespace CelSuite.Text

variable {value? : Char → Option Nat} {base most n : Nat} {c : Char} {b : UInt8} {d : BytesDefect}
  {cs ds rest u t tail : List Char} {bs out : List UInt8}

/-! ### Digits -/

/-- Digits of a base, the highest first, and the number that they write. -/
def Writes (value? : Char → Option Nat) (base : Nat) (ds : List Char) (n : Nat) : Prop :=
  ∃ vs : List Nat, ds.map value? = vs.map some ∧ Nat.ofDigits base vs.reverse = n

/-- Digits that write a number: as many as stand before the rest, but no more than `most`. -/
structure Digits (value? : Char → Option Nat) (base most : Nat) (ds rest : List Char) (n : Nat) : Prop where
  nonempty : ds ≠ []
  within : ds.length ≤ most
  all : ds.length = most ∨ ∀ c ∈ rest.head?, value? c = none
  writes : Writes value? base ds n

theorem not_digit_iff : (value? c).isSome = false ↔ value? c = none :=
  Option.isSome_eq_false_iff.trans Option.isNone_iff_eq_none

theorem foldl_eq_ofDigits {vs : List Nat} (h : ds.map value? = vs.map some) (n : Nat) :
    ds.foldl (fun n c => base * n + (value? c).getD 0) n = Nat.ofDigits base vs.reverse + base ^ ds.length * n := by
  induction ds generalizing vs n with
  | nil =>
    obtain rfl := List.map_eq_nil_iff.mp h.symm
    simp
  | cons c ds ih =>
    cases vs with
    | nil => cases h
    | cons v vs =>
      obtain ⟨hc, hds⟩ := List.cons.inj h
      have hlength : ds.length = vs.length := by simpa using congrArg List.length hds
      rw [List.foldl_cons, ih hds, hc, Option.getD_some, Nat.ofDigits_reverse_cons, List.length_cons, pow_succ,
        hlength]
      ring

theorem writes_iff : Writes value? base ds n ↔
    (∀ c ∈ ds, (value? c).isSome = true) ∧ ds.foldl (fun n c => base * n + (value? c).getD 0) 0 = n := by
  constructor
  · rintro ⟨vs, hds, rfl⟩
    refine ⟨fun c hc => ?_, ?_⟩
    · have hmem : value? c ∈ vs.map Option.some := hds ▸ List.mem_map_of_mem hc
      obtain ⟨v, -, hv⟩ := List.mem_map.mp hmem
      rw [← hv, Option.isSome_some]
    · rw [foldl_eq_ofDigits hds, Nat.mul_zero, Nat.add_zero]
  · rintro ⟨hds, rfl⟩
    have hvalues : ds.map value? = (ds.map fun c => (value? c).getD 0).map Option.some := by
      rw [List.map_map]
      refine List.map_congr_left fun c hc => ?_
      obtain ⟨v, hv⟩ := Option.isSome_iff_exists.mp (hds c hc)
      rw [Function.comp_apply, hv, Option.getD_some]
    exact ⟨_, hvalues, by rw [foldl_eq_ofDigits hvalues, Nat.mul_zero, Nat.add_zero]⟩

theorem ofHexDigits_of_writes (h : Writes hexValue? 16 ds n) : ofHexDigits ds = n := (writes_iff.mp h).2

theorem octalValue?_eq_some {v : Nat} (h : octalValue? c = some v) : digitValue c = v := by
  unfold octalValue? at h
  split at h
  · exact Option.some.inj h
  · cases h

theorem ofOctalDigits_of_writes (h : Writes octalValue? 8 ds n) : ofOctalDigits ds = n := by
  obtain ⟨hds, hn⟩ := writes_iff.mp h
  rw [← hn, ofOctalDigits]
  refine List.foldl_ext _ _ _ fun m c hc => ?_
  obtain ⟨v, hv⟩ := Option.isSome_iff_exists.mp (hds c hc)
  rw [hv, octalValue?_eq_some hv, Option.getD_some]

/-! ### As many as are there -/

theorem takeUpTo_run {p : Char → Bool} (hds : ∀ c ∈ ds, p c = true) (hmost : ds.length ≤ most)
    (hall : ds.length = most ∨ ∀ c ∈ rest.head?, p c = false) : takeUpTo p most (ds ++ rest) = ds := by
  induction ds generalizing most with
  | nil =>
    cases most with
    | zero => cases rest <;> rfl
    | succ most =>
      cases rest with
      | nil => rfl
      | cons c rest =>
        rcases hall with hlength | hstop
        · cases hlength
        · rw [List.nil_append, takeUpTo, hstop c rfl, if_neg Bool.false_ne_true]
  | cons c ds ih =>
    obtain ⟨hc, hds⟩ := List.forall_mem_cons.mp hds
    cases most with
    | zero => exact absurd hmost (Nat.not_succ_le_zero _)
    | succ most =>
      have htake := ih hds (Nat.le_of_succ_le_succ hmost) (hall.imp_left Nat.succ.inj)
      rw [List.cons_append, takeUpTo, hc, if_pos rfl, htake]

theorem takeUpTo_stops (p : Char → Bool) (most : Nat) (cs : List Char) :
    ∃ rest, cs = takeUpTo p most cs ++ rest ∧ (takeUpTo p most cs).length ≤ most ∧
      ((takeUpTo p most cs).length = most ∨ ∀ c ∈ rest.head?, p c = false) := by
  induction cs generalizing most with
  | nil => cases most <;> exact ⟨[], rfl, Nat.zero_le _, Or.inr nofun⟩
  | cons c cs ih =>
    cases most with
    | zero => exact ⟨c :: cs, rfl, Nat.le_refl 0, Or.inl rfl⟩
    | succ most =>
      rw [takeUpTo]
      split
      · obtain ⟨rest, hcs, hmost, hall⟩ := ih most
        exact ⟨rest, congrArg (c :: ·) hcs, Nat.succ_le_succ hmost, hall.imp_left (congrArg (· + 1))⟩
      · rename_i hc
        refine ⟨c :: cs, rfl, Nat.zero_le _, Or.inr fun c' hc' => ?_⟩
        cases hc'
        exact Bool.eq_false_iff.mpr hc

theorem Digits.takeUpTo_eq (h : Digits value? base most ds rest n) :
    takeUpTo (fun c => (value? c).isSome) most (ds ++ rest) = ds :=
  takeUpTo_run (writes_iff.mp h.writes).1 h.within
    (h.all.imp_right fun hstop c hc => not_digit_iff.mpr (hstop c hc))

theorem digits_of_takeUpTo (base : Nat) (h : takeUpTo (fun c => (value? c).isSome) most cs ≠ []) :
    ∃ ds rest n, cs = ds ++ rest ∧ Digits value? base most ds rest n := by
  obtain ⟨rest, hcs, hmost, hall⟩ := takeUpTo_stops (fun c => (value? c).isSome) most cs
  refine ⟨_, rest, _, hcs, h, hmost, hall.imp_right fun hstop c hc => ?_,
    writes_iff.mpr ⟨takeUpTo_all most cs, rfl⟩⟩
  exact not_digit_iff.mp (hstop c hc)

theorem none_of_takeUpTo (hmost : most ≠ 0) (h : takeUpTo (fun c => (value? c).isSome) most cs = []) :
    ∀ c ∈ cs.head?, value? c = none := by
  obtain ⟨rest, hcs, -, hall⟩ := takeUpTo_stops (fun c => (value? c).isSome) most cs
  rw [h, List.nil_append] at hcs
  rw [h] at hall
  rcases hall with hlength | hstop
  · exact absurd hlength.symm hmost
  · intro c hc
    exact not_digit_iff.mp (hstop c (hcs ▸ hc))

theorem Digits.hex_lt (h : Digits hexValue? 16 2 ds rest n) : n < 0x100 := by
  have hvalue := ofHexDigits_lt ds
  rw [ofHexDigits_of_writes h.writes] at hvalue
  exact Nat.lt_of_lt_of_le hvalue (Nat.pow_le_pow_right (by decide) h.within)

/-! ### Escapes -/

/-- The characters that escape a byte each. -/
def simpleEscapes : List (Char × UInt8) :=
  [('a', 0x07), ('b', 0x08), ('f', 0x0C), ('n', 0x0A), ('r', 0x0D), ('t', 0x09), ('v', 0x0B), ('\\', 0x5C),
    ('\x27', 0x27), ('"', 0x22), ('?', 0x3F)]

/-- An escape behind its backslash and before the rest of the literal, and its byte. -/
inductive Escape (rest : List Char) : List Char → UInt8 → Prop
  | simple {c : Char} {b : UInt8} (h : (c, b) ∈ simpleEscapes) : Escape rest [c] b
  | octal {ds : List Char} {b : UInt8} (h : Digits octalValue? 8 3 ds rest b.toNat) : Escape rest ds b
  | hex {x : Char} {ds : List Char} {b : UInt8} (hx : x = 'x' ∨ x = 'X')
      (h : Digits hexValue? 16 2 ds rest b.toNat) : Escape rest (x :: ds) b

/-- What is no escape behind a backslash, and what is wrong with it. -/
inductive Spoils : List Char → BytesDefect → Prop
  | nothing : Spoils [] .trailingBackslash
  | octal {ds rest : List Char} {n : Nat} (h : Digits octalValue? 8 3 ds rest n) (large : 255 < n) :
      Spoils (ds ++ rest) (.octalTooLarge (String.ofList ds))
  | hex {x : Char} {rest : List Char} (hx : x = 'x' ∨ x = 'X') (h : ∀ c ∈ rest.head?, hexValue? c = none) :
      Spoils (x :: rest) .noHexDigits
  | unknown {c : Char} {rest : List Char} (simple : ∀ b, (c, b) ∉ simpleEscapes) (octal : octalValue? c = none)
      (hex : ¬(c = 'x' ∨ c = 'X')) : Spoils (c :: rest) (.unknownEscape c)

theorem simpleEscape?_eq_some : simpleEscape? c = some b ↔ (c, b) ∈ simpleEscapes := by
  constructor
  · intro h
    unfold simpleEscape? at h
    split at h
    all_goals first | cases h; decide | cases h
  · intro h
    simp only [simpleEscapes, List.mem_cons, List.not_mem_nil, or_false, Prod.mk.injEq] at h
    rcases h with ⟨rfl, rfl⟩ | ⟨rfl, rfl⟩ | ⟨rfl, rfl⟩ | ⟨rfl, rfl⟩ | ⟨rfl, rfl⟩ | ⟨rfl, rfl⟩ | ⟨rfl, rfl⟩ |
      ⟨rfl, rfl⟩ | ⟨rfl, rfl⟩ | ⟨rfl, rfl⟩ | ⟨rfl, rfl⟩ <;> rfl

theorem simpleEscape?_eq_none : simpleEscape? c = none ↔ ∀ b, (c, b) ∉ simpleEscapes := by
  rw [Option.eq_none_iff_forall_ne_some]
  exact forall_congr' fun b => not_congr simpleEscape?_eq_some

theorem simpleEscape?_of_octal (h : octalValue? c ≠ none) : simpleEscape? c = none := by
  refine simpleEscape?_eq_none.mpr fun b hb => h ?_
  have hletters : ∀ e ∈ simpleEscapes, octalValue? e.1 = none := by decide
  exact hletters (c, b) hb

theorem Digits.head (h : Digits value? base most ds rest n) : ∃ c r, ds = c :: r ∧ value? c ≠ none := by
  obtain ⟨c, r, rfl⟩ := List.exists_cons_of_ne_nil h.nonempty
  exact ⟨c, r, rfl, Option.isSome_iff_ne_none.mp ((writes_iff.mp h.writes).1 c List.mem_cons_self)⟩

theorem byteEscape_octal (h : Digits octalValue? 8 3 ds rest n) :
    byteEscape (ds ++ rest) =
      if 0xFF < n then .error (.octalTooLarge (String.ofList ds)) else .ok (n.toUInt8, ds.length) := by
  have htake := h.takeUpTo_eq
  obtain ⟨c, r, rfl, hc⟩ := h.head
  rw [List.cons_append] at htake ⊢
  rw [byteEscape, simpleEscape?_of_octal hc]
  dsimp only
  rw [htake, if_pos (List.cons_ne_nil c r), ofOctalDigits_of_writes h.writes]

/-- An `x` is no escape of its own and no octal digit. -/
theorem byteEscape_x {x : Char} (hx : x = 'x' ∨ x = 'X') (rest : List Char) :
    byteEscape (x :: rest) =
      let hex := takeUpTo (fun c => (hexValue? c).isSome) 2 rest
      if hex = [] then .error .noHexDigits else .ok ((ofHexDigits hex).toUInt8, 1 + hex.length) := by
  rcases hx with rfl | rfl <;> rfl

theorem byteEscape_eq_ok_of (h : Escape rest u b) : byteEscape (u ++ rest) = .ok (b, u.length) := by
  cases h with
  | simple h => rw [List.singleton_append, byteEscape, simpleEscape?_eq_some.mpr h, List.length_singleton]
  | octal h =>
    have hbyte : ¬0xFF < b.toNat := Nat.not_lt.mpr (Nat.le_of_lt_succ b.toNat_lt)
    rw [byteEscape_octal h, if_neg hbyte, toUInt8_eq rfl]
  | hex hx h =>
    rw [List.cons_append, byteEscape_x hx]
    dsimp only
    rw [h.takeUpTo_eq, if_neg h.nonempty, ofHexDigits_of_writes h.writes, toUInt8_eq rfl, List.length_cons,
      Nat.add_comm]

theorem byteEscape_eq_error_of (h : Spoils cs d) : byteEscape cs = .error d := by
  cases h with
  | nothing => rfl
  | octal h large => rw [byteEscape_octal h, if_pos large]
  | @hex _ rest hx h =>
    have htake : takeUpTo (fun c => (hexValue? c).isSome) 2 ([] ++ rest) = [] :=
      takeUpTo_run nofun (Nat.zero_le 2) (Or.inr fun c hc => not_digit_iff.mpr (h c hc))
    rw [List.nil_append] at htake
    rw [byteEscape_x hx]
    dsimp only
    rw [htake, if_pos rfl]
  | @unknown c rest simple octal hex =>
    have htake : takeUpTo (fun c => (octalValue? c).isSome) 3 (c :: rest) = [] := by
      rw [takeUpTo, octal, Option.isSome_none, if_neg Bool.false_ne_true]
    rw [byteEscape, simpleEscape?_eq_none.mpr simple]
    dsimp only
    rw [htake, if_neg (not_not.mpr rfl), if_neg hex]

/-- Behind a backslash there is an escape or a defect. -/
theorem escape_or_spoils (cs : List Char) :
    (∃ u rest b, cs = u ++ rest ∧ Escape rest u b) ∨ ∃ d, Spoils cs d := by
  cases cs with
  | nil => exact Or.inr ⟨_, .nothing⟩
  | cons c cs =>
    by_cases hsimple : ∃ b, (c, b) ∈ simpleEscapes
    · obtain ⟨b, hb⟩ := hsimple
      exact Or.inl ⟨[c], cs, b, rfl, .simple hb⟩
    by_cases hoctal : takeUpTo (fun c => (octalValue? c).isSome) 3 (c :: cs) = []
    · by_cases hx : c = 'x' ∨ c = 'X'
      · by_cases hhex : takeUpTo (fun c => (hexValue? c).isSome) 2 cs = []
        · exact Or.inr ⟨_, .hex hx (none_of_takeUpTo (by decide) hhex)⟩
        · obtain ⟨ds, rest, n, rfl, hdigits⟩ := digits_of_takeUpTo 16 hhex
          have hbyte : n.toUInt8.toNat = n := toNat_toUInt8 hdigits.hex_lt
          exact Or.inl ⟨c :: ds, rest, n.toUInt8, rfl, .hex hx (hbyte.symm ▸ hdigits)⟩
      · exact Or.inr ⟨_, .unknown (not_exists.mp hsimple) (none_of_takeUpTo (by decide) hoctal c rfl) hx⟩
    · obtain ⟨ds, rest, n, hcs, hdigits⟩ := digits_of_takeUpTo 8 hoctal
      rw [hcs]
      by_cases hlarge : 255 < n
      · exact Or.inr ⟨_, .octal hdigits hlarge⟩
      · have hbyte : n.toUInt8.toNat = n := toNat_toUInt8 (Nat.lt_succ_of_le (Nat.not_lt.mp hlarge))
        exact Or.inl ⟨ds, rest, n.toUInt8, rfl, .octal (hbyte.symm ▸ hdigits)⟩

/-! ### Units -/

/-- A unit of a literal before the rest of it, and its bytes. -/
inductive ByteUnit (rest : List Char) : List Char → List UInt8 → Prop
  | plain {c : Char} (h : c ≠ '\\') : ByteUnit rest [c] (String.utf8EncodeChar c)
  | escape {u : List Char} {b : UInt8} (h : Escape rest u b) : ByteUnit rest ('\\' :: u) [b]

/-- A text that is cut into units before a tail, and the bytes of them all. -/
inductive Splits (tail : List Char) : List Char → List UInt8 → Prop
  | nil : Splits tail [] []
  | unit {u t : List Char} {bs out : List UInt8} (h : ByteUnit (t ++ tail) u bs) (ht : Splits tail t out) :
      Splits tail (u ++ t) (bs ++ out)

/-- A literal whose first place that is no unit has a defect. -/
inductive Spoilt : List Char → BytesDefect → Prop
  | mk {t rest : List Char} {bs : List UInt8} {d : BytesDefect} (units : Splits ('\\' :: rest) t bs)
      (spoils : Spoils rest d) : Spoilt (t ++ '\\' :: rest) d

theorem decodeBytes_unit (h : ByteUnit rest u bs) :
    decodeBytes (u ++ rest) = (decodeBytes rest).map (bs ++ ·) := by
  cases h with
  | @plain c h =>
    rw [List.singleton_append, decodeBytes_cons h, utf8OfChar_eq (encodes_utf8EncodeChar c)]
  | escape h =>
    rw [List.cons_append, decodeBytes_escape (byteEscape_eq_ok_of h), List.drop_left]
    rfl

theorem decodeBytes_splits (h : Splits tail t bs) :
    decodeBytes (t ++ tail) = (decodeBytes tail).map (bs ++ ·) := by
  induction h with
  | nil => cases hd : decodeBytes tail <;> simp [Except.map, hd]
  | unit h _ ih =>
    rw [List.append_assoc, decodeBytes_unit h, ih]
    cases decodeBytes tail <;> simp [Except.map]

theorem decodeBytes_eq_ok_of (h : Splits [] cs bs) : decodeBytes cs = .ok bs := by
  have hdecode := decodeBytes_splits h
  rw [List.append_nil, decodeBytes] at hdecode
  simpa [Except.map] using hdecode

theorem decodeBytes_eq_error_of (h : Spoilt cs d) : decodeBytes cs = .error d := by
  obtain ⟨units, spoils⟩ := h
  rw [decodeBytes_splits units, decodeBytes, byteEscape_eq_error_of spoils]
  rfl

theorem Splits.cons (h : ByteUnit rest u bs) (hrest : Splits [] rest out) : Splits [] (u ++ rest) (bs ++ out) :=
  .unit (by rwa [List.append_nil]) hrest

theorem Spoilt.cons (h : ByteUnit rest u bs) (hrest : Spoilt rest d) : Spoilt (u ++ rest) d := by
  obtain ⟨units, spoils⟩ := hrest
  rw [← List.append_assoc]
  exact .mk (.unit h units) spoils

theorem splits_or_spoilt (cs : List Char) : (∃ bs, Splits [] cs bs) ∨ ∃ d, Spoilt cs d := by
  -- a unit in front leaves a literal what it is
  have first {u rest : List Char} {bs : List UInt8} (h : ByteUnit rest u bs)
      (hrest : (∃ bs, Splits [] rest bs) ∨ ∃ d, Spoilt rest d) :
      (∃ bs, Splits [] (u ++ rest) bs) ∨ ∃ d, Spoilt (u ++ rest) d :=
    hrest.imp (fun ⟨_, hsplits⟩ => ⟨_, .cons h hsplits⟩) (fun ⟨_, hspoilt⟩ => ⟨_, .cons h hspoilt⟩)
  match cs with
  | [] => exact Or.inl ⟨[], .nil⟩
  | c :: cs =>
    by_cases hc : c = '\\'
    · subst hc
      rcases escape_or_spoils cs with ⟨u, rest, b, rfl, hescape⟩ | ⟨d, hspoils⟩
      · have hshorter : rest.length < (u ++ rest).length + 1 := by
          rw [List.length_append]
          omega
        exact first (.escape hescape) (splits_or_spoilt rest)
      · exact Or.inr ⟨d, .mk .nil hspoils⟩
    · exact first (.plain hc) (splits_or_spoilt cs)
termination_by cs.length

/-- A literal has a value exactly when it is cut into units, and then the bytes of these. -/
theorem decodeBytes_eq_ok : decodeBytes cs = .ok bs ↔ Splits [] cs bs := by
  refine ⟨fun h => ?_, decodeBytes_eq_ok_of⟩
  rcases splits_or_spoilt cs with ⟨bs', hsplits⟩ | ⟨d, hspoilt⟩
  · rw [decodeBytes_eq_ok_of hsplits] at h
    exact Except.ok.inj h ▸ hsplits
  · rw [decodeBytes_eq_error_of hspoilt] at h
    cases h

theorem decodeBytes_eq_error : decodeBytes cs = .error d ↔ Spoilt cs d := by
  refine ⟨fun h => ?_, decodeBytes_eq_error_of⟩
  rcases splits_or_spoilt cs with ⟨bs, hsplits⟩ | ⟨d', hspoilt⟩
  · rw [decodeBytes_eq_ok_of hsplits] at h
    cases h
  · rw [decodeBytes_eq_error_of hspoilt] at h
    exact Except.error.inj h ▸ hspoilt

/-! ### Parts that end whatever follows -/

/-- The forms of an escape whose end does not depend on what follows. -/
inductive Form where
  | simple
  | octal
  | hex
  deriving DecidableEq

/-- The escapes of a byte in each form: a character of its own, three octal digits, or an `x` and two hexadecimal
    digits. -/
inductive Escaped : Form → UInt8 → List Char → Prop
  | simple {c : Char} {b : UInt8} (h : (c, b) ∈ simpleEscapes) : Escaped .simple b ['\\', c]
  | octal {ds : List Char} {b : UInt8} (three : ds.length = 3) (h : Writes octalValue? 8 ds b.toNat) :
      Escaped .octal b ('\\' :: ds)
  | hex {x : Char} {ds : List Char} {b : UInt8} (hx : x = 'x' ∨ x = 'X') (two : ds.length = 2)
      (h : Writes hexValue? 16 ds b.toNat) : Escaped .hex b ('\\' :: x :: ds)

/-- A part of a literal: an escaped byte, or text without a backslash. -/
inductive Part where
  | escaped (form : Form) (b : UInt8) (u : List Char) (h : Escaped form b u)
  | plain (t : List Char) (h : '\\' ∉ t)

def Part.text : Part → List Char
  | .escaped _ _ u _ => u
  | .plain t _ => t

def Part.bytes : Part → List UInt8
  | .escaped _ b _ _ => [b]
  | .plain t _ => encoding (String.ofList t)

theorem digits_of_writes (hwrites : Writes value? base ds n) (hlength : ds.length = most + 1) (rest : List Char) :
    Digits value? base (most + 1) ds rest n where
  nonempty := List.ne_nil_of_length_eq_add_one hlength
  within := Nat.le_of_eq hlength
  all := Or.inl hlength
  writes := hwrites

theorem Escaped.unit {form : Form} (h : Escaped form b u) (rest : List Char) : ByteUnit rest u [b] := by
  cases h with
  | simple h => exact .escape (.simple h)
  | octal three h => exact .escape (.octal (digits_of_writes h three rest))
  | hex hx two h => exact .escape (.hex hx (digits_of_writes h two rest))

theorem Splits.append {t' : List Char} {bs' : List UInt8} (h : Splits (t' ++ tail) t bs) (h' : Splits tail t' bs') :
    Splits tail (t ++ t') (bs ++ bs') := by
  induction h with
  | nil => exact h'
  | unit hunit _ ih =>
    rw [List.append_assoc, List.append_assoc]
    exact .unit (by rwa [List.append_assoc]) ih

theorem splits_plain (tail : List Char) (h : '\\' ∉ t) : Splits tail t (utf8 t) := by
  induction t with
  | nil => exact .nil
  | cons c t ih =>
    rw [List.mem_cons, not_or] at h
    rw [utf8_cons, utf8OfChar_eq (encodes_utf8EncodeChar c)]
    exact .unit (.plain (Ne.symm h.1)) (ih h.2)

theorem Part.splits (p : Part) (tail : List Char) : Splits tail p.text p.bytes := by
  cases p with
  | escaped form b u h =>
    have hsplits : Splits tail (u ++ []) ([b] ++ []) := .unit (h.unit _) .nil
    rwa [List.append_nil, List.append_nil] at hsplits
  | plain t h =>
    rw [bytes, encoding_ofList]
    exact splits_plain tail h

theorem splits_parts (parts : List Part) (tail : List Char) :
    Splits tail (parts.flatMap Part.text) (parts.flatMap Part.bytes) := by
  induction parts with
  | nil => exact .nil
  | cons p parts ih =>
    rw [List.flatMap_cons, List.flatMap_cons]
    exact (p.splits _).append ih

/-! Every byte has an escape of three octal and one of two hexadecimal digits. -/

theorem hexValue?_hexDigit : ∀ d < 16, hexValue? (hexDigit d) = some d := by
  decide

theorem hexDigits_of_byte (b : UInt8) : b.toNat / 16 < 16 ∧ b.toNat % 16 < 16 := by
  have hb : b.toNat < 256 := b.toNat_lt
  omega

theorem octal_escaped (b : UInt8) :
    Escaped .octal b ['\\', hexDigit (b.toNat / 64), hexDigit (b.toNat / 8 % 8), hexDigit (b.toNat % 8)] := by
  have hb : b.toNat < 256 := b.toNat_lt
  have hdigit : ∀ v < 8, octalValue? (hexDigit v) = some v := by decide
  refine .octal rfl ⟨[b.toNat / 64, b.toNat / 8 % 8, b.toNat % 8], ?_, ?_⟩
  · simp only [List.map_cons, List.map_nil, hdigit _ (Nat.mod_lt _ (by decide : 8 > 0)),
      hdigit (b.toNat / 64) (by omega)]
  · simp only [List.reverse_cons, List.reverse_nil, List.nil_append, List.cons_append, Nat.ofDigits_cons,
      Nat.ofDigits_nil]
    omega

theorem hex_escaped (b : UInt8) : Escaped .hex b (renderByte b) := by
  obtain ⟨hhigh, hlow⟩ := hexDigits_of_byte b
  refine .hex (Or.inl rfl) rfl ⟨[b.toNat / 16, b.toNat % 16], ?_, ?_⟩
  · simp only [List.map_cons, List.map_nil, hexValue?_hexDigit _ hhigh, hexValue?_hexDigit _ hlow]
  · simp only [List.reverse_cons, List.reverse_nil, List.nil_append, List.cons_append, Nat.ofDigits_cons,
      Nat.ofDigits_nil]
    omega

end CelSuite.Text

namespace CelSuite.Payload
open Text

/-- A bytes literal has a value exactly when it is cut into units, and then the bytes of these; otherwise its first
    place that is no unit is told as an invalid payload. Bytes that are escaped at full length, each in a form that
    it has, and text without a backslash can be put side by side in any order, and before any literal. -/
theorem bytes_literal_decodes_by_units (s : String) :
    (∀ bs, decodeLiteral s = .ok bs ↔ Splits [] s.toList bs) ∧
    (∀ e, decodeLiteral s = .error e ↔ ∃ d, Spoilt s.toList d ∧ e = .invalidPayload "bytes_value" (.badLiteral d)) ∧
    ((∃ d, Spoilt s.toList d) ↔ ¬∃ bs, Splits [] s.toList bs) ∧
    (∀ b : UInt8, (∃ u, Escaped .octal b u) ∧ ∃ u, Escaped .hex b u) ∧
    ∀ parts : List Part,
      decodeLiteral (String.ofList (parts.flatMap Part.text)) = .ok (parts.flatMap Part.bytes) ∧
      decodeLiteral (String.ofList (parts.flatMap Part.text) ++ s) =
        (decodeLiteral s).map (parts.flatMap Part.bytes ++ ·) := by
  have hok (t : String) (bs : List UInt8) : decodeLiteral t = .ok bs ↔ decodeBytes t.toList = .ok bs := by
    unfold decodeLiteral
    split <;> simp [*]
  have herror (e : Defect) : decodeLiteral s = .error e ↔
      ∃ d, decodeBytes s.toList = .error d ∧ e = .invalidPayload "bytes_value" (.badLiteral d) := by
    unfold decodeLiteral
    split <;> simp [*, eq_comm]
  refine ⟨?value, ?defect, ?either, fun b => ⟨⟨_, octal_escaped b⟩, _, hex_escaped b⟩, fun parts => ⟨?parts, ?before⟩⟩
  case value => exact fun bs => (hok s bs).trans decodeBytes_eq_ok
  case defect =>
    intro e
    rw [herror]
    simp only [decodeBytes_eq_error]
  case either =>
    simp only [← decodeBytes_eq_ok, ← decodeBytes_eq_error]
    cases decodeBytes s.toList <;> simp
  case parts =>
    rw [hok, String.toList_ofList, decodeBytes_eq_ok]
    exact splits_parts parts []
  case before =>
    rw [decodeLiteral, String.toList_append, String.toList_ofList, decodeBytes_splits (splits_parts parts _),
      decodeLiteral]
    cases decodeBytes s.toList <;> rfl

end CelSuite.Payload
