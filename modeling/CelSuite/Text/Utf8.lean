/-! # UTF-8

Characters as one to four bytes and back. Decoding accepts exactly the well-formed sequences: no
overlong form, no half of a pair, nothing above U+10FFFF. -/

namespace CelSuite.Text

/-- The bytes of a character. -/
def utf8OfChar (c : Char) : List UInt8 :=
  let n := c.toNat
  if n < 0x80 then [n.toUInt8]
  else if n < 0x800 then [(0xC0 + n / 0x40).toUInt8, (0x80 + n % 0x40).toUInt8]
  else if n < 0x10000 then
    [(0xE0 + n / 0x1000).toUInt8, (0x80 + n / 0x40 % 0x40).toUInt8, (0x80 + n % 0x40).toUInt8]
  else
    [(0xF0 + n / 0x40000).toUInt8, (0x80 + n / 0x1000 % 0x40).toUInt8,
      (0x80 + n / 0x40 % 0x40).toUInt8, (0x80 + n % 0x40).toUInt8]

/-- The bytes of a sequence of characters. -/
def utf8 (cs : List Char) : List UInt8 :=
  cs.flatMap utf8OfChar

/-- The six low bits of a continuation byte. -/
def continuation? (b : UInt8) : Option Nat :=
  if 0x80 ≤ b.toNat ∧ b.toNat < 0xC0 then some (b.toNat - 0x80) else none

/-- The character with a given number, if the number is at least `least` and names a character. -/
def scalar? (least n : Nat) : Option Char :=
  if h : n.isValidChar then
    if least ≤ n then some ⟨n.toUInt32, by
      have : n < 0x110000 := by rcases h with h | h <;> omega
      simpa [UInt32.isValidChar, Nat.mod_eq_of_lt (show n < 4294967296 by omega)] using h⟩
    else none
  else none

/-- The characters that bytes encode, if the bytes are well formed. -/
def decodeUtf8 : List UInt8 → Option (List Char)
  | [] => some []
  | b :: bs =>
    let n := b.toNat
    if n < 0x80 then (decodeUtf8 bs).map (Char.ofNat n :: ·)
    else if n < 0xC0 then none
    else if n < 0xE0 then
      match bs with
      | b₁ :: bs => do
        let x₁ ← continuation? b₁
        let c ← scalar? 0x80 ((n - 0xC0) * 0x40 + x₁)
        return c :: (← decodeUtf8 bs)
      | _ => none
    else if n < 0xF0 then
      match bs with
      | b₁ :: b₂ :: bs => do
        let x₁ ← continuation? b₁
        let x₂ ← continuation? b₂
        let c ← scalar? 0x800 ((n - 0xE0) * 0x1000 + x₁ * 0x40 + x₂)
        return c :: (← decodeUtf8 bs)
      | _ => none
    else if n < 0xF8 then
      match bs with
      | b₁ :: b₂ :: b₃ :: bs => do
        let x₁ ← continuation? b₁
        let x₂ ← continuation? b₂
        let x₃ ← continuation? b₃
        let c ← scalar? 0x10000 ((n - 0xF0) * 0x40000 + x₁ * 0x1000 + x₂ * 0x40 + x₃)
        return c :: (← decodeUtf8 bs)
      | _ => none
    else none

/-- Drops one encoded byte order mark at the start. -/
def dropMark : List UInt8 → List UInt8
  | 0xEF :: 0xBB :: 0xBF :: bs => bs
  | bs => bs

end CelSuite.Text
