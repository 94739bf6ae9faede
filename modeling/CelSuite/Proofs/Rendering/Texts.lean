import CelSuite.Proofs.Lexing.Lexemes
import CelSuite.Proofs.Text.BytesLiteral

/-! # Texts and bytes read back

Quoted text is the body of a string literal, and its escapes stand for the characters they were written
for. Bytes are written as escapes of two hexadecimal digits each, so no escape runs into the next one. -/

namespace CelSuite
open Lexer Text

variable {c : Char} {cs rest : List Char}

/-! ### Hexadecimal digits -/

theorem hexDigit_plain : ∀ d < 16, hexDigit d ≠ '\\' ∧ hexDigit d ≠ '"' := by
  decide

theorem hex4_plain (n : Nat) : ∀ d ∈ hex4 n, d ≠ '\\' ∧ d ≠ '"' := by
  have hmod : ∀ m : Nat, hexDigit (m % 16) ≠ '\\' ∧ hexDigit (m % 16) ≠ '"' := fun m =>
    hexDigit_plain (m % 16) (Nat.mod_lt m (by decide))
  simp only [hex4, List.forall_mem_cons]
  exact ⟨hmod _, hmod _, hmod _, hmod _, List.forall_mem_nil _⟩

theorem Body.append_plain {q : Char} {ds : List Char} (hds : ∀ d ∈ ds, d ≠ '\\' ∧ d ≠ q) (h : Body q cs) :
    Body q (ds ++ cs) := by
  induction ds with
  | nil => exact h
  | cons d ds ih =>
    obtain ⟨hd, hds⟩ := List.forall_mem_cons.mp hds
    exact .plain hd.1 hd.2 (ih hds)

/-! ### Quoted text -/

/-- A character is quoted by an escape of one character, by four digits, or not at all. -/
theorem quoteChar_cases (c : Char) :
    (∃ e, quoteChar c = ['\\', e] ∧ Literal.simpleEscape? e = some c.toNat) ∨
      (c.toNat < 0x20 ∧ quoteChar c = '\\' :: 'u' :: hex4 c.toNat) ∨
      ((c ≠ '\\' ∧ c ≠ '"') ∧ quoteChar c = [c]) := by
  unfold quoteChar
  split
  · rename_i h
    subst h
    exact Or.inl ⟨'"', rfl, rfl⟩
  split
  · rename_i h
    subst h
    exact Or.inl ⟨'\\', rfl, rfl⟩
  split
  · rename_i h
    subst h
    exact Or.inl ⟨'b', rfl, rfl⟩
  split
  · rename_i h
    subst h
    exact Or.inl ⟨'f', rfl, rfl⟩
  split
  · rename_i h
    subst h
    exact Or.inl ⟨'n', rfl, rfl⟩
  split
  · rename_i h
    subst h
    exact Or.inl ⟨'r', rfl, rfl⟩
  split
  · rename_i h
    subst h
    exact Or.inl ⟨'t', rfl, rfl⟩
  split
  · rename_i h
    exact Or.inr (Or.inl ⟨h, rfl⟩)
  · rename_i hquote hslash _ _ _ _ _ _
    exact Or.inr (Or.inr ⟨⟨hslash, hquote⟩, rfl⟩)

theorem body_quoted (cs : List Char) : Body '"' (cs.flatMap quoteChar) := by
  induction cs with
  | nil => exact .nil
  | cons c cs ih =>
    rw [List.flatMap_cons]
    rcases quoteChar_cases c with ⟨e, hc, -⟩ | ⟨-, hc⟩ | ⟨hplain, hc⟩
    · rw [hc]
      exact .escape ih
    · rw [hc]
      exact .escape (Body.append_plain (hex4_plain _) ih)
    · rw [hc]
      exact .plain hplain.1 hplain.2 ih

theorem stringEscape_hex4 {n : Nat} (h : n < 0x20) (rest : List Char) :
    Literal.stringEscape ('u' :: (hex4 n ++ rest)) = .ok (n, 5) := by
  have hdigits : ∀ n < 0x20, (hex4 n).all (fun d => (hexValue? d).isSome) = true ∧ ofHexDigits (hex4 n) = n := by
    decide
  obtain ⟨hall, hvalue⟩ := hdigits n h
  have htake : (hex4 n ++ rest).take 4 = hex4 n := rfl
  have hsmall : ¬0x10FFFF < n := by omega
  have hsimple : Literal.simpleEscape? 'u' = none := rfl
  have hwidth : Literal.escapeWidth? 'u' = some 4 := rfl
  rw [Literal.stringEscape, hsimple]
  dsimp only
  rw [hwidth]
  dsimp only
  rw [htake, if_pos ⟨rfl, hall⟩, hvalue, if_neg hsmall]

theorem codePoints_quoteChar (c : Char) (cs : List Char) :
    Literal.codePoints (quoteChar c ++ cs) = (Literal.codePoints cs).map (c.toNat :: ·) := by
  rcases quoteChar_cases c with ⟨e, hc, he⟩ | ⟨hsmall, hc⟩ | ⟨hplain, hc⟩
  · rw [hc]
    exact Literal.codePoints_escape (Literal.stringEscape_simple he)
  · rw [hc]
    exact Literal.codePoints_escape (stringEscape_hex4 hsmall cs)
  · rw [hc]
    exact Literal.codePoints_cons hplain.1

theorem codePoints_quoted (cs : List Char) :
    Literal.codePoints (cs.flatMap quoteChar) = .ok (cs.map Char.toNat) := by
  induction cs with
  | nil => rw [List.flatMap_nil, Literal.codePoints, List.map_nil]
  | cons c cs ih =>
    rw [List.flatMap_cons, codePoints_quoteChar, ih]
    rfl

theorem codePoints_of_not_mem (h : '\\' ∉ cs) : Literal.codePoints cs = .ok (cs.map Char.toNat) := by
  induction cs with
  | nil => rw [Literal.codePoints, List.map_nil]
  | cons c cs ih =>
    rw [List.mem_cons, not_or] at h
    rw [Literal.codePoints_cons (Ne.symm h.1), ih h.2]
    rfl

theorem flatMap_toNat (cs : List Char) : (cs.map Char.toNat).flatMap unitsOfCodePoint = units cs :=
  List.flatMap_map Char.toNat unitsOfCodePoint cs

/-- Quoted text is a literal for the text. -/
theorem literal_quoted (s : String) :
    Grammar.Literal false ⟨.string, String.ofList (s.toList.flatMap quoteChar)⟩ (.text (units s.toList)) := by
  have hstring := Grammar.Literal.string_ofList (codePoints_quoted s.toList)
  rwa [flatMap_toNat] at hstring

/-- Text without a backslash is a literal for itself. -/
theorem literal_plain (h : '\\' ∉ cs) :
    Grammar.Literal false ⟨.string, String.ofList cs⟩ (.text (units cs)) := by
  have hstring := Grammar.Literal.string_ofList (codePoints_of_not_mem h)
  rwa [flatMap_toNat] at hstring

/-! ### Bytes -/

theorem body_bytes (bs : List UInt8) : Body '"' (bs.flatMap renderByte) := by
  induction bs with
  | nil => exact .nil
  | cons b bs ih =>
    obtain ⟨hhigh, hlow⟩ := hexDigits_of_byte b
    obtain ⟨h₁, h₁'⟩ := hexDigit_plain _ hhigh
    obtain ⟨h₂, h₂'⟩ := hexDigit_plain _ hlow
    exact .escape (.plain h₁ h₁' (.plain h₂ h₂' ih))

theorem decodeBytes_rendered (bs : List UInt8) : decodeBytes (bs.flatMap renderByte) = .ok bs := by
  have hsplits := splits_parts (bs.map fun b => .escaped .hex b (renderByte b) (hex_escaped b)) []
  rw [List.flatMap_map, List.flatMap_map] at hsplits
  rw [decodeBytes_eq_ok]
  simpa only [Part.text, Part.bytes, List.flatMap_singleton'] using hsplits

end CelSuite
