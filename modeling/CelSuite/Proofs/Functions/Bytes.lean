import CelSuite.Expr.Eval
import CelSuite.Proofs.Text.BytesLiteral

/-! # The text of bytes

A bytes literal encodes its text and the function `string` decodes bytes. Decoding undoes encoding and refuses
whatever is no encoding, but for one thing: the bytes of a byte order mark at the start are taken for a mark and not
for the first character of the text. -/

namespace CelSuite

namespace Text

theorem decodeBytes_plain {cs : List Char} (h : '\\' ∉ cs) : decodeBytes cs = .ok (utf8 cs) :=
  decodeBytes_eq_ok_of (splits_plain [] h)

end Text

open Text

namespace Functions

variable {bs : List UInt8}

theorem toText_bytes_eq_ok {v : Value} :
    toText (.bytes bs) = .ok v ↔ ∃ u, v = .string u ∧ encoding u = dropMark bs := by
  rw [toText_bytes]
  split
  · rename_i cs hcs
    rw [decodeUtf8_eq_some] at hcs
    constructor
    · intro h
      exact ⟨String.ofList cs, (Except.ok.inj h).symm, (encoding_ofList cs).trans hcs⟩
    · rintro ⟨u, rfl, hu⟩
      rw [← hcs, ← utf8_toList] at hu
      rw [← utf8_injective hu, String.ofList_toList]
  · rename_i hnone
    simp only [reduceCtorEq, false_iff]
    rintro ⟨u, -, hu⟩
    rw [← utf8_toList] at hu
    rw [decodeUtf8_eq_some.mpr hu] at hnone
    cases hnone

theorem toText_bytes_eq_error {err : EvalError} :
    toText (.bytes bs) = .error err ↔ err = .invalidUtf8 ∧ ¬WellFormed bs := by
  rw [← wellFormed_dropMark, wellFormed_iff, toText_bytes]
  split
  · rename_i cs hcs
    simp only [reduceCtorEq, false_iff, not_and, not_not]
    exact fun _ => ⟨cs, decodeUtf8_eq_some.mp hcs⟩
  · rename_i hnone
    have hno : ¬∃ cs, utf8 cs = dropMark bs := by
      rintro ⟨cs, hcs⟩
      rw [decodeUtf8_eq_some.mpr hcs] at hnone
      cases hnone
    rw [Except.error.injEq, and_iff_left hno, eq_comm]

end Functions

/-- The two ways to write the conversion of a value to text. -/
inductive Expr.AsText (e : Expr) : Expr → Prop
  | call : AsText e (.call "string" [e])
  | method : AsText e (.methodCall e "string" [])

namespace Expr

section
variable [MessageSystem] {s : Scope} {act : Activation} {e f : Expr} {bs : List UInt8}

theorem eval_asText (hf : e.AsText f) (he : e.eval s act = .ok (.bytes bs)) :
    f.eval s act = Functions.toText (.bytes bs) := by
  cases hf with
  | call =>
    rw [eval, evalAll, he, evalAll]
    rfl
  | method =>
    rw [eval, he, evalAll]
    rfl

/-- Bytes that are well-formed UTF-8 have a text, and all others have none. A text comes back from its encoding, and a
    text that comes from bytes encodes to these, unless the bytes begin with a byte order mark: that is then left
    out. -/
theorem text_of_bytes_undoes_encoding_unless_marked (hf : e.AsText f) (he : e.eval s act = .ok (.bytes bs)) :
    (∀ t : String, encoding t = bs →
      (f.eval s act = .ok (.string t) ↔ ¬∃ rest, t.toList = '\uFEFF' :: rest)) ∧
    (∀ t : String, mark ++ encoding t = bs → f.eval s act = .ok (.string t)) ∧
    (∀ v, f.eval s act = .ok v → ∃ u : String, v = .string u ∧ (encoding u = bs ↔ ¬mark <+: bs)) ∧
    ((∃ v, f.eval s act = .ok v) ↔ WellFormed bs) ∧
    (f.eval s act = .error .invalidUtf8 ↔ ¬WellFormed bs) ∧
    EvalError.invalidUtf8.message = "invalid UTF-8 in bytes" ∧
    ∀ t : String, '\\' ∉ t.toList → decodeBytes t.toList = .ok (encoding t) := by
  have heval := eval_asText hf he
  have hok (v : Value) : f.eval s act = .ok v ↔ ∃ u, v = .string u ∧ encoding u = dropMark bs :=
    heval ▸ Functions.toText_bytes_eq_ok
  have hstring (t : String) : f.eval s act = .ok (.string t) ↔ encoding t = dropMark bs := by
    rw [hok]
    constructor
    · rintro ⟨u, hu, hdecodes⟩
      cases hu
      exact hdecodes
    · exact fun hdecodes => ⟨t, rfl, hdecodes⟩
  refine ⟨?encoded, ?marked, ?decoded, ?wellFormed, ?refused, rfl, ?literal⟩
  case encoded =>
    rintro t rfl
    rw [hstring, eq_comm, dropMark_eq_self_iff, ← utf8_toList, mark_prefix_utf8_iff]
  case marked =>
    rintro t rfl
    rw [hstring, dropMark_mark]
  case decoded =>
    intro v hv
    obtain ⟨u, rfl, hu⟩ := (hok v).mp hv
    exact ⟨u, rfl, by rw [hu, dropMark_eq_self_iff]⟩
  case wellFormed =>
    rw [← wellFormed_dropMark, wellFormed_iff_encoding]
    constructor
    · rintro ⟨v, hv⟩
      obtain ⟨u, -, hu⟩ := (hok v).mp hv
      exact ⟨u, hu⟩
    · rintro ⟨u, hu⟩
      exact ⟨.string u, (hstring u).mpr hu⟩
  case refused =>
    rw [heval, Functions.toText_bytes_eq_error, and_iff_right rfl]
  case literal =>
    intro t ht
    rw [decodeBytes_plain ht, utf8_toList]

end

/-- The text that begins with a byte order mark does not come back. -/
theorem leading_mark_lost :
    let bytes : Expr := .literal (.bytes (utf8 ['\uFEFF', 'a']))
    (bytes.AsText (.call "string" [bytes]) ∧ bytes.eval ⟨[], ""⟩ [] = .ok (.bytes (utf8 ['\uFEFF', 'a']))) ∧
      (Expr.call "string" [bytes]).eval ⟨[], ""⟩ [] = .ok (.string "a") ∧
      (Expr.call "string" [bytes]).eval ⟨[], ""⟩ [] ≠ .ok (.string "\uFEFFa") := by
  intro bytes
  have hbytes : bytes.eval ⟨[], ""⟩ [] = .ok (.bytes (utf8 ['\uFEFF', 'a'])) := rfl
  obtain ⟨hencoded, hmarked, -⟩ := text_of_bytes_undoes_encoding_unless_marked .call hbytes
  refine ⟨⟨.call, hbytes⟩, hmarked "a" (by rw [← utf8_toList]; rfl), fun hback => ?_⟩
  exact (hencoded "\uFEFFa" (utf8_toList _).symm).mp hback ⟨['a'], rfl⟩

end Expr

end CelSuite
