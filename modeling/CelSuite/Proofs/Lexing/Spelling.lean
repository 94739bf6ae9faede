import CelSuite.Proofs.Lexing.Lexemes
import CelSuite.Proofs.Lexing.Literals
import CelSuite.Proofs.Text.Digits

/-! # How lexemes are spelled

A lexeme is spelled as a number, a name, an operator or a literal between its quotes, and on its own it is read as
itself. A number looks at up to three characters behind it that are not its own. But no reader looks beyond a blank, so
a lexeme depends on what is behind it only up to the first blank there. -/

namespace CelSuite.Lexer
open Text

variable {c : Char} {cs ds f e u r r' rest rest' : List Char} {l : Lexeme} {pos : Nat} {p : Char → Bool}

/-- At least one digit, and nothing else. -/
def DigitRun (ds : List Char) : Prop := ds ≠ [] ∧ ∀ c ∈ ds, isDigit c = true

/-- The fraction of a number, if it has one. -/
inductive Fraction : List Char → Prop where
  | none : Fraction []
  | digits {ds : List Char} (h : DigitRun ds) : Fraction ('.' :: ds)

/-- The exponent of a number, if it has one. -/
inductive Exponent : List Char → Prop where
  | none : Exponent []
  | unsigned {x : Char} {ds : List Char} (hx : x = 'e' ∨ x = 'E') (h : DigitRun ds) : Exponent (x :: ds)
  | signed {x s : Char} {ds : List Char} (hx : x = 'e' ∨ x = 'E') (hs : s = '+' ∨ s = '-') (h : DigitRun ds) :
      Exponent (x :: s :: ds)

/-- The suffix of a number, if it has one. -/
inductive Suffix : List Char → Prop where
  | none : Suffix []
  | unsigned {x : Char} (hx : x = 'u' ∨ x = 'U') : Suffix [x]

/-- How lexemes are spelled. The text of an unsigned integer stands before its suffix, and that of a literal between two
    quotes that occur in it behind a backslash only. -/
inductive Spelled : Lexeme → Prop where
  | int {ds : List Char} (h : DigitRun ds) : Spelled ⟨.int, ds, ds⟩
  | uint {x : Char} {ds : List Char} (h : DigitRun ds) (hx : x = 'u' ∨ x = 'U') : Spelled ⟨.uint, ds, ds ++ [x]⟩
  | double {ds f e : List Char} (h : DigitRun ds) (hf : Fraction f) (he : Exponent e) (hne : ¬(f = [] ∧ e = [])) :
      Spelled ⟨.double, ds ++ f ++ e, ds ++ f ++ e⟩
  | ident {c : Char} {cs : List Char} (hc : isIdentStart c = true) (hcs : ∀ d ∈ cs, isIdentChar d = true) :
      Spelled ⟨.ident, c :: cs, c :: cs⟩
  | op {o : List Char} (h : o ∈ operators) : Spelled ⟨.op, o, o⟩
  | string {q : Char} {body : List Char} (hq : q = '"' ∨ q = '\x27') (hb : Body q body) :
      Spelled ⟨.string, body, q :: (body ++ [q])⟩
  | bytes {b q : Char} {body : List Char} (hm : b = 'b' ∨ b = 'B') (hq : q = '"' ∨ q = '\x27') (hb : Body q body) :
      Spelled ⟨.bytes, body, b :: q :: (body ++ [q])⟩

/-! ### Up to a blank -/

/-- The second text goes on like the first, up to a blank or to its end. -/
inductive UpToBlank : List Char → List Char → Prop where
  | stop {r : List Char} : UpToBlank r []
  | blank {b : Char} {r r' : List Char} (hb : isBlank b = true) : UpToBlank r (b :: r')
  | step {c : Char} {r r' : List Char} (h : UpToBlank r r') : UpToBlank (c :: r) (c :: r')

theorem UpToBlank.append (h : UpToBlank r r') (cs : List Char) : UpToBlank (cs ++ r) (cs ++ r') := by
  induction cs with
  | nil => exact h
  | cons c cs ih => exact .step ih

/-- A beginning of the second text that has no blank is one of the first. -/
theorem UpToBlank.of_starts {w : List Char} (h : UpToBlank r r') (hw : ∀ c ∈ w, isBlank c = false)
    (hstarts : w <+: r') : w <+: r := by
  induction h generalizing w with
  | stop => exact List.prefix_nil.mp hstarts ▸ List.nil_prefix
  | blank hb =>
    cases w with
    | nil => exact List.nil_prefix
    | cons c w =>
      obtain ⟨rfl, -⟩ := List.cons_prefix_cons.mp hstarts
      rw [hw c List.mem_cons_self] at hb
      cases hb
  | step h ih =>
    cases w with
    | nil => exact List.nil_prefix
    | cons c w =>
      obtain ⟨rfl, htail⟩ := List.cons_prefix_cons.mp hstarts
      exact List.cons_prefix_cons.mpr ⟨rfl, ih (fun d hd => hw d (List.mem_cons_of_mem c hd)) htail⟩

/-- What holds of blanks and of the first character of the first text holds of the first character of the second. -/
theorem UpToBlank.head {P : Char → Prop} (h : UpToBlank r r') (hblank : ∀ c, isBlank c = true → P c)
    (hr : ∀ c ∈ r.head?, P c) : ∀ c ∈ r'.head?, P c := by
  cases h with
  | stop => exact nofun
  | blank hb =>
    rintro c ⟨⟩
    exact hblank _ hb
  | step h => exact hr

theorem not_blank_of_isIdentChar (h : isIdentChar c = true) : isBlank c = false := by
  rw [isIdentChar, Bool.or_eq_true] at h
  rcases h with h | h
  · have hrange := toNat_of_isIdentStart h
    exact not_blank_of_toNat (by omega)
  · have hrange := toNat_of_isDigit h
    exact not_blank_of_toNat (by omega)

theorem not_quote_of_isIdentChar (h : isIdentChar c = true) : isQuote c = false := by
  rw [isIdentChar, Bool.or_eq_true] at h
  exact h.elim not_quote_of_isIdentStart not_quote_of_isDigit

theorem not_quote_of_blank (h : isBlank c = true) : isQuote c = false := by
  rw [← Bool.not_eq_true, isQuote_iff]
  rintro (rfl | rfl) <;> cases h

theorem Fraction.not_blank (hf : Fraction f) : ∀ c ∈ f, isBlank c = false := by
  cases hf with
  | none => exact List.forall_mem_nil _
  | digits h => exact List.forall_mem_cons.mpr ⟨rfl, fun c hc => isBlank_of_isDigit (h.2 c hc)⟩

theorem Exponent.not_blank (he : Exponent e) : ∀ c ∈ e, isBlank c = false := by
  have hletter {x : Char} (hx : x = 'e' ∨ x = 'E') : isBlank x = false := by
    rcases hx with rfl | rfl <;> rfl
  have hsign {s : Char} (hs : s = '+' ∨ s = '-') : isBlank s = false := by
    rcases hs with rfl | rfl <;> rfl
  cases he with
  | none => exact List.forall_mem_nil _
  | unsigned hx h => exact List.forall_mem_cons.mpr ⟨hletter hx, fun c hc => isBlank_of_isDigit (h.2 c hc)⟩
  | signed hx hs h =>
    exact List.forall_mem_cons.mpr ⟨hletter hx, List.forall_mem_cons.mpr
      ⟨hsign hs, fun c hc => isBlank_of_isDigit (h.2 c hc)⟩⟩

theorem Suffix.not_blank (hu : Suffix u) : ∀ c ∈ u, isBlank c = false := by
  cases hu with
  | none => exact List.forall_mem_nil _
  | unsigned hx =>
    refine List.forall_mem_cons.mpr ⟨?_, List.forall_mem_nil _⟩
    rcases hx with rfl | rfl <;> rfl

/-! ### The longest beginning -/

/-- The longest beginning of a text that has a property. -/
structure Greedy (P : List Char → Prop) (cs w : List Char) : Prop where
  holds : P w
  starts : w <+: cs
  longest : ∀ {w'}, P w' → w' <+: cs → w'.length ≤ w.length

theorem Greedy.unique {P : List Char → Prop} {w w' : List Char} (h : Greedy P cs w) (h' : Greedy P cs w') : w = w' :=
  have hle := h'.longest h.holds h.starts
  (List.prefix_of_prefix_length_le h.starts h'.starts hle).eq_of_length
    (Nat.le_antisymm hle (h.longest h'.holds h'.starts))

/-- A reader of the longest beginning without blanks takes the same when the text behind it is the same up to a
    blank. -/
theorem Greedy.upToBlank {P : List Char → Prop} {read : List Char → List Char} {w : List Char}
    (hread : ∀ cs, Greedy P cs (read cs)) (hP : ∀ {w}, P w → ∀ c ∈ w, isBlank c = false) (h : read (w ++ r) = w)
    (hr : UpToBlank r r') : read (w ++ r') = w := by
  have hbefore := hread (w ++ r)
  rw [h] at hbefore
  exact (hread _).unique
    { holds := hbefore.holds
      starts := List.prefix_append w r'
      longest := fun hw' hstarts => hbefore.longest hw' ((hr.append w).of_starts (hP hw') hstarts) }

theorem greedy_takeWhile (p : Char → Bool) (cs : List Char) : Greedy (∀ c ∈ ·, p c = true) cs (cs.takeWhile p) where
  holds := List.all_eq_true.mp List.all_takeWhile
  starts := List.takeWhile_prefix p
  longest := by
    rintro w hw ⟨rest, rfl⟩
    rw [List.takeWhile_append_of_pos hw, List.length_append]
    exact Nat.le_add_right _ _

theorem DigitRun.takeWhile_append (h : DigitRun ds) (rest : List Char) :
    (ds ++ rest).takeWhile isDigit ≠ [] ∧ ds.length ≤ ((ds ++ rest).takeWhile isDigit).length := by
  have hlength := (greedy_takeWhile isDigit (ds ++ rest)).longest h.2 (List.prefix_append ds rest)
  refine ⟨fun hnil => ?_, hlength⟩
  rw [hnil] at hlength
  exact h.1 (List.eq_nil_of_length_eq_zero (Nat.le_zero.mp hlength))

theorem digitRun_takeWhile (h : cs.takeWhile isDigit ≠ []) : DigitRun (cs.takeWhile isDigit) :=
  ⟨h, List.all_eq_true.mp List.all_takeWhile⟩

/-! ### The parts of a number -/

theorem greedy_fractionPart (cs : List Char) : Greedy Fraction cs (fractionPart cs) where
  holds := by
    unfold fractionPart
    split
    · split
      · exact .none
      · rename_i hsome
        exact .digits (digitRun_takeWhile hsome)
    · exact .none
  starts := fractionPart_starts cs
  longest := by
    rintro f hf ⟨rest, rfl⟩
    cases hf with
    | none => exact Nat.zero_le _
    | digits h =>
      obtain ⟨hsome, hlength⟩ := h.takeWhile_append rest
      rw [List.cons_append, fractionPart, if_neg hsome]
      exact Nat.succ_le_succ hlength

theorem exponentPart_signed {x s : Char} (hx : x = 'e' ∨ x = 'E') (hs : s = '+' ∨ s = '-') (cs : List Char) :
    exponentPart (x :: s :: cs) = if cs.takeWhile isDigit = [] then [] else x :: s :: cs.takeWhile isDigit := by
  rw [exponentPart.eq_def]
  dsimp only
  rw [if_pos hx, if_pos hs]

theorem exponentPart_unsigned {x : Char} (hx : x = 'e' ∨ x = 'E') (h : DigitRun ds) (rest : List Char) :
    exponentPart (x :: (ds ++ rest)) = x :: (ds ++ rest).takeWhile isDigit := by
  obtain ⟨hsome, -⟩ := h.takeWhile_append rest
  obtain ⟨d, ds, rfl⟩ := List.exists_cons_of_ne_nil h.1
  have hd := h.2 d List.mem_cons_self
  have hplus : d ≠ '+' := by
    rintro rfl
    cases hd
  have hminus : d ≠ '-' := by
    rintro rfl
    cases hd
  rw [List.cons_append] at hsome ⊢
  rw [exponentPart_letter hx hplus hminus, if_neg hsome]

theorem greedy_exponentPart (cs : List Char) : Greedy Exponent cs (exponentPart cs) where
  holds := by
    unfold exponentPart
    split
    · split
      · rename_i hx
        split
        · split
          · rename_i hs
            split
            · exact .none
            · rename_i hsome
              exact .signed hx hs (digitRun_takeWhile hsome)
          · split
            · exact .none
            · rename_i hsome
              exact .unsigned hx (digitRun_takeWhile hsome)
        · exact .none
      · exact .none
    · exact .none
  starts := exponentPart_starts cs
  longest := by
    rintro e he ⟨rest, rfl⟩
    cases he with
    | none => exact Nat.zero_le _
    | unsigned hx h =>
      rw [List.cons_append, exponentPart_unsigned hx h]
      exact Nat.succ_le_succ (h.takeWhile_append rest).2
    | signed hx hs h =>
      obtain ⟨hsome, hlength⟩ := h.takeWhile_append rest
      rw [List.cons_append, List.cons_append, exponentPart_signed hx hs, if_neg hsome]
      exact Nat.succ_le_succ (Nat.succ_le_succ hlength)

theorem greedy_suffixPart (cs : List Char) : Greedy Suffix cs (suffixPart cs) where
  holds := by
    unfold suffixPart
    split
    · split
      · rename_i hx
        exact .unsigned hx
      · exact .none
    · exact .none
  starts := suffixPart_starts cs
  longest := by
    rintro u hu ⟨rest, rfl⟩
    cases hu with
    | none => exact Nat.zero_le _
    | unsigned hx => simp [suffixPart, hx]

/-- A number taken apart: its digits, fraction, exponent and suffix, and what follows. -/
structure Parts (ds f e u rest : List Char) : Prop where
  whole : (ds ++ (f ++ (e ++ (u ++ rest)))).takeWhile isDigit = ds
  fraction : fractionPart (f ++ (e ++ (u ++ rest))) = f
  exponent : exponentPart (e ++ (u ++ rest)) = e
  suffix : suffixPart (u ++ rest) = u

theorem exists_parts (cs : List Char) :
    ∃ ds f e u rest, cs = ds ++ (f ++ (e ++ (u ++ rest))) ∧ Parts ds f e u rest := by
  have hwhole := List.takeWhile_append_dropWhile (p := isDigit) (l := cs)
  have hfraction := append_drop_of_starts (fractionPart_starts (cs.dropWhile isDigit))
  generalize hr₁ : cs.dropWhile isDigit = r₁ at *
  have hexponent := append_drop_of_starts (exponentPart_starts (r₁.drop (fractionPart r₁).length))
  generalize hr₂ : r₁.drop (fractionPart r₁).length = r₂ at *
  have hsuffix := append_drop_of_starts (suffixPart_starts (r₂.drop (exponentPart r₂).length))
  generalize hr₃ : r₂.drop (exponentPart r₂).length = r₃ at *
  refine ⟨cs.takeWhile isDigit, fractionPart r₁, exponentPart r₂, suffixPart r₃, r₃.drop (suffixPart r₃).length, ?_, ?_⟩
  · rw [hsuffix, hexponent, hfraction, hwhole]
  · constructor <;> simp only [hsuffix, hexponent, hfraction, hwhole]

/-- A number depends on its parts alone. -/
theorem number_of_parts (h : Parts ds f e u rest) (pos : Nat) :
    number pos (ds ++ (f ++ (e ++ (u ++ rest)))) =
      if f = [] ∧ e = [] then .ok ⟨if u = [] then .int else .uint, ds ++ f ++ e, ds ++ f ++ e ++ u⟩
      else if u = [] then .ok ⟨.double, ds ++ f ++ e, ds ++ f ++ e⟩
      else .error (.unsignedDouble pos) := by
  have hdrop : (ds ++ (f ++ (e ++ (u ++ rest)))).dropWhile isDigit = f ++ (e ++ (u ++ rest)) := by
    have hboth := List.takeWhile_append_dropWhile (p := isDigit) (l := ds ++ (f ++ (e ++ (u ++ rest))))
    rw [h.whole] at hboth
    exact List.append_cancel_left hboth
  unfold number
  simp only [h.whole, hdrop, h.fraction, List.drop_left, h.exponent, h.suffix]

theorem Parts.upToBlank (h : Parts ds f e u rest) (hr : UpToBlank rest rest') : Parts ds f e u rest' where
  whole := Greedy.upToBlank (greedy_takeWhile isDigit) (fun hw c hc => isBlank_of_isDigit (hw c hc)) h.whole
    (((hr.append u).append e).append f)
  fraction := Greedy.upToBlank greedy_fractionPart Fraction.not_blank h.fraction ((hr.append u).append e)
  exponent := Greedy.upToBlank greedy_exponentPart Exponent.not_blank h.exponent (hr.append u)
  suffix := Greedy.upToBlank greedy_suffixPart Suffix.not_blank h.suffix hr

theorem Parts.spelled (h : Parts ds f e u rest) : (∀ c ∈ ds, isDigit c = true) ∧ Fraction f ∧ Exponent e ∧ Suffix u :=
  ⟨h.whole ▸ (greedy_takeWhile isDigit _).holds, h.fraction ▸ (greedy_fractionPart _).holds,
    h.exponent ▸ (greedy_exponentPart _).holds, h.suffix ▸ (greedy_suffixPart _).holds⟩

theorem number_spelling (h : Parts ds f e u rest) (hn : number pos (ds ++ (f ++ (e ++ (u ++ rest)))) = .ok l) :
    l.spelling = ds ++ (f ++ (e ++ u)) := by
  rw [number_of_parts h] at hn
  split at hn
  · cases hn
    simp
  · split at hn
    · rename_i hu
      cases hn
      simp [hu]
    · cases hn

theorem number_upToBlank (h : number pos (l.spelling ++ rest) = .ok l) (hr : UpToBlank rest rest') :
    number pos (l.spelling ++ rest') = .ok l := by
  obtain ⟨ds, f, e, u, r, hcs, hparts⟩ := exists_parts (l.spelling ++ rest)
  rw [hcs] at h
  have hspelling := number_spelling hparts h
  have hassoc (r : List Char) : l.spelling ++ r = ds ++ (f ++ (e ++ (u ++ r))) := by
    rw [hspelling]
    simp only [List.append_assoc]
  obtain rfl : rest = r := by rwa [← hassoc, List.append_cancel_left_eq] at hcs
  rw [hassoc, number_of_parts (hparts.upToBlank hr), ← number_of_parts hparts, h]

theorem spelled_of_number (hc : isDigit c = true) (h : number pos (c :: cs) = .ok l) : Spelled l := by
  obtain ⟨ds, f, e, u, rest, hcs, hparts⟩ := exists_parts (c :: cs)
  obtain ⟨hds, hf, he, hu⟩ := hparts.spelled
  have hrun : DigitRun ds := by
    have hwhole := hparts.whole
    rw [← hcs, List.takeWhile_cons, if_pos hc] at hwhole
    exact ⟨hwhole ▸ List.cons_ne_nil _ _, hds⟩
  rw [hcs, number_of_parts hparts] at h
  split at h
  · rename_i hwhole
    rw [hwhole.1, hwhole.2, List.append_nil, List.append_nil] at h
    cases hu with
    | none =>
      cases h
      rw [List.append_nil]
      exact .int hrun
    | unsigned hx =>
      cases h
      exact .uint hrun hx
  · rename_i hdouble
    split at h
    · cases h
      exact .double hrun hf he hdouble
    · cases h

/-! ### A number on its own -/

theorem Fraction.read (hf : Fraction f) (hr : ∀ c ∈ r.head?, isDigit c = false ∧ c ≠ '.') :
    fractionPart (f ++ r) = f := by
  cases hf with
  | none =>
    cases r with
    | nil => rfl
    | cons c r => exact fractionPart_of_ne (hr c rfl).2
  | digits h =>
    rw [List.cons_append, fractionPart, (takeWhile_run h.2 fun c hc => (hr c hc).1).1, if_neg h.1]

theorem Exponent.read (he : Exponent e) (hr : ∀ c ∈ r.head?, isDigit c = false ∧ c ≠ 'e' ∧ c ≠ 'E') :
    exponentPart (e ++ r) = e := by
  cases he with
  | none =>
    cases r with
    | nil => rfl
    | cons c r => exact exponentPart_of_ne (hr c rfl).2.1 (hr c rfl).2.2
  | unsigned hx h =>
    rw [List.cons_append, exponentPart_unsigned hx h, (takeWhile_run h.2 fun c hc => (hr c hc).1).1]
  | signed hx hs h =>
    rw [List.cons_append, List.cons_append, exponentPart_signed hx hs,
      (takeWhile_run h.2 fun c hc => (hr c hc).1).1, if_neg h.1]

theorem Suffix.head (hu : Suffix u) : ∀ c ∈ (u ++ []).head?, c ∈ ['u', 'U'] := by
  cases hu with
  | none => exact nofun
  | unsigned hx =>
    rintro c ⟨⟩
    simpa using hx

theorem Exponent.head (he : Exponent e) (hu : Suffix u) : ∀ c ∈ (e ++ (u ++ [])).head?, c ∈ ['e', 'E', 'u', 'U'] := by
  cases he with
  | none => exact fun c hc => List.mem_append_right ['e', 'E'] (hu.head c hc)
  | unsigned hx | signed hx =>
    rintro c ⟨⟩
    rcases hx with rfl | rfl <;> decide

theorem Fraction.head (hf : Fraction f) (he : Exponent e) (hu : Suffix u) :
    ∀ c ∈ (f ++ (e ++ (u ++ []))).head?, c ∈ ['.', 'e', 'E', 'u', 'U'] := by
  cases hf with
  | none => exact fun c hc => List.mem_cons_of_mem '.' (he.head hu c hc)
  | digits =>
    rintro c ⟨⟩
    decide

theorem parts_alone (hds : DigitRun ds) (hf : Fraction f) (he : Exponent e) (hu : Suffix u) : Parts ds f e u [] where
  whole := by
    have hstop : ∀ c ∈ ['.', 'e', 'E', 'u', 'U'], isDigit c = false := by simp [isDigit]
    exact (takeWhile_run hds.2 fun c hc => hstop c (hf.head he hu c hc)).1
  fraction := by
    have hstop : ∀ c ∈ ['e', 'E', 'u', 'U'], isDigit c = false ∧ c ≠ '.' := by simp [isDigit]
    exact hf.read fun c hc => hstop c (he.head hu c hc)
  exponent := by
    have hstop : ∀ c ∈ ['u', 'U'], isDigit c = false ∧ c ≠ 'e' ∧ c ≠ 'E' := by simp [isDigit]
    exact he.read fun c hc => hstop c (hu.head c hc)
  suffix := by
    cases hu with
    | none => rfl
    | unsigned hx => exact if_pos hx

theorem leads_number (hds : DigitRun ds) (hn : number 0 (ds ++ cs) = .ok l) : Leads (ds ++ cs) l := by
  obtain ⟨d, ds, rfl⟩ := List.exists_cons_of_ne_nil hds.1
  exact .number (hds.2 d List.mem_cons_self) hn

/-! ### Lexemes -/

theorem Leads.spelled (h : Leads cs l) : Spelled l := by
  cases h with
  | string hq hb => exact .string (isQuote_iff.mp hq) hb
  | bytes hm hq hb => exact .bytes hm (isQuote_iff.mp hq) hb
  | number hc hn => exact spelled_of_number hc hn
  | ident hc => exact .ident hc (List.all_eq_true.mp List.all_takeWhile)
  | operator hq hd hi hop => exact .op (List.mem_of_find?_eq_some hop)

theorem operator_head (h : c :: cs ∈ operators) : isQuote c = false ∧ isDigit c = false ∧ isIdentStart c = false := by
  have hheads : ∀ o ∈ operators, o.head?.all fun c => !isQuote c && (!isDigit c && !isIdentStart c) := by decide
  simpa using hheads _ h

/-- A lexeme on its own is read as itself. -/
theorem Spelled.leads (h : Spelled l) : Leads l.spelling l := by
  cases h with
  | int h =>
    have hn := number_of_parts (parts_alone h .none .none .none) 0
    simpa using leads_number h hn
  | uint h hx =>
    have hn := number_of_parts (parts_alone h .none .none (.unsigned hx)) 0
    simpa using leads_number h hn
  | double h hf he hne =>
    have hn := number_of_parts (parts_alone h hf he .none) 0
    rw [if_neg hne, if_pos rfl] at hn
    simpa using leads_number h hn
  | @ident c cs hc hcs =>
    have hname : cs.takeWhile isIdentChar = cs := by
      have hend : ∀ d ∈ ([] : List Char).head?, isIdentChar d = false := nofun
      have hrun := (takeWhile_run hcs hend).1
      rwa [List.append_nil] at hrun
    have hlead : Leads (c :: cs) ⟨.ident, c :: cs.takeWhile isIdentChar, c :: cs.takeWhile isIdentChar⟩ :=
      .ident hc fun _ d hd => not_quote_of_isIdentChar (hcs d (List.mem_of_mem_head? hd))
    rwa [hname] at hlead
  | @op o h =>
    have hself : ∀ o ∈ operators, o ≠ [] ∧ operators.find? (·.isPrefixOf o) = some o := by decide
    obtain ⟨hne, hop⟩ := hself o h
    obtain ⟨c, cs, rfl⟩ := List.exists_cons_of_ne_nil hne
    obtain ⟨hq, hd, hi⟩ := operator_head h
    exact .operator hq hd hi hop
  | string hq hb => exact .string (isQuote_iff.mpr hq) hb
  | bytes hm hq hb => exact .bytes hm (isQuote_iff.mpr hq) hb

theorem find_operator_upToBlank {o : List Char} (h : operators.find? (·.isPrefixOf (o ++ rest)) = some o)
    (hr : UpToBlank rest rest') : operators.find? (·.isPrefixOf (o ++ rest')) = some o := by
  have hblank : ∀ o ∈ operators, o.all (!isBlank ·) = true := by decide
  obtain ⟨-, before, after, hops, hbefore⟩ := List.find?_eq_some_iff_append.mp h
  have hfits : o.isPrefixOf (o ++ rest') = true := List.isPrefixOf_iff_prefix.mpr (List.prefix_append o rest')
  refine List.find?_eq_some_iff_append.mpr ⟨hfits, before, after, hops, fun o' ho' => ?_⟩
  -- An operator that comes first in the list and fits now has fitted before.
  rw [Bool.not_eq_true', ← Bool.not_eq_true, List.isPrefixOf_iff_prefix]
  intro hfits'
  have hmem : o' ∈ operators := hops ▸ List.mem_append_left _ ho'
  have hnot := hbefore o' ho'
  have hclear : ∀ c ∈ o', isBlank c = false := by simpa using hblank o' hmem
  rw [List.isPrefixOf_iff_prefix.mpr ((hr.append o).of_starts hclear hfits')] at hnot
  cases hnot

/-- A lexeme stays when the text behind it is the same up to a blank. -/
theorem Leads.upToBlank (h : Leads (l.spelling ++ rest) l) (hr : UpToBlank rest rest') :
    Leads (l.spelling ++ rest') l := by
  generalize hcs : l.spelling ++ rest = cs at h
  cases h with
  | @string q body rest hq hb =>
    have hlead : Leads (q :: (body ++ q :: rest')) ⟨.string, body, q :: (body ++ [q])⟩ := .string hq hb
    simpa using hlead
  | @bytes b q body rest hm hq hb =>
    have hlead : Leads (b :: q :: (body ++ q :: rest')) ⟨.bytes, body, b :: q :: (body ++ [q])⟩ := .bytes hm hq hb
    simpa using hlead
  | number hc hn =>
    obtain ⟨d, spelling, hspelling⟩ := List.exists_cons_of_ne_nil (number_spelling_ne_nil hc hn)
    rw [← hcs] at hn
    have hn' := number_upToBlank hn hr
    rw [hspelling] at hcs hn' ⊢
    cases hcs
    exact .number hc hn'
  | @ident c cs hc hm =>
    have htail : cs.takeWhile isIdentChar ++ rest = cs := (List.cons.inj hcs).2
    have hname : (cs.takeWhile isIdentChar ++ rest').takeWhile isIdentChar = cs.takeWhile isIdentChar :=
      Greedy.upToBlank (greedy_takeWhile isIdentChar) (fun hw d hd => not_blank_of_isIdentChar (hw d hd))
        (congrArg _ htail) hr
    have hhead := (hr.append (cs.takeWhile isIdentChar)).head (P := (isQuote · = false))
      (fun _ => not_quote_of_blank)
    rw [htail] at hhead
    have hlead := Leads.ident hc fun hmark => hhead (hm hmark)
    rwa [hname] at hlead
  | @operator c cs o hq hd hi hop =>
    rw [← hcs] at hop
    have hop' := find_operator_upToBlank hop hr
    obtain ⟨d, o, rfl⟩ := List.exists_cons_of_ne_nil (Leads.operator hq hd hi (hcs ▸ hop)).spelling_ne_nil
    cases hcs
    exact .operator hq hd hi hop'

theorem Spelled.leads_before (h : Spelled l) (hr : UpToBlank [] rest) : Leads (l.spelling ++ rest) l := by
  have halone := h.leads
  rw [← List.append_nil l.spelling] at halone
  exact halone.upToBlank hr

/-- How many characters a spelling has that are not in the text of the lexeme. -/
def extraLength : TokenKind → Nat
  | .uint => 1
  | .string => 2
  | .bytes => 3
  | _ => 0

theorem Spelled.spelling_length (h : Spelled l) : l.spelling.length = l.text.length + extraLength l.kind := by
  cases h <;> simp [extraLength]

theorem Spelled.head_not_blank (h : Spelled l) (rest : List Char) :
    ∀ c ∈ (l.spelling ++ rest).head?, isBlank c = false := by
  obtain ⟨c, cs, hcs⟩ := List.exists_cons_of_ne_nil h.leads.spelling_ne_nil
  have hlead := h.leads
  rw [hcs] at hlead ⊢
  rintro d ⟨⟩
  exact hlead.not_blank

theorem Spelled.eq_of_word {l l' : Lexeme} (h : Spelled l) (h' : Spelled l')
    (hword : l.word = l'.word) (htext : l.spelling ++ rest = l'.spelling ++ rest') : l = l' ∧ rest = rest' := by
  obtain ⟨kind, text, spelling⟩ := l
  obtain ⟨kind', text', spelling'⟩ := l'
  obtain ⟨rfl, hchars⟩ := Word.mk.inj hword
  obtain rfl := String.ofList_injective hchars
  obtain ⟨rfl, rfl⟩ := List.append_inj htext (h.spelling_length.trans h'.spelling_length.symm)
  exact ⟨rfl, rfl⟩

end CelSuite.Lexer
