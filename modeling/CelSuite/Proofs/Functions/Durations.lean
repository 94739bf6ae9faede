import CelSuite.Duration
import CelSuite.Expr.Functions
import CelSuite.Proofs.Text.Digits
import Mathlib.Algebra.Ring.Nat
import Mathlib.Data.List.Forall2

/-! # Durations are read segment by segment

A duration is written as segments, each a number with or without a fraction and a unit. A segment ends where the next
one begins, since a unit ends at a digit and at nothing else: `ms` is never minutes followed by something. So a text
is cut into segments in one way only, and what two texts denote adds up when they are put together. -/

namespace CelSuite.Duration

/-! ### Segments -/

/-- One or more decimal digits. -/
structure Number where
  digits : List Char
  nonempty : digits ≠ []
  decimal : ∀ c ∈ digits, c.isDigit = true

def Number.value (n : Number) : Nat := Nat.ofDigitChars 10 n.digits 0

inductive TimeUnit where
  | hour
  | minute
  | second
  | millisecond
  | microsecond
  | nanosecond
  deriving DecidableEq

def TimeUnit.name : TimeUnit → List Char
  | .hour => ['h']
  | .minute => ['m']
  | .second => ['s']
  | .millisecond => ['m', 's']
  | .microsecond => ['u', 's']
  | .nanosecond => ['n', 's']

def TimeUnit.nanos : TimeUnit → Nat
  | .hour => 3600 * 1000000000
  | .minute => 60 * 1000000000
  | .second => 1000000000
  | .millisecond => 1000000
  | .microsecond => 1000
  | .nanosecond => 1

/-- A number, with or without a fraction, and a unit. -/
structure Segment where
  whole : Number
  fraction : Option Number
  unit : TimeUnit

def Segment.text (s : Segment) : List Char :=
  s.whole.digits ++ (s.fraction.elim [] (fun f => '.' :: f.digits) ++ s.unit.name)

/-- A segment as a reader finds it. -/
def Segment.toMatch (s : Segment) : Match := ⟨s.whole.digits, s.fraction.elim [] Number.digits, s.unit.nanos⟩

/-- The nanoseconds of a segment. Of a fraction the whole nanoseconds count. -/
def Segment.nanos (s : Segment) : Nat :=
  s.whole.value * s.unit.nanos + s.fraction.elim 0 fun f => f.value * s.unit.nanos / 10 ^ f.digits.length

/-- What segments denote, and segments behind a minus. -/
inductive Denotes : List Char → Int → Prop
  | unsigned {ss : List Segment} (h : ss ≠ []) : Denotes (ss.flatMap Segment.text) (ss.map Segment.nanos).sum
  | negative {ss : List Segment} (h : ss ≠ []) :
      Denotes ('-' :: ss.flatMap Segment.text) (-((ss.map Segment.nanos).sum : Int))

variable {cs r : List Char} {n : Nat} {total : Int}

theorem Number.isDigit (n : Number) : ∀ c ∈ n.digits, Text.isDigit c = true := fun c hc =>
  (Text.isDigit_eq c).trans (n.decimal c hc)

theorem Number.ofDigits (n : Number) : Text.ofDigits n.digits = n.value := Text.ofDigits_eq_ofDigitChars n.digits

/-- The digits at the start of a text. -/
def leading (cs : List Char) (h : cs.takeWhile Text.isDigit ≠ []) : Number where
  digits := cs.takeWhile Text.isDigit
  nonempty := h
  decimal := fun c hc => (Text.isDigit_eq c).symm.trans (List.all_eq_true.mp List.all_takeWhile c hc)

/-! ### A segment at the start of a text -/

theorem unit?_name (u : TimeUnit) (hr : ∀ c ∈ r.head?, c ≠ 's') : unit? (u.name ++ r) = some (u.nanos, r) := by
  cases u with
  | minute =>
    have hs : ∀ r', r ≠ 's' :: r' := by
      rintro r' rfl
      exact hr 's' rfl rfl
    rw [TimeUnit.name, List.singleton_append, unit?]
    · rfl
    · exact fun r' h => hs r' h
  | _ => rfl

theorem name_of_unit? (h : unit? cs = some (n, r)) : ∃ u : TimeUnit, cs = u.name ++ r ∧ u.nanos = n := by
  unfold unit? at h
  split at h
  · cases h
    exact ⟨.hour, rfl, rfl⟩
  · cases h
    exact ⟨.millisecond, rfl, rfl⟩
  · cases h
    exact ⟨.microsecond, rfl, rfl⟩
  · cases h
    exact ⟨.nanosecond, rfl, rfl⟩
  · cases h
    exact ⟨.minute, rfl, rfl⟩
  · cases h
    exact ⟨.second, rfl, rfl⟩
  · cases h

theorem name_head (u : TimeUnit) : ∀ c ∈ (u.name ++ r).head?, c ≠ '.' ∧ c.isDigit = false := by
  cases u <;> exact fun c hc => by cases hc; decide

/-- A fraction, or none, before something that continues neither the digits nor a number without a fraction. -/
theorem fraction?_text (f : Option Number) (hr : ∀ c ∈ r.head?, c ≠ '.' ∧ c.isDigit = false) :
    fraction? (f.elim [] (fun f => '.' :: f.digits) ++ r) = some (f.elim [] Number.digits, r) := by
  cases f with
  | none =>
    rw [Option.elim_none, Option.elim_none, List.nil_append]
    unfold fraction?
    split
    · exact absurd rfl (hr '.' rfl).1
    · rfl
  | some f =>
    obtain ⟨htake, hdrop⟩ := Text.takeWhile_run f.isDigit fun c hc => (Text.isDigit_eq c).trans (hr c hc).2
    rw [Option.elim_some, Option.elim_some, List.cons_append, fraction?, htake, hdrop, if_neg f.nonempty]

theorem fraction_of_fraction? {ds : List Char} (h : fraction? cs = some (ds, r)) :
    ∃ f : Option Number, cs = f.elim [] (fun f => '.' :: f.digits) ++ r ∧ f.elim [] Number.digits = ds := by
  unfold fraction? at h
  split at h
  · rename_i rest
    split at h
    · cases h
    · rename_i hne
      cases h
      exact ⟨some (leading rest hne), congrArg ('.' :: ·) List.takeWhile_append_dropWhile.symm, rfl⟩
  · cases h
    exact ⟨none, rfl, rfl⟩

theorem Number.ofText (n : Number) : Integer.ofText (String.ofList n.digits) = .ok (n.value : Int) := by
  rw [Integer.ofText_eq_ok, Decimal.integer?_digits n.isDigit n.nonempty, n.ofDigits]

/-- The digits of a segment are integers, and the power of ten that a fraction is divided by is not zero, so counting
    its nanoseconds throws nothing. -/
theorem Segment.toMatch_nanos (s : Segment) : s.toMatch.nanos = .ok (s.nanos : Int) := by
  obtain ⟨whole, f, u⟩ := s
  cases f with
  | none =>
    rw [Match.nanos, toMatch, whole.ofText, nanos]
    simp [bind, Except.bind, pure, Except.pure]
  | some f =>
    have hscale : Int.pow 10 f.digits.length ≠ 0 := Int.pow_ne_zero (by decide)
    have hpow : Int.pow 10 f.digits.length = 10 ^ f.digits.length := rfl
    rw [Match.nanos, toMatch, whole.ofText, nanos]
    simp only [Option.elim_some, f.nonempty, if_false, f.ofText, Integer.power_natCast, bind, Except.bind,
      Integer.quotient_of_ne hscale, pure, Except.pure]
    rw [hpow]
    push_cast
    rw [Int.tdiv_eq_ediv_of_nonneg (Int.mul_nonneg (Int.natCast_nonneg _) (Int.natCast_nonneg _))]

/-- A segment is read up to its end before a digit, which continues no unit. -/
theorem segment?_text (s : Segment) (hr : ∀ c ∈ r.head?, c.isDigit = true) :
    segment? (s.text ++ r) = some (s.toMatch, r) := by
  obtain ⟨whole, f, u⟩ := s
  have hunit : unit? (u.name ++ r) = some (u.nanos, r) := by
    refine unit?_name u fun c hc hs => ?_
    subst hs
    exact absurd (hr 's' hc) (by decide)
  have hpoint := fraction?_text f (name_head u (r := r))
  have hstop : ∀ c ∈ (f.elim [] (fun f => '.' :: f.digits) ++ (u.name ++ r)).head?, Text.isDigit c = false := by
    cases f with
    | none => exact fun c hc => (Text.isDigit_eq c).trans (name_head u c hc).2
    | some f =>
      rintro c ⟨⟩
      rfl
  obtain ⟨htake, hdrop⟩ := Text.takeWhile_run whole.isDigit hstop
  rw [Segment.text, List.append_assoc, List.append_assoc, segment?, htake, hdrop, if_neg whole.nonempty, hpoint,
    Option.bind_some, hunit, Option.map_some]
  rfl

theorem text_of_segment? {m : Match} (h : segment? cs = some (m, r)) :
    ∃ s : Segment, cs = s.text ++ r ∧ s.toMatch = m := by
  unfold segment? at h
  split at h
  · cases h
  rename_i hwhole
  obtain ⟨⟨ds, rest⟩, hfraction, h⟩ := Option.bind_eq_some_iff.mp h
  obtain ⟨⟨m, r'⟩, hunit, h⟩ := Option.map_eq_some_iff.mp h
  cases h
  obtain ⟨u, hname, rfl⟩ := name_of_unit? hunit
  obtain ⟨f, hpoint, rfl⟩ := fraction_of_fraction? hfraction
  dsimp only at hname
  refine ⟨⟨leading cs hwhole, f, u⟩, ?_, rfl⟩
  calc cs = cs.takeWhile Text.isDigit ++ cs.dropWhile Text.isDigit := List.takeWhile_append_dropWhile.symm
    _ = cs.takeWhile Text.isDigit ++ (f.elim [] (fun f => '.' :: f.digits) ++ (u.name ++ r')) := by rw [hpoint, hname]
    _ = (⟨leading cs hwhole, f, u⟩ : Segment).text ++ r' := by
      rw [Segment.text, List.append_assoc, List.append_assoc]
      rfl

/-! ### Texts of segments -/

theorem Segment.head (s : Segment) : ∃ c t, s.text = c :: t ∧ c.isDigit = true := by
  obtain ⟨c, ds, hdigits⟩ := List.exists_cons_of_ne_nil s.whole.nonempty
  exact ⟨c, _, by rw [text, hdigits]; rfl, s.whole.decimal c (hdigits ▸ List.mem_cons_self)⟩

theorem head_of_segments (ss : List Segment) : ∀ c ∈ (ss.flatMap Segment.text).head?, c.isDigit = true := by
  cases ss with
  | nil => exact nofun
  | cons s ss =>
    obtain ⟨c, t, htext, hc⟩ := s.head
    rw [List.flatMap_cons, htext]
    rintro _ ⟨⟩
    exact hc

theorem Segment.text_append_ne_nil (s : Segment) (r : List Char) : s.text ++ r ≠ [] := by
  obtain ⟨c, t, htext, -⟩ := s.head
  rw [htext]
  exact List.cons_ne_nil _ _

theorem segments_of_segment? {s : Segment} (h : segment? cs = some (s.toMatch, r)) (hne : cs ≠ []) :
    segments cs = (segments r).map ((s.nanos : Int) + ·) := by
  rw [segments, if_neg hne]
  split
  · rename_i hnone
    rw [hnone] at h
    cases h
  · rename_i m r' hsome
    rw [hsome] at h
    cases h
    rw [s.toMatch_nanos]
    rfl

theorem segments_of_none (h : segment? cs = none) (hne : cs ≠ []) : segments cs = .error .malformed := by
  rw [segments, if_neg hne]
  split
  · rfl
  · rename_i hsome
    rw [hsome] at h
    cases h

theorem segments_text (ss : List Segment) :
    segments (ss.flatMap Segment.text) = .ok (((ss.map Segment.nanos).sum : Nat) : Int) := by
  induction ss with
  | nil => rw [List.flatMap_nil, segments, if_pos rfl]; rfl
  | cons s ss ih =>
    rw [List.flatMap_cons, segments_of_segment? (segment?_text s (head_of_segments ss)) (s.text_append_ne_nil _), ih,
      List.map_cons, List.sum_cons, Int.natCast_add]
    rfl

/-- A text is cut into segments, or one place in it begins none. Nothing is thrown. -/
theorem segments_cases (cs : List Char) : segments cs = .error .malformed ∨
    ∃ ss : List Segment, cs = ss.flatMap Segment.text ∧
      segments cs = .ok (((ss.map Segment.nanos).sum : Nat) : Int) := by
  by_cases hcs : cs = []
  · exact Or.inr ⟨[], hcs, hcs ▸ segments_text []⟩
  · cases hsegment : segment? cs with
    | none => exact Or.inl (segments_of_none hsegment hcs)
    | some found =>
      obtain ⟨m, r⟩ := found
      have hshorter := segment?_length hsegment
      obtain ⟨s, rfl, rfl⟩ := text_of_segment? hsegment
      rcases segments_cases r with hr | ⟨ss, rfl, -⟩
      · refine Or.inl ?_
        rw [segments_of_segment? hsegment hcs, hr]
        rfl
      · exact Or.inr ⟨s :: ss, rfl, segments_text (s :: ss)⟩
termination_by cs.length

theorem text_unsigned {ss : List Segment} (h : ss ≠ []) :
    ss.flatMap Segment.text ≠ [] ∧ (ss.flatMap Segment.text).head? ≠ some '-' := by
  obtain ⟨s, ss, rfl⟩ := List.exists_cons_of_ne_nil h
  obtain ⟨c, t, htext, hc⟩ := s.head
  rw [List.flatMap_cons, htext]
  refine ⟨List.cons_ne_nil _ _, fun hminus => ?_⟩
  cases hminus
  exact absurd hc (by decide)

theorem parse_minus (cs : List Char) :
    parse ('-' :: cs) = if cs = [] then .error .malformed else (segments cs).map fun n => -n := by
  simp [parse]

theorem parse_plain (h : cs.head? ≠ some '-') :
    parse cs = if cs = [] then .error .malformed else (segments cs).map fun n => n := by
  simp [parse, h]

/-- A text denotes a duration, which is what is read from it, or it is malformed. -/
theorem parse_cases (cs : List Char) :
    (∃ total, Denotes cs total ∧ parse cs = .ok total) ∨ parse cs = .error .malformed := by
  by_cases hminus : cs.head? = some '-'
  · obtain ⟨body, rfl⟩ := List.head?_eq_some_iff.mp hminus
    rw [parse_minus]
    split
    · exact Or.inr rfl
    · rename_i hne
      rcases segments_cases body with h | ⟨ss, rfl, h⟩
      · exact Or.inr (by rw [h]; rfl)
      · exact Or.inl ⟨_, .negative (by rintro rfl; exact hne rfl), by rw [h]; rfl⟩
  · rw [parse_plain hminus]
    split
    · exact Or.inr rfl
    · rename_i hne
      rcases segments_cases cs with h | ⟨ss, rfl, h⟩
      · exact Or.inr (by rw [h]; rfl)
      · exact Or.inl ⟨_, .unsigned (by rintro rfl; exact hne rfl), by rw [h]; rfl⟩

/-- A text is read as a duration exactly when it is written as one. -/
theorem parse_eq_ok : parse cs = .ok total ↔ Denotes cs total := by
  constructor
  · intro h
    rcases parse_cases cs with ⟨total', hdenotes, hok⟩ | herror
    · rw [hok] at h
      cases h
      exact hdenotes
    · rw [herror] at h
      cases h
  · intro h
    cases h with
    | @unsigned ss h =>
      obtain ⟨hne, hminus⟩ := text_unsigned h
      rw [parse_plain hminus, if_neg hne, segments_text]
      rfl
    | @negative ss h =>
      rw [parse_minus, if_neg (text_unsigned h).1, segments_text]
      rfl

/-! ### Texts put together -/

theorem Denotes.unsigned_iff (hcs : cs.head? ≠ some '-') :
    Denotes cs total ↔
      ∃ ss : List Segment, ss ≠ [] ∧ cs = ss.flatMap Segment.text ∧ total = (ss.map Segment.nanos).sum := by
  constructor
  · rintro (@⟨ss, h⟩ | h)
    · exact ⟨ss, h, rfl, rfl⟩
    · exact absurd rfl hcs
  · rintro ⟨ss, h, rfl, rfl⟩
    exact .unsigned h

variable {as bs : List Char} {a b : Int}

theorem Denotes.append (ha : Denotes as a) (has : as.head? ≠ some '-') (hbs : bs.head? ≠ some '-')
    (hb : Denotes bs b) : Denotes (as ++ bs) (a + b) := by
  obtain ⟨ss, hss, rfl, rfl⟩ := (Denotes.unsigned_iff has).mp ha
  obtain ⟨ts, -, rfl, rfl⟩ := (Denotes.unsigned_iff hbs).mp hb
  rw [← List.flatMap_append, ← Int.natCast_add, ← List.sum_append, ← List.map_append]
  exact .unsigned (List.append_ne_nil_of_left_ne_nil hss ts)

theorem Denotes.minus (ha : Denotes as a) (has : as.head? ≠ some '-') : Denotes ('-' :: as) (-a) := by
  obtain ⟨ss, hss, rfl, rfl⟩ := (Denotes.unsigned_iff has).mp ha
  exact .negative hss

/-! ### One scanner -/

namespace Scanner

variable {sc : Scanner}

theorem next_eq_some {sc' : Scanner} {m : Match} (h : sc.next cs = (some m, sc')) :
    segment? (cs.drop sc.place) = some (m, cs.drop sc'.place) := by
  unfold next at h
  split at h
  · rename_i m' r hsegment
    obtain ⟨rfl, rfl⟩ : m' = m ∧ ⟨cs.length - r.length⟩ = sc' := by simpa using h
    obtain ⟨s, hdrop, -⟩ := text_of_segment? hsegment
    have hsuffix : r <:+ cs := ((List.suffix_append s.text r).trans (hdrop ▸ List.suffix_refl _)).trans
      (List.drop_suffix sc.place cs)
    rw [hsegment, ← List.suffix_iff_eq_drop.mp hsuffix]
  · cases h

theorem next_eq_none {sc' : Scanner} (h : sc.next cs = (none, sc')) : segment? (cs.drop sc.place) = none := by
  unfold next at h
  split at h
  · cases h
  · assumption

/-- From its place a scanner reads what is left of a text. -/
theorem sum_eq (sc : Scanner) (cs : List Char) (total : Int) :
    (sc.sum cs total).1 = (segments (cs.drop sc.place)).map (total + ·) := by
  rw [sum]
  split
  · rename_i hplace
    have hne : cs.drop sc.place ≠ [] := by
      rw [List.ne_nil_iff_length_pos, List.length_drop]
      omega
    split
    -- behind a segment the scanner stands where the rest of the text begins
    · rename_i m sc' hnext
      have hsegment := next_eq_some hnext
      obtain ⟨s, -, rfl⟩ := text_of_segment? hsegment
      rw [s.toMatch_nanos, segments_of_segment? hsegment hne]
      dsimp only
      rw [sum_eq sc' cs (total + s.nanos)]
      cases segments (cs.drop sc'.place) with
      | ok k => exact congrArg Except.ok (Int.add_assoc total s.nanos k)
      | error e => rfl
    · rename_i sc' hnext
      rw [segments_of_none (next_eq_none hnext) hne]
      rfl
  · rename_i hplace
    have hend : cs.drop sc.place = [] := List.drop_eq_nil_of_le (Nat.not_lt.mp hplace)
    rw [hend, segments, if_pos rfl]
    exact congrArg Except.ok (Int.add_zero total).symm
termination_by cs.length - sc.place
decreasing_by exact next_advances ‹_›

/-- Where a scanner stands makes no difference to what it reads. -/
theorem parse_eq (sc : Scanner) (cs : List Char) : (sc.parse cs).1 = Duration.parse cs := by
  have hsum (body : List Char) : (sum ⟨0⟩ body 0).1 = segments body := by
    rw [sum_eq, List.drop_zero]
    cases segments body with
    | ok n => exact congrArg Except.ok (Int.zero_add n)
    | error e => rfl
  rw [parse, Duration.parse]
  generalize (if cs.head? = some '-' then cs.tail else cs) = body
  rw [← hsum]
  dsimp only
  split <;> rfl

/-- A text is read the same after any others. -/
theorem answers_eq (sc : Scanner) (texts : List (List Char)) :
    sc.answers texts = texts.map fun cs => (Duration.parse cs).toOption := by
  induction texts generalizing sc with
  | nil => rfl
  | cons cs texts ih => rw [answers, parse_eq, ih, List.map_cons]

end Scanner

end CelSuite.Duration

namespace CelSuite.Functions
open Duration

/-- A text is a duration, or it is told as an invalid one. -/
theorem toDuration_cases (s : String) :
    (∃ total, Denotes s.toList total ∧ toDuration (.string s) = .ok (.duration total)) ∨
      (¬∃ total, Denotes s.toList total) ∧ toDuration (.string s) = .error (.invalidDuration s) := by
  rw [toDuration]
  rcases parse_cases s.toList with ⟨total, hdenotes, hok⟩ | herror
  · exact Or.inl ⟨total, hdenotes, by rw [hok]⟩
  · refine Or.inr ⟨?_, by rw [herror]⟩
    rintro ⟨total, hdenotes⟩
    rw [parse_eq_ok.mpr hdenotes] at herror
    cases herror

theorem toDuration_eq_ok {s : String} {v : Value} :
    toDuration (.string s) = .ok v ↔ ∃ total, v = .duration total ∧ Denotes s.toList total := by
  constructor
  · intro h
    rcases toDuration_cases s with ⟨total, hdenotes, hok⟩ | ⟨-, herror⟩
    · rw [hok] at h
      cases h
      exact ⟨total, rfl, hdenotes⟩
    · rw [herror] at h
      cases h
  · rintro ⟨total, rfl, hdenotes⟩
    rw [toDuration, parse_eq_ok.mpr hdenotes]

theorem toDuration_eq_error {s : String} :
    toDuration (.string s) = .error (.invalidDuration s) ↔ ¬∃ total, Denotes s.toList total := by
  rcases toDuration_cases s with ⟨total, hdenotes, hok⟩ | ⟨hnone, herror⟩
  · rw [hok]
    exact iff_of_false nofun (not_not.mpr ⟨total, hdenotes⟩)
  · exact iff_of_true herror hnone

theorem toDuration_duration {s : String} {total : Int} :
    toDuration (.string s) = .ok (.duration total) ↔ Denotes s.toList total := by
  rw [toDuration_eq_ok]
  simp

/-- A text is a duration exactly when it is one or more segments, behind a minus or not, and the sum of the segments is
    its total; every other text is told as an invalid duration. Texts without a minus add up when they are put
    together, and a minus negates one. A scanner that serves many texts, wherever it stands at first, reads each of
    them as if it were the only one. -/
theorem durations_read_by_segments :
    (∀ (s : String) (v : Value),
      toDuration (.string s) = .ok v ↔ ∃ total, v = .duration total ∧ Denotes s.toList total) ∧
    (∀ s : String, toDuration (.string s) = .error (.invalidDuration s) ↔ ¬∃ total, Denotes s.toList total) ∧
    (∀ s : String, (EvalError.invalidDuration s).message = "invalid duration: " ++ Text.quote s) ∧
    (∀ {a b : String} {m n : Int}, a.toList.head? ≠ some '-' → b.toList.head? ≠ some '-' →
      toDuration (.string a) = .ok (.duration m) → toDuration (.string b) = .ok (.duration n) →
      toDuration (.string (a ++ b)) = .ok (.duration (m + n)) ∧
        toDuration (.string ("-" ++ a)) = .ok (.duration (-m))) ∧
    ∀ (sc : Scanner) (texts : List String), List.Forall₂
      (fun s answer => ∀ total, answer = some total ↔ toDuration (.string s) = .ok (.duration total))
      texts (sc.answers (texts.map String.toList)) := by
  refine ⟨fun s v => toDuration_eq_ok, fun s => toDuration_eq_error, fun s => rfl, ?together, fun sc texts => ?history⟩
  case together =>
    intro a b m n ha hb hm hn
    rw [toDuration_duration] at hm hn
    rw [toDuration_duration, toDuration_duration, String.toList_append, String.toList_append]
    exact ⟨hm.append ha hb hn, hm.minus ha⟩
  case history =>
    rw [Scanner.answers_eq, List.map_map]
    refine List.forall₂_map_right_iff.mpr (List.forall₂_same.mpr fun s _ total => ?_)
    rw [toDuration_duration, ← parse_eq_ok, Function.comp_apply]
    cases Duration.parse s.toList <;> simp [Except.toOption]

/-- Hours with a fraction, and milliseconds before minutes. -/
theorem mixed_units_read_together :
    ("1.5h".toList.head? ≠ some '-' ∧ "20ms3m".toList.head? ≠ some '-' ∧
      toDuration (.string "1.5h") = .ok (.duration 5400000000000) ∧
      toDuration (.string "20ms3m") = .ok (.duration 180020000000)) ∧
      toDuration (.string "1.5h20ms3m") = .ok (.duration 5580020000000) ∧
      toDuration (.string "-1.5h") = .ok (.duration (-5400000000000)) := by
  have hunsigned : "1.5h".toList.head? ≠ some '-' ∧ "20ms3m".toList.head? ≠ some '-' := by decide
  have hhours : Denotes "1.5h".toList 5400000000000 :=
    (Denotes.unsigned_iff hunsigned.1).mpr ⟨[⟨⟨['1'], by decide, List.all_eq_true.mp rfl⟩,
      some ⟨['5'], by decide, List.all_eq_true.mp rfl⟩, .hour⟩], by simp, by decide, by decide⟩
  have hrest : Denotes "20ms3m".toList 180020000000 :=
    (Denotes.unsigned_iff hunsigned.2).mpr ⟨[⟨⟨['2', '0'], by decide, List.all_eq_true.mp rfl⟩, none, .millisecond⟩,
      ⟨⟨['3'], by decide, List.all_eq_true.mp rfl⟩, none, .minute⟩], by simp, by decide, by decide⟩
  have ha := toDuration_duration.mpr hhours
  have hb := toDuration_duration.mpr hrest
  obtain ⟨-, -, -, htogether, -⟩ := durations_read_by_segments
  exact ⟨⟨hunsigned.1, hunsigned.2, ha, hb⟩, htogether hunsigned.1 hunsigned.2 ha hb⟩

end CelSuite.Functions
