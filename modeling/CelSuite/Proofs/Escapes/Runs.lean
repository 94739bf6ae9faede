import CelSuite.Proofs.Escapes.Unescape
import Mathlib.Algebra.Ring.Parity

/-! # Runs of backslashes

A text is a row of runs of backslashes, each with the character after it, and the backslashes at its end; there is only
one way to read it so. Undoing the escapes of a quote takes one backslash from every odd run before that quote and
leaves all else. What this does to a text twice over, and to a text cut in two, is then a matter of parity. -/

namespace CelSuite.Text

/-- The backslashes before a character that is none, and that character. -/
@[ext]
structure Run where
  slashes : Nat
  next : Char
  next_ne : next ≠ '\\'

/-- A text cut after each character that is no backslash; `last` counts the backslashes at its end. -/
@[ext]
structure Runs where
  runs : List Run
  last : Nat

def backslashes (n : Nat) : List Char := List.replicate n '\\'

namespace Run

def chars (r : Run) : List Char := backslashes r.slashes ++ [r.next]

/-- A run with more backslashes before it. -/
def after (n : Nat) (r : Run) : Run := { r with slashes := n + r.slashes }

/-- The last backslash of the run escapes the quote. -/
def Escapes (q : Quote) (r : Run) : Prop := r.next = q.char ∧ Odd r.slashes

instance (q : Quote) (r : Run) : Decidable (r.Escapes q) := inferInstanceAs (Decidable (_ ∧ _))

/-- The run without a backslash that escapes the quote. -/
def strip (q : Quote) (r : Run) : Run :=
  { r with slashes := if r.Escapes q then r.slashes - 1 else r.slashes }

variable {q : Quote} {r : Run}

theorem eq_iff (r r' : Run) (h : r.next = r'.next) : r = r' ↔ r.slashes = r'.slashes :=
  ⟨fun heq => heq ▸ rfl, fun heq => Run.ext heq h⟩

theorem not_escapes_strip (q : Quote) (r : Run) : ¬(r.strip q).Escapes q := by
  rintro ⟨hq, hodd⟩
  have hq : r.next = q.char := hq
  simp only [strip, Escapes, Nat.odd_iff, hq, true_and] at hodd
  split at hodd <;> omega

theorem strip_eq_self_iff : r.strip q = r ↔ ¬r.Escapes q := by
  rw [eq_iff (r.strip q) r rfl]
  by_cases h : r.Escapes q
  · have hodd := Nat.odd_iff.mp h.2
    simp only [strip, h, if_true, not_true_eq_false, iff_false]
    omega
  · simp [strip, h]

/-- More backslashes before a run change what is taken from it only if they are odd in number and the quote is next. -/
theorem strip_after_iff {n : Nat} : (r.after n).strip q = (r.strip q).after n ↔ ¬(Odd n ∧ r.next = q.char) := by
  rw [eq_iff ((r.after n).strip q) ((r.strip q).after n) rfl]
  simp only [strip, after, Escapes, Nat.odd_iff]
  by_cases hq : r.next = q.char
  · simp only [hq, true_and, and_true]
    split <;> split <;> omega
  · simp [hq]

end Run

namespace Runs

def chars (t : Runs) : List Char := t.runs.flatMap Run.chars ++ backslashes t.last

def cons (c : Char) (t : Runs) : Runs :=
  if h : c = '\\' then
    match t.runs with
    | [] => ⟨[], t.last + 1⟩
    | r :: rs => ⟨r.after 1 :: rs, t.last⟩
  else ⟨⟨0, c, h⟩ :: t.runs, t.last⟩

def ofChars (cs : List Char) : Runs := cs.foldr cons ⟨[], 0⟩

/-- Every run without a backslash that escapes the quote. -/
def strip (q : Quote) (t : Runs) : Runs := ⟨t.runs.map (Run.strip q), t.last⟩

def append (t u : Runs) : Runs :=
  match u.runs with
  | [] => ⟨t.runs, t.last + u.last⟩
  | r :: rs => ⟨t.runs ++ r.after t.last :: rs, u.last⟩

/-- The cut between two texts parts a backslash from what it escapes, and the run that it goes through is one before
    the quote. -/
def Cut (q : Quote) (t u : Runs) : Prop := Odd t.last ∧ ∃ r rs, u.runs = r :: rs ∧ r.next = q.char

variable {q : Quote} {t u : Runs} {c : Char} {cs : List Char}

/-! ### One way to read a text -/

theorem chars_cons (r : Run) (rs : List Run) (n : Nat) : chars ⟨r :: rs, n⟩ = r.chars ++ chars ⟨rs, n⟩ := by
  rw [chars, chars, List.flatMap_cons, List.append_assoc]

theorem backslashes_add (m n : Nat) : backslashes (m + n) = backslashes m ++ backslashes n :=
  List.replicate_append_replicate.symm

theorem chars_after (n : Nat) (r : Run) : (r.after n).chars = backslashes n ++ r.chars := by
  rw [Run.chars, Run.after, backslashes_add, List.append_assoc, Run.chars]

theorem chars_append (t u : Runs) : (t.append u).chars = t.chars ++ u.chars := by
  obtain ⟨rs, n⟩ := t
  obtain ⟨ss, m⟩ := u
  cases ss with
  | nil => simp [append, chars, backslashes_add]
  | cons s ss => simp [append, chars, chars_after]

theorem cons_chars (c : Char) (t : Runs) : (cons c t).chars = c :: t.chars := by
  obtain ⟨rs, n⟩ := t
  unfold cons
  split
  · rename_i hc
    subst hc
    cases rs with
    | nil => rfl
    | cons r rs => simp [chars, chars_after, backslashes]
  · rfl

theorem chars_ofChars (cs : List Char) : (ofChars cs).chars = cs := by
  induction cs with
  | nil => rfl
  | cons c cs ih =>
    rw [ofChars, List.foldr_cons, cons_chars]
    exact congrArg (c :: ·) ih

theorem ofChars_backslashes (n : Nat) : ofChars (backslashes n) = ⟨[], n⟩ := by
  induction n with
  | zero => rfl
  | succ n ih =>
    show cons '\\' (ofChars (backslashes n)) = _
    rw [ih]
    rfl

theorem ofChars_run (r : Run) (cs : List Char) :
    ofChars (r.chars ++ cs) = ⟨r :: (ofChars cs).runs, (ofChars cs).last⟩ := by
  obtain ⟨n, c, hc⟩ := r
  induction n with
  | zero => exact dif_neg hc
  | succ n ih =>
    show cons '\\' (ofChars (Run.chars ⟨n, c, hc⟩ ++ cs)) = _
    rw [ih]
    show (⟨Run.after 1 ⟨n, c, hc⟩ :: _, _⟩ : Runs) = _
    rw [Run.after, Nat.add_comm]

theorem ofChars_chars (t : Runs) : ofChars t.chars = t := by
  obtain ⟨rs, n⟩ := t
  induction rs with
  | nil => exact ofChars_backslashes n
  | cons r rs ih => rw [chars_cons, ofChars_run, ih]

theorem chars_inj : t.chars = u.chars ↔ t = u := by
  refine ⟨fun h => ?_, fun h => h ▸ rfl⟩
  rw [← ofChars_chars t, ← ofChars_chars u, h]

/-! ### Undoing escapes run by run -/

theorem unescape_backslashes (q : Quote) : ∀ n, unescapeQuote q (backslashes n) = backslashes n
  | 0 => unescape_nil
  | 1 => rfl
  | n + 2 => by
    show unescapeQuote q ('\\' :: '\\' :: backslashes n) = _
    rw [unescape_pair, if_neg q.char_ne_backslash.symm, unescape_backslashes q n]
    rfl

/-- The backslashes of a run are taken two by two, and one that is left escapes the quote. -/
theorem unescape_run (q : Quote) (cs : List Char) :
    ∀ r : Run, unescapeQuote q (r.chars ++ cs) = (r.strip q).chars ++ unescapeQuote q cs
  | ⟨0, c, hc⟩ => by
    have hkept : Run.strip q ⟨0, c, hc⟩ = ⟨0, c, hc⟩ := Run.strip_eq_self_iff.mpr fun h => Nat.not_odd_zero h.2
    rw [hkept]
    exact unescape_cons hc
  | ⟨1, c, hc⟩ => by
    show unescapeQuote q ('\\' :: c :: cs) = _
    rw [unescape_pair]
    by_cases hq : c = q.char
    · simp [Run.strip, Run.Escapes, Run.chars, backslashes, hq]
    · simp [Run.strip, Run.Escapes, Run.chars, backslashes, hq]
  | ⟨n + 2, c, hc⟩ => by
    have hpair : Run.strip q ⟨n + 2, c, hc⟩ = (Run.strip q ⟨n, c, hc⟩).after 2 := by
      rw [← Run.strip_after_iff.mpr fun h => Nat.not_odd_iff_even.mpr even_two h.1, Run.after, Nat.add_comm]
    show unescapeQuote q ('\\' :: '\\' :: (Run.chars ⟨n, c, hc⟩ ++ cs)) = _
    rw [unescape_pair, if_neg q.char_ne_backslash.symm, unescape_run q cs ⟨n, c, hc⟩, hpair, chars_after,
      List.append_assoc]
    rfl

theorem unescape_chars (q : Quote) (t : Runs) : unescapeQuote q t.chars = (t.strip q).chars := by
  obtain ⟨rs, n⟩ := t
  induction rs with
  | nil => exact unescape_backslashes q n
  | cons r rs ih =>
    rw [chars_cons, unescape_run, ih]
    exact (chars_cons _ _ _).symm

/-! ### Twice over -/

theorem strip_eq_self (h : ∀ r ∈ t.runs, ¬r.Escapes q) : t.strip q = t := by
  rw [strip, (List.map_congr_left fun r hr => Run.strip_eq_self_iff.mpr (h r hr)).trans (List.map_id' _)]

theorem strip_eq_self_iff : t.strip q = t ↔ ∀ r ∈ t.runs, ¬r.Escapes q := by
  refine ⟨fun h r hr => ?_, strip_eq_self⟩
  rw [← h] at hr
  obtain ⟨r', -, rfl⟩ := List.mem_map.mp hr
  exact r'.not_escapes_strip q

theorem strip_strip (q : Quote) (t : Runs) : (t.strip q).strip q = t.strip q := by
  refine strip_eq_self fun r hr => ?_
  obtain ⟨r', -, rfl⟩ := List.mem_map.mp hr
  exact r'.not_escapes_strip q

/-! ### In two pieces -/

theorem strip_append_iff : (t.append u).strip q = (t.strip q).append (u.strip q) ↔ ¬Cut q t u := by
  obtain ⟨ss, m⟩ := u
  cases ss with
  | nil => exact iff_of_true rfl fun ⟨_, _, _, hnil, _⟩ => nomatch hnil
  | cons s ss =>
    have hcut : Cut q t ⟨s :: ss, m⟩ ↔ Odd t.last ∧ s.next = q.char := by
      simp [Cut]
    rw [hcut, ← Run.strip_after_iff]
    simp [append, strip]

/-- A text that does not end in a backslash, or has nothing after it, is not cut from what it escapes. -/
theorem not_cut (h : ¬(t.chars.getLast? = some '\\' ∧ u.chars ≠ [])) : ¬Cut q t u := by
  rintro ⟨⟨n, hlast⟩, r, rs, hruns, -⟩
  refine h ⟨?_, ?_⟩
  · have hend : backslashes (2 * n + 1) = backslashes (2 * n) ++ ['\\'] := backslashes_add (2 * n) 1
    rw [chars, hlast, hend, ← List.append_assoc, List.getLast?_concat]
  · simp [chars, hruns, Run.chars]

end Runs

variable {q : Quote} {s a b : String} {t u : Runs}

theorem expandEscapes_toList (q : Quote) (s : String) (h : t.chars = s.toList) :
    (expandEscapes q s).toList = (t.strip q).chars := by
  rw [expandEscapes, String.toList_ofList, ← h, Runs.unescape_chars]

theorem expandEscapes_append_iff (ht : t.chars = a.toList) (hu : u.chars = b.toList) :
    expandEscapes q (a ++ b) = expandEscapes q a ++ expandEscapes q b ↔ ¬Runs.Cut q t u := by
  have hab : (t.append u).chars = (a ++ b).toList := by
    rw [Runs.chars_append, ht, hu, String.toList_append]
  rw [← String.toList_inj, String.toList_append, expandEscapes_toList q _ hab, expandEscapes_toList q _ ht,
    expandEscapes_toList q _ hu, ← Runs.chars_append, Runs.chars_inj, Runs.strip_append_iff]

theorem expandEscapes_eq_self_iff (h : t.chars = s.toList) :
    expandEscapes q s = s ↔ ∀ r ∈ t.runs, ¬r.Escapes q := by
  rw [← String.toList_inj, expandEscapes_toList q s h, ← h, Runs.chars_inj, Runs.strip_eq_self_iff]

/-- Every text is a row of runs in one way, and to undo the escapes of a quote is to take one backslash from each odd
    run before that quote. This changes nothing exactly when there is no such run, and never changes anything the second
    time. The pieces of a text can be taken one by one unless the cut stands after an odd number of backslashes that go
    on to the quote; so they can whenever it does not part a backslash from the character after it. -/
theorem expandEscapes_strips_odd_runs (q : Quote) (s : String) :
    (∃! t : Runs, t.chars = s.toList) ∧
      (∀ t : Runs, t.chars = s.toList →
        (expandEscapes q s).toList = (t.strip q).chars ∧ (expandEscapes q s = s ↔ ∀ r ∈ t.runs, ¬r.Escapes q)) ∧
      expandEscapes q (expandEscapes q s) = expandEscapes q s ∧
      (∀ a b, s = a ++ b → ¬(a.toList.getLast? = some '\\' ∧ b ≠ "") →
        expandEscapes q s = expandEscapes q a ++ expandEscapes q b) ∧
      ∀ a b, s = a ++ b → ∀ t u : Runs, t.chars = a.toList → u.chars = b.toList →
        (expandEscapes q s = expandEscapes q a ++ expandEscapes q b ↔ ¬Runs.Cut q t u) := by
  have hs := Runs.chars_ofChars s.toList
  refine ⟨⟨Runs.ofChars s.toList, hs, ?unique⟩, ?strips, ?twice, ?apart, ?cut⟩
  case unique =>
    intro t ht
    rw [← ht, Runs.ofChars_chars]
  case strips =>
    intro t ht
    exact ⟨expandEscapes_toList q s ht, expandEscapes_eq_self_iff ht⟩
  case twice =>
    have hstripped := expandEscapes_toList q s hs
    rw [← String.toList_inj, expandEscapes_toList q _ hstripped.symm, Runs.strip_strip, hstripped]
  case apart =>
    rintro a b rfl hcut
    have ha := Runs.chars_ofChars a.toList
    have hb := Runs.chars_ofChars b.toList
    refine (expandEscapes_append_iff ha hb).mpr (Runs.not_cut fun h => hcut ?_)
    rw [ha, hb] at h
    exact ⟨h.1, fun hempty => h.2 (by rw [hempty]; rfl)⟩
  case cut =>
    rintro a b rfl t u ht hu
    exact expandEscapes_append_iff ht hu

/-- Three backslashes before the quote lose one, and two of them stay before it. The text may be cut after the quote but
    not before it. -/
theorem three_backslashes_before_quote :
    let a := "x\\\\\\"
    let b := "'y"
    let t : Runs := ⟨[⟨0, 'x', by decide⟩], 3⟩
    let u : Runs := ⟨[⟨0, '\x27', by decide⟩, ⟨0, 'y', by decide⟩], 0⟩
    (t.chars = a.toList ∧ u.chars = b.toList) ∧
      expandEscapes .single (a ++ b) ≠ expandEscapes .single a ++ expandEscapes .single b ∧
      expandEscapes .single ("x\\\\\\'" ++ "y") = expandEscapes .single "x\\\\\\'" ++ expandEscapes .single "y" ∧
      (expandEscapes .single (a ++ b)).toList = ['x', '\\', '\\', '\x27', 'y'] := by
  intro a b t u
  have ht : t.chars = a.toList := by decide
  have hu : u.chars = b.toList := by decide
  have hab : (t.append u).chars = (a ++ b).toList := by rw [Runs.chars_append, ht, hu, String.toList_append]
  obtain ⟨-, hruns, -, hapart, hcut⟩ := expandEscapes_strips_odd_runs .single (a ++ b)
  refine ⟨⟨ht, hu⟩, fun h => ?_, hapart _ _ (by decide) (by decide), ?_⟩
  · exact (hcut a b rfl t u ht hu).mp h ⟨⟨1, rfl⟩, _, _, rfl, rfl⟩
  · rw [(hruns _ hab).1]
    decide

end CelSuite.Text
