import CelSuite.Exception

/-! # Durations

A duration is a signed number of nanoseconds. Its whole seconds are truncated toward zero and the
nanoseconds that remain have the same sign. As text it is an optional minus and one or more segments,
each a number, possibly with a fraction, and a unit; a fraction counts as many whole nanoseconds as it
holds. -/

namespace CelSuite.Duration

/-- The number of nanoseconds in a second. -/
def nanosPerSecond : Nat := 1000000000

/-- The whole seconds, toward zero. -/
def seconds (total : Int) : Int :=
  total.tdiv nanosPerSecond

/-- The nanoseconds that remain, with the sign of the total. -/
def nanos (total : Int) : Int :=
  total.tmod nanosPerSecond

/-- The total of seconds and nanoseconds. -/
def ofParts (seconds nanos : Int) : Int :=
  seconds * nanosPerSecond + nanos

/-! ### Segments -/

/-- A unit at the start of a text: its nanoseconds and the rest. -/
def unit? : List Char → Option (Nat × List Char)
  | 'h' :: r => some (3600000000000, r)
  | 'm' :: 's' :: r => some (1000000, r)
  | 'u' :: 's' :: r => some (1000, r)
  | 'n' :: 's' :: r => some (1, r)
  | 'm' :: r => some (60000000000, r)
  | 's' :: r => some (1000000000, r)
  | _ => none

/-- The digits of a fraction, if a point begins one, and the rest. A point needs a digit after it. -/
def fraction? : List Char → Option (List Char × List Char)
  | '.' :: r =>
    if r.takeWhile Text.isDigit = [] then none
    else some (r.takeWhile Text.isDigit, r.dropWhile Text.isDigit)
  | r => some ([], r)

/-- A segment as it is written: the digits before and after the point, and the nanoseconds of the unit. -/
structure Match where
  whole : List Char
  fraction : List Char
  unit : Nat

/-- The nanoseconds of a segment. -/
def Match.nanos (m : Match) : Except Exception Int := do
  let whole ← Integer.ofText (String.ofList m.whole)
  if m.fraction = [] then return whole * m.unit
  else
    let part ← Integer.ofText (String.ofList m.fraction)
    let scale ← Integer.power 10 m.fraction.length
    return whole * m.unit + (← Integer.quotient (part * m.unit) scale)

/-- A segment at the start of a text, and the rest. -/
def segment? (cs : List Char) : Option (Match × List Char) :=
  if cs.takeWhile Text.isDigit = [] then none
  else
    (fraction? (cs.dropWhile Text.isDigit)).bind fun f =>
      (unit? f.2).map fun u => (⟨cs.takeWhile Text.isDigit, f.1, u.1⟩, u.2)

theorem unit?_length {cs r : List Char} {u : Nat} (h : unit? cs = some (u, r)) :
    r.length < cs.length := by
  unfold unit? at h
  split at h
  all_goals simp_all
  all_goals omega

theorem fraction?_length {cs f r : List Char} (h : fraction? cs = some (f, r)) :
    r.length ≤ cs.length := by
  unfold fraction? at h
  split at h
  · rename_i r'
    split at h
    · simp at h
    · have shorter := (List.dropWhile_suffix (l := r') Text.isDigit).length_le
      simp only [Option.some.injEq, Prod.mk.injEq] at h
      rw [← h.2, List.length_cons]
      omega
  · simp only [Option.some.injEq, Prod.mk.injEq] at h
    exact Nat.le_of_eq (congrArg List.length h.2).symm

theorem segment?_length {cs r : List Char} {m : Match} (h : segment? cs = some (m, r)) :
    r.length < cs.length := by
  unfold segment? at h
  split at h
  · simp at h
  · obtain ⟨⟨f, r₁⟩, h₁, h⟩ := Option.bind_eq_some_iff.1 h
    obtain ⟨⟨u, r₂⟩, h₂, h⟩ := Option.map_eq_some_iff.1 h
    have l₁ := fraction?_length h₁
    have l₂ := unit?_length h₂
    have l₀ := (List.dropWhile_suffix (l := cs) Text.isDigit).length_le
    simp only [Prod.mk.injEq] at h
    rw [← h.2]
    simp only at l₂ ⊢
    omega

/-! ### Texts -/

/-- Why a text gives no duration: it is none, or reading a segment throws. -/
inductive Fault where
  | malformed
  | exception (x : Exception)
  deriving DecidableEq

/-- The nanoseconds of a text that is all segments; an empty text has none. -/
def segments (cs : List Char) : Except Fault Int :=
  if cs = [] then .ok 0
  else
    match _h : segment? cs with
    | none => .error .malformed
    | some (m, r) => do
      let n ← m.nanos.mapError .exception
      return n + (← segments r)
termination_by cs.length
decreasing_by exact segment?_length _h

/-- The nanoseconds of a text: an optional minus and at least one segment. -/
def parse (cs : List Char) : Except Fault Int :=
  let body := if cs.head? = some '-' then cs.tail else cs
  if body = [] then .error .malformed
  else (segments body).map fun n => if cs.head? = some '-' then -n else n

/-! ### One scanner for all texts

A scanner matches one segment after another and keeps its place between the matches. One scanner reads every
text: a text is read from its start, wherever the text before it has left the scanner, and a place where no
segment begins sends the scanner back to the start. The characters of a segment are one unit each, so the
place counts either. -/

/-- Where a scanner goes on. -/
structure Scanner where
  place : Nat

namespace Scanner

/-- The segment at the place of the scanner, if one begins there, and the scanner behind it. -/
def next (sc : Scanner) (cs : List Char) : Option Match × Scanner :=
  match segment? (cs.drop sc.place) with
  | some (m, r) => (some m, ⟨cs.length - r.length⟩)
  | none => (none, ⟨0⟩)

theorem next_advances {sc sc' : Scanner} {cs : List Char} {m : Match} (h : sc.next cs = (some m, sc')) :
    cs.length - sc'.place < cs.length - sc.place := by
  unfold next at h
  split at h
  · rename_i m r hsegment
    have hshorter := segment?_length hsegment
    rw [List.length_drop] at hshorter
    cases h
    dsimp only
    omega
  · cases h

/-- Adds up the segments from the place of the scanner to the end of a text. -/
def sum (sc : Scanner) (cs : List Char) (total : Int) : Except Fault Int × Scanner :=
  if sc.place < cs.length then
    match _h : sc.next cs with
    | (some m, sc') =>
      match m.nanos with
      | .ok n => sc'.sum cs (total + n)
      | .error x => (.error (.exception x), sc')
    | (none, sc') => (.error .malformed, sc')
  else (.ok total, sc)
termination_by cs.length - sc.place
decreasing_by exact next_advances _h

/-- Reads a text. An empty text, with or without a minus, is refused before the scanner is used. -/
def parse (sc : Scanner) (cs : List Char) : Except Fault Int × Scanner :=
  let body := if cs.head? = some '-' then cs.tail else cs
  if body = [] then (.error .malformed, sc)
  else
    let (total, sc') := sum ⟨0⟩ body 0
    (total.map fun n => if cs.head? = some '-' then -n else n, sc')

/-- What is read from texts, one after the other. -/
def answers (sc : Scanner) : List (List Char) → List (Option Int)
  | [] => []
  | cs :: texts => (sc.parse cs).1.toOption :: (sc.parse cs).2.answers texts

end Scanner

end CelSuite.Duration
