/-! # Sets of code points

The properties of characters are sets of code points, kept as ranges in ascending order. A text writes
such a set compactly: a word for each range, with the distance from the end of the last range in
hexadecimal digits and, after a plus, by how much the last code point of the range exceeds the first. -/

namespace CelSuite.Unicode

/-- Ranges of code points, both ends included. -/
abbrev Ranges := List (Nat × Nat)

def Ranges.contains (rs : Ranges) (n : Nat) : Bool :=
  rs.any fun r => r.1 ≤ n && n ≤ r.2

/-- The number that lower-case hexadecimal digits write. -/
def hexNumber (cs : List Char) : Nat :=
  cs.foldl (fun n c => 16 * n + if c.isDigit then c.toNat - 48 else c.toNat - 87) 0

/-- The ranges that words write, the first counted from `start`. -/
def Ranges.ofWords (start : Nat) : List String → Ranges
  | [] => []
  | w :: ws =>
    let cs := w.toList
    let low := start + hexNumber (cs.takeWhile (· ≠ '+'))
    let high := low + hexNumber ((cs.dropWhile (· ≠ '+')).drop 1)
    (low, high) :: ofWords (high + 1) ws

/-- The ranges that a text writes. -/
def Ranges.ofText (s : String) : Ranges :=
  ofWords 0 (s.splitOn " ")

/-- Code points from `low` to `high` in equal steps, each of which maps to the one at a fixed
    distance. -/
structure Shift where
  low : Nat
  high : Nat
  step : Nat
  distance : Int

def Shift.covers (s : Shift) (n : Nat) : Bool :=
  s.low ≤ n && n ≤ s.high && (n - s.low) % s.step == 0

/-- The image of a code point under the first shift that covers it. -/
def shifted (shifts : List Shift) (n : Nat) : Nat :=
  match shifts.find? (·.covers n) with
  | some s => (n + s.distance).toNat
  | none => n

end CelSuite.Unicode
