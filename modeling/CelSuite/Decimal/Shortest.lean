import CelSuite.Decimal.Double

/-! # The shortest decimal that reads back

A finite double stands for every real that rounds to it. Among the decimals in that interval the
shortest have the fewest digits; of those, `shortest` gives the one nearest to the double. A decimal of
`k` digits near a number lies on a grid, and if any point of the grid is in the interval then one of the
two neighbours of the number is, so only these two are tried. -/

namespace CelSuite.Decimal

/-- How many decimal digits a natural number has; zero has none. -/
def digitCount (n : Nat) : Nat :=
  if n = 0 then 0 else n.repr.length

/-- The reals that round to a double, over one denominator: the number itself, the ends, and whether
    the ends belong to the interval. -/
structure Interval where
  value : Nat
  low : Nat
  high : Nat
  den : Nat
  closed : Bool

/-- The interval of a finite double other than zero. The gap below a power of two is half the gap
    above it. -/
def Interval.of (x : Double) : Interval :=
  let m := x.significand
  let e := x.exponent - 2
  let below := if m = Double.hiddenBit && -1074 < x.exponent then 1 else 2
  let up := 1 <<< e.toNat
  { value := 4 * m * up
    low := (4 * m - below) * up
    high := (4 * m + 2) * up
    den := 1 <<< (-e).toNat
    closed := m % 2 == 0 }

/-- The power of ten above the number: `10 ^ (n - 1) ≤ value / den < 10 ^ n`. -/
def Interval.magnitude (i : Interval) : Int :=
  if i.den ≤ i.value then digitCount (i.value / i.den)
  else 1 - (digitCount ((i.den + i.value - 1) / i.value - 1) : Int)

/-- The same interval in units of `10 ^ p`. -/
def Interval.scaled (i : Interval) (p : Int) : Interval :=
  let up := Nat.pow 10 (-p).toNat
  { i with value := i.value * up, low := i.low * up, high := i.high * up, den := i.den * Nat.pow 10 p.toNat }

/-- Whether an integer lies in the interval. -/
def Interval.holds (i : Interval) (c : Nat) : Bool :=
  let x := c * i.den
  if i.closed then i.low ≤ x && x ≤ i.high else i.low < x && x < i.high

/-- The neighbour of the number among the integers that lies in the interval; of two the nearer, and
    the even one when they are equally near. -/
def Interval.neighbour? (i : Interval) : Option Nat :=
  let c := i.value / i.den
  match i.holds c, i.holds (c + 1) with
  | false, false => none
  | true, false => some c
  | false, true => some (c + 1)
  | true, true =>
    let r := 2 * (i.value % i.den)
    some (if r < i.den then c else if i.den < r then c + 1 else c + c % 2)

/-- The first grid from `k` digits up with a point in the interval: that point and the grid's power of
    ten. Seventeen digits always have one. -/
def Interval.search (i : Interval) (n : Int) : (tries k : Nat) → Nat × Int
  | 0, _ => (0, 0)
  | tries + 1, k =>
    let p := n - k
    match (i.scaled p).neighbour? with
    | some c => (c, p)
    | none => i.search n tries (k + 1)

/-- The digits of the shortest decimal and the place of its point: the number is `0.digits · 10 ^ point`.
    The digits neither begin nor end with a zero. The double is finite and not zero. -/
def shortest (x : Double) : List Char × Int :=
  let i := Interval.of x
  let (c, p) := i.search i.magnitude 17 1
  let digits := c.repr.toList
  ((digits.reverse.dropWhile (· == '0')).reverse, p + digits.length)

/-- How a format writes the number `0.digits · 10 ^ point`: with a plain point while the place of the
    point is above `least` and at most `most`, otherwise with an exponent. -/
structure Layout where
  least : Int
  most : Int

/-- Writes digits with the point at a given place. -/
def Layout.write (l : Layout) (digits : List Char) (point : Int) : List Char :=
  let k := digits.length
  if (k : Int) ≤ point ∧ point ≤ l.most then digits ++ List.replicate (point - k).toNat '0'
  else if 0 < point ∧ point ≤ l.most then digits.take point.toNat ++ '.' :: digits.drop point.toNat
  else if l.least < point ∧ point ≤ 0 then
    '0' :: '.' :: (List.replicate (-point).toNat '0' ++ digits)
  else
    let e := point - 1
    let mark := 'e' :: (if e < 0 then '-' else '+') :: e.natAbs.repr.toList
    match digits with
    | [] => mark
    | [d] => d :: mark
    | d :: ds => d :: '.' :: (ds ++ mark)

end CelSuite.Decimal
