/-! # Sixteen-bit units of text

Lengths, positions and the order of text are counted in units of sixteen bits. A character below
U+10000 is one unit; any other is a pair, a high half and a low half. Text itself stays a `String`,
but for the literals of expressions, whose escapes may write a half without the other. -/

namespace CelSuite.Text

/-- How many units a character takes. -/
def unitWidth (c : Char) : Nat :=
  if c.toNat < 0x10000 then 1 else 2

/-- The units of a code point, the high half first. The code point may be a half itself. -/
def unitsOfCodePoint (n : Nat) : List Nat :=
  if n < 0x10000 then [n] else [0xD800 + (n - 0x10000) / 0x400, 0xDC00 + (n - 0x10000) % 0x400]

/-- The units of a character. -/
def unitsOfChar (c : Char) : List Nat :=
  unitsOfCodePoint c.toNat

/-- The units of a sequence of characters. -/
def units (cs : List Char) : List Nat :=
  cs.flatMap unitsOfChar

/-- The characters of units: a high half and a low half after it are one character, and a half alone becomes
    the replacement character. -/
def joinPairs : List Nat → List Char
  | hi :: lo :: r =>
    if 0xD800 ≤ hi ∧ hi < 0xDC00 ∧ 0xDC00 ≤ lo ∧ lo < 0xE000 then
      Char.ofNat (0x10000 + (hi - 0xD800) * 0x400 + (lo - 0xDC00)) :: joinPairs r
    else charOfUnit hi :: joinPairs (lo :: r)
  | [n] => [charOfUnit n]
  | [] => []
where
  charOfUnit (n : Nat) : Char :=
    if 0xD800 ≤ n ∧ n < 0xE000 then '\uFFFD' else Char.ofNat n

/-- The text of units. -/
def ofUnits (us : List Nat) : String :=
  String.ofList (joinPairs us)

/-- The length of a sequence of characters in units. -/
def unitLength : List Char → Nat
  | [] => 0
  | c :: cs => unitWidth c + unitLength cs

/-- `a` comes before `b` when the first unit in which they differ is smaller in `a`, or when `a` ends
    first. -/
def unitsBefore : List Nat → List Nat → Bool
  | [], [] => false
  | [], _ :: _ => true
  | _ :: _, [] => false
  | a :: as, b :: bs => if a < b then true else if b < a then false else unitsBefore as bs

/-- The order of text by units. -/
def before (a b : String) : Bool :=
  unitsBefore (units a.toList) (units b.toList)

/-- Sorts text by units; equal texts keep their order. -/
def sorted (xs : List String) : List String :=
  xs.mergeSort fun a b => !before b a

theorem unitsOfChar_length (c : Char) : (unitsOfChar c).length = unitWidth c := by
  unfold unitsOfChar unitsOfCodePoint unitWidth
  split <;> rfl

theorem units_length (cs : List Char) : (units cs).length = unitLength cs := by
  induction cs with
  | nil => rfl
  | cons c cs ih =>
    simp only [units, List.flatMap_cons, List.length_append, unitsOfChar_length, unitLength] at ih ⊢
    rw [ih]

end CelSuite.Text
