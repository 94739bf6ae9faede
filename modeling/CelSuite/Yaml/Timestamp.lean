import CelSuite.Text.Characters

/-! # Timestamps

Dates, with or without a time of day and an offset, and the text of the moment they name in universal
time. Days and months beyond their range carry over. -/

namespace CelSuite.Yaml.Timestamp

/-- Days since the first of January 1970 of a day in the proleptic Gregorian calendar. -/
def dayNumber (year month day : Int) : Int :=
  let y := year + (month - 1).fdiv 12
  let m := (month - 1).fmod 12
  -- March is the first month here, so that the leap day ends the year.
  let y' := if m < 2 then y - 1 else y
  let m' := (m + 10) % 12
  365 * y' + y'.fdiv 4 - y'.fdiv 100 + y'.fdiv 400 + (153 * m' + 2) / 5 + day - 1 - 719468

/-- The year, month and day of a day number. -/
def civil (n : Int) : Int × Int × Int :=
  let z := n + 719468
  let era := z.fdiv 146097
  let doe := z - era * 146097
  let yoe := (doe - doe / 1460 + doe / 36524 - doe / 146096) / 365
  let doy := doe - (365 * yoe + yoe / 4 - yoe / 100)
  let mp := (5 * doy + 2) / 153
  let d := doy - (153 * mp + 2) / 5 + 1
  let m := if mp < 10 then mp + 3 else mp - 9
  (yoe + era * 400 + (if m ≤ 2 then 1 else 0), m, d)

def weekdays : List String := ["Thu", "Fri", "Sat", "Sun", "Mon", "Tue", "Wed"]

def months : List String :=
  ["Jan", "Feb", "Mar", "Apr", "May", "Jun", "Jul", "Aug", "Sep", "Oct", "Nov", "Dec"]

/-- A number with zeros in front up to a width. -/
def padded (width n : Nat) : String :=
  let s := n.repr
  String.ofList (List.replicate (width - s.length) '0') ++ s

/-- The text of a moment, in seconds since the first of January 1970. -/
def write (seconds : Int) : String :=
  let days := seconds.fdiv 86400
  let t := (seconds.fmod 86400).toNat
  let (y, m, d) := civil days
  (weekdays[(days.fmod 7).toNat]?.getD "") ++ " " ++ (months[(m - 1).toNat]?.getD "") ++ " " ++
    padded 2 d.toNat ++ " " ++ padded 4 y.toNat ++ " " ++ padded 2 (t / 3600) ++ ":" ++
    padded 2 (t / 60 % 60) ++ ":" ++ padded 2 (t % 60) ++ " GMT+0000 (Coordinated Universal Time)"

/-- A number of at least `least` and at most `most` digits. -/
def digits? (least most : Nat) (cs : List Char) : Option (Int × List Char) :=
  let ds := (cs.take most).takeWhile Text.isDigit
  if least ≤ ds.length then some (Text.ofDigits ds, cs.drop ds.length) else none

/-- A given character. -/
def literal? (c : Char) : List Char → Option (List Char)
  | d :: cs => if d = c then some cs else none
  | [] => none

def isBlank (c : Char) : Bool := c == ' ' || c == '\t'

/-- The offset after a time, in seconds: none, `Z`, or a sign, hours and perhaps minutes. -/
def offset? (cs : List Char) : Option Int :=
  match cs.dropWhile isBlank with
  | [] => if cs = [] then some 0 else none
  | ['Z'] => some 0
  | sign :: cs => do
    if sign ≠ '+' ∧ sign ≠ '-' then none
    else
      let (h, cs) ← digits? 1 2 cs
      let m ← match cs with
        | [] => some 0
        | ':' :: cs => do
          let (m, cs) ← digits? 2 2 cs
          if cs = [] then some m else none
        | _ => none
      some ((h * 60 + m) * 60 * (if sign = '-' then -1 else 1))

/-- The separator of a date and a time: a letter, or blanks. -/
def separator? : List Char → Option (List Char)
  | 'T' :: cs | 't' :: cs => some cs
  | c :: cs => if isBlank c then some (cs.dropWhile isBlank) else none
  | [] => none

/-- The seconds of a time of day, less its offset. -/
def time? (cs : List Char) : Option Int := do
  let (h, cs) ← digits? 1 2 cs
  let (m, cs) ← digits? 2 2 (← literal? ':' cs)
  let (s, cs) ← digits? 2 2 (← literal? ':' cs)
  let cs := match cs with
    | '.' :: cs => cs.dropWhile Text.isDigit
    | cs => cs
  return (h * 60 + m) * 60 + s - (← offset? cs)

/-- Two-digit years are in the twentieth century. -/
def fullYear (y : Int) : Int := if y < 100 then 1900 + y else y

/-- The moment that a text names. -/
def read? (text : String) : Option Int := do
  let cs := text.toList
  let (y, cs) ← digits? 4 4 cs
  let (m, afterMonth) ← digits? 1 2 (← literal? '-' cs)
  let (d, cs') ← digits? 1 2 (← literal? '-' afterMonth)
  let day := dayNumber (fullYear y) m d * 86400
  if cs' = [] then (if text.length = 10 then some day else none)
  else return day + (← time? (← separator? cs'))

end CelSuite.Yaml.Timestamp
