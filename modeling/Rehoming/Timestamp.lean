import Rehoming.Text.Blank
import Rehoming.Text.Decimal

/-! Points in time, to the nanosecond. A text gives date, time and distance from
UTC with some freedom in the blanks; what is written is UTC in one form. -/

namespace Rehoming

/-- Whole seconds from the start of 1970 on, and nanoseconds. Within a leap second,
the seconds stand still and the nanoseconds go beyond a thousand millions. -/
structure Timestamp where
  seconds : Int
  nanos : Nat
  deriving DecidableEq

namespace Timestamp

def epoch : Timestamp := ⟨0, 0⟩

instance : Inhabited Timestamp := ⟨epoch⟩

/-- Not after the start of 1970: nobody has set the time. -/
def isUnset (t : Timestamp) : Bool := t.seconds ≤ 0

/-- The number of days from the start of 1970 to a date. Years begin in March here,
so that leap days come last. -/
def daysFromDate (year : Int) (month day : Nat) : Int :=
  let y := if month ≤ 2 then year - 1 else year
  let era := y / 400
  let yearOfEra := y % 400
  let monthFromMarch : Int := if month ≤ 2 then month + 9 else month - 3
  let dayOfYear := (153 * monthFromMarch + 2) / 5 + day - 1
  let dayOfEra := yearOfEra * 365 + yearOfEra / 4 - yearOfEra / 100 + dayOfYear
  era * 146097 + dayOfEra - 719468

/-- The year, month and day that lie so many days from the start of 1970. -/
def dateOfDays (days : Int) : Int × Nat × Nat :=
  let z := days + 719468
  let era := z / 146097
  let dayOfEra := z % 146097
  let yearOfEra := (dayOfEra - dayOfEra / 1460 + dayOfEra / 36524 - dayOfEra / 146096) / 365
  let dayOfYear := dayOfEra - (365 * yearOfEra + yearOfEra / 4 - yearOfEra / 100)
  let m := (5 * dayOfYear + 2) / 153
  let day := dayOfYear - (153 * m + 2) / 5 + 1
  let month := if m < 10 then m + 3 else m - 9
  let year := yearOfEra + era * 400 + (if month ≤ 2 then 1 else 0)
  (year, month.toNat, day.toNat)

def isLeapYear (year : Int) : Bool := year % 4 == 0 && (year % 100 != 0 || year % 400 == 0)

def daysInMonth (year : Int) (month : Nat) : Nat :=
  match month with
  | 2 => if isLeapYear year then 29 else 28
  | 4 | 6 | 9 | 11 => 30
  | _ => 31

/-- The years that a date may have. -/
def minYear : Int := -262143
def maxYear : Int := 262142

/-! ## Reading -/

/-- At least `least` and at most `most` digits. -/
def digits? (least most : Nat) (cs : List Char) : Option (Nat × List Char) :=
  let ds := (cs.take most).takeWhile Text.Decimal.isDigit
  if ds.length < least then none else some (Text.Decimal.toNat ds, cs.drop ds.length)

def char? (c : Char) : List Char → Option (List Char)
  | [] => none
  | d :: rest => if c = d then some rest else none

/-- A year: after a sign as many digits as there are, else at most four. -/
def year? (cs : List Char) : Option (Int × List Char) :=
  match Text.trimStart cs with
  | '-' :: rest => (digits? 1 rest.length rest).map fun r => (-r.1, r.2)
  | '+' :: rest => (digits? 1 rest.length rest).map fun r => (r.1, r.2)
  | cs => (digits? 1 4 cs).map fun r => (r.1, r.2)

/-- Up to two digits after blanks. -/
def part? (cs : List Char) : Option (Nat × List Char) := digits? 1 2 (Text.trimStart cs)

/-- A character with blanks before it. -/
def mark? (c : Char) (cs : List Char) : Option (List Char) := char? c (Text.trimStart cs)

/-- The fraction of a second in nanoseconds; digits after the ninth do not count. -/
def fraction? : List Char → Option (Nat × List Char)
  | '.' :: cs => do
    let (n, rest) ← digits? 1 9 cs
    let used := cs.length - rest.length
    some (n * Nat.pow 10 (9 - used), rest.dropWhile Text.Decimal.isDigit)
  | cs => some (0, cs)

/-- The distance from UTC in seconds. -/
def offset? (cs : List Char) : Option (Int × List Char) :=
  match cs with
  | [] => none
  | c :: rest =>
    if c = 'Z' ∨ c = 'z' then some (0, rest)
    else if ((cs.take 3).map Char.toLower) = ['u', 't', 'c'] then some (0, cs.drop 3)
    else do
      let sign : Int ← if c = '+' then some 1 else if c = '-' ∨ c = '\u2212' then some (-1) else none
      let (hours, rest) ← digits? 2 2 rest
      let rest := rest.dropWhile fun c => c = ':' || Text.isBlank c
      let (minutes, rest) ← digits? 2 2 rest
      if minutes < 60 ∧ hours < 24 then some (sign * (hours * 3600 + minutes * 60), rest) else none

/-- The time of a date, a time of day and a distance from UTC. -/
def ofParts? (year : Int) (month day hour minute second nanos : Nat) (offset : Int) :
    Option Timestamp := do
  guard (minYear ≤ year ∧ year ≤ maxYear ∧ 1 ≤ month ∧ month ≤ 12)
  guard (1 ≤ day ∧ day ≤ daysInMonth year month ∧ hour < 24 ∧ minute < 60 ∧ second ≤ 60)
  let whole := if second = 60 then 59 else second
  let nanos := if second = 60 then nanos + 1000000000 else nanos
  let seconds := daysFromDate year month day * 86400 + hour * 3600 + minute * 60 + whole - offset
  let year := (dateOfDays (seconds / 86400)).1
  guard (minYear ≤ year ∧ year ≤ maxYear)
  some ⟨seconds, nanos⟩

def ofChars? (cs : List Char) : Option Timestamp := do
  let (year, cs) ← year? cs
  let (month, cs) ← part? (← mark? '-' cs)
  let (day, cs) ← part? (← mark? '-' cs)
  let cs ←
    match cs with
    | c :: cs => if c = 'T' ∨ c = 't' ∨ c = ' ' then some cs else none
    | [] => none
  let (hour, cs) ← part? cs
  let (minute, cs) ← part? (← mark? ':' cs)
  let (second, cs) ← part? (← mark? ':' cs)
  let (nanos, cs) ← fraction? cs
  let (offset, cs) ← offset? (Text.trimStart cs)
  if (Text.trimStart cs).isEmpty then ofParts? year month day hour minute second nanos offset
  else none

def ofText? (s : String) : Option Timestamp := ofChars? s.toList

/-! ## Writing -/

/-- Four digits, or a sign and at least four where those do not do. -/
def yearChars (year : Int) : List Char :=
  if 0 ≤ year ∧ year ≤ 9999 then Text.Decimal.padded 4 year.natAbs
  else (if year < 0 then '-' else '+') :: Text.Decimal.padded 4 year.natAbs

/-- As few groups of three digits as there need to be. -/
def fractionChars (nanos : Nat) : List Char :=
  if nanos = 0 then []
  else if nanos % 1000000 = 0 then '.' :: Text.Decimal.padded 3 (nanos / 1000000)
  else if nanos % 1000 = 0 then '.' :: Text.Decimal.padded 6 (nanos / 1000)
  else '.' :: Text.Decimal.padded 9 nanos

def chars (t : Timestamp) : List Char :=
  let (year, month, day) := dateOfDays (t.seconds / 86400)
  let clock := (t.seconds % 86400).toNat
  let leap := if 1000000000 ≤ t.nanos then 1 else 0
  let two := Text.Decimal.padded 2
  yearChars year ++ '-' :: two month ++ '-' :: two day ++ 'T' :: two (clock / 3600)
    ++ ':' :: two (clock / 60 % 60) ++ ':' :: two (clock % 60 + leap)
    ++ fractionChars (t.nanos % 1000000000) ++ ['Z']

def toText (t : Timestamp) : String := String.ofList t.chars

end Timestamp
end Rehoming
