import Rehoming.Text.Decimal

/-! Numbers, dates and times in TOML. All that is known of a number with a fraction
or an exponent, and of a date or a time, is that it is one. -/

namespace Rehoming.Toml.Scalar

open Text.Decimal (isDigit)

/-- The characters that such a value is made of. -/
def isScalarChar (c : Char) : Bool :=
  isDigit c || ('a' ≤ c && c ≤ 'z') || ('A' ≤ c && c ≤ 'Z') ||
    c == '+' || c == '-' || c == '_' || c == '.' || c == ':'

/-- The digits at the front, without the underscores that stand between two of
them, and what follows. -/
def digits (isDigit : Char → Bool) : List Char → List Char × List Char
  | '_' :: c :: rest =>
    if isDigit c then
      let (ds, rest) := digits isDigit rest
      (c :: ds, rest)
    else ([], '_' :: c :: rest)
  | c :: rest =>
    if isDigit c then
      let (ds, rest) := digits isDigit rest
      (c :: ds, rest)
    else ([], c :: rest)
  | [] => ([], [])

/-- Digits of which the first has none before it. -/
private def number? (isDigit : Char → Bool) (cs : List Char) : Option (List Char × List Char) :=
  match cs with
  | c :: _ => if isDigit c then some (digits isDigit cs) else none
  | [] => none

/-- Whole digits without superfluous zeros in front. -/
private def whole? (cs : List Char) : Option (List Char × List Char) :=
  match cs with
  | '0' :: rest => some (['0'], rest)
  | cs => number? isDigit cs

private def unsigned : List Char → Bool × List Char
  | '-' :: rest => (true, rest)
  | '+' :: rest => (false, rest)
  | rest => (false, rest)

/-! ## Integers -/

private def digitValue (c : Char) : Nat :=
  if isDigit c then c.toNat - 48 else if 'a' ≤ c then c.toNat - 87 else c.toNat - 55

private def isHexDigit (c : Char) : Bool :=
  isDigit c || ('a' ≤ c && c ≤ 'f') || ('A' ≤ c && c ≤ 'F')

/-- The number that digits of some base write, if nothing follows them. -/
private def based? (base : Nat) (isDigit : Char → Bool) (cs : List Char) : Option Int :=
  match number? isDigit cs with
  | some (ds, []) => some (ds.foldl (fun n c => base * n + digitValue c) 0 : Nat)
  | _ => none

private def decimal? (cs : List Char) : Option Int :=
  let (negative, cs) := unsigned cs
  match whole? cs with
  | some (ds, []) =>
    let n : Int := Text.Decimal.toNat ds
    some (if negative then -n else n)
  | _ => none

/-- An integer of 64 bits, in base 10, 16, 8 or 2; only in base 10 with a sign. -/
def int? (cs : List Char) : Option Int :=
  let value :=
    match cs with
    | '0' :: 'x' :: rest => based? 16 isHexDigit rest
    | '0' :: 'o' :: rest => based? 8 (fun c => '0' ≤ c && c ≤ '7') rest
    | '0' :: 'b' :: rest => based? 2 (fun c => c == '0' || c == '1') rest
    | cs => decimal? cs
  value.bind fun i => if Int64.minValue.toInt ≤ i ∧ i ≤ Int64.maxValue.toInt then some i else none

/-! ## Numbers with a fraction or an exponent -/

/-- The least number that is too large for a float of 64 bits, as it is rounded to
the nearest one. -/
def overflow : Nat := (1 <<< 1024) - (1 <<< 970)

/-- Whether so many digits with a power of ten behind them are too much. -/
def overflows (ds : List Char) (exponent : Int) : Bool :=
  let ds := ds.dropWhile (· == '0')
  let n := Text.Decimal.toNat ds
  let size := ds.length + exponent
  if ds.isEmpty ∨ size < 309 then false
  else if 310 < size then true
  else if 0 ≤ exponent then decide (overflow ≤ n * Nat.pow 10 exponent.toNat)
  else decide (overflow * Nat.pow 10 exponent.natAbs ≤ n)

/-- The exponent, if there is one and nothing follows it. -/
private def exponent? : List Char → Option Int
  | c :: rest =>
    if c = 'e' ∨ c = 'E' then
      let (negative, rest) := unsigned rest
      match number? isDigit rest with
      | some (ds, []) =>
        let n : Int := Text.Decimal.toNat ds
        some (if negative then -n else n)
      | _ => none
    else none
  | [] => none

/-- A number with a fraction or an exponent, which must not be too large. Infinity
and what is no number are written as words. -/
def isFloat (cs : List Char) : Bool :=
  let (negative, cs) := unsigned cs
  if cs = ['i', 'n', 'f'] ∨ cs = ['n', 'a', 'n'] then true
  else
    match whole? cs with
    | none => false
    | some (front, '.' :: rest) =>
      match number? isDigit rest with
      | none => false
      | some (fraction, rest) =>
        match (if rest.isEmpty then some 0 else exponent? rest) with
        | some e => negative || !overflows (front ++ fraction) (e - fraction.length)
        | none => false
    | some (front, rest) =>
      match exponent? rest with
      | some e => negative || !overflows front e
      | none => false

/-! ## Dates and times -/

/-- The number that exactly so many digits write. -/
private def fixed? (count : Nat) (cs : List Char) : Option (Nat × List Char) :=
  let ds := (cs.take count).takeWhile isDigit
  if ds.length = count then some (Text.Decimal.toNat ds, cs.drop count) else none

private def mark? (c : Char) : List Char → Option (List Char)
  | d :: rest => if c = d then some rest else none
  | [] => none

private def daysInMonth (year month : Nat) : Nat :=
  if month = 2 then
    if year % 4 = 0 ∧ (year % 100 ≠ 0 ∨ year % 400 = 0) then 29 else 28
  else if month = 4 ∨ month = 6 ∨ month = 9 ∨ month = 11 then 30
  else 31

/-- What follows a date. -/
def afterDate? (cs : List Char) : Option (List Char) := do
  let (year, cs) ← fixed? 4 cs
  let (month, cs) ← fixed? 2 (← mark? '-' cs)
  let (day, cs) ← fixed? 2 (← mark? '-' cs)
  guard (1 ≤ month ∧ month ≤ 12 ∧ 1 ≤ day ∧ day ≤ daysInMonth year month)
  some cs

/-- What follows a time of day. -/
def afterTime? (cs : List Char) : Option (List Char) := do
  let (hour, cs) ← fixed? 2 cs
  let (minute, cs) ← fixed? 2 (← mark? ':' cs)
  let (second, cs) ← fixed? 2 (← mark? ':' cs)
  guard (hour ≤ 23 ∧ minute ≤ 59 ∧ second ≤ 60)
  match cs with
  | '.' :: rest =>
    let after := rest.dropWhile isDigit
    guard (after.length < rest.length)
    some after
  | cs => some cs

/-- Whether this is a distance from UTC, or nothing. -/
def isOffset (cs : List Char) : Bool :=
  match cs with
  | [] | ['Z'] | ['z'] => true
  | c :: rest =>
    (c == '+' || c == '-') &&
      match fixed? 2 rest with
      | some (hours, ':' :: rest) =>
        match fixed? 2 rest with
        | some (minutes, []) => hours ≤ 23 && minutes ≤ 59
        | _ => false
      | _ => false

/-- Whether this is a time of day that follows a date. -/
def isTimeOfDate (cs : List Char) : Bool := (afterTime? cs).any isOffset

/-- A date, a time of day, or both. -/
def isDateTime (cs : List Char) : Bool :=
  match afterDate? cs with
  | some [] => true
  | some (c :: rest) => (c == 'T' || c == 't') && isTimeOfDate rest
  | none => afterTime? cs == some []

end Rehoming.Toml.Scalar
