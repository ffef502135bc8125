import Rehoming.Json.Binary64
import Rehoming.Text.Decimal

/-! What a numeral means. An integer of 64 bits, signed or not, is kept as such;
any other numeral becomes a binary floating-point number, by way of at most as
many digits as fit 64 bits. -/

namespace Rehoming.Json

inductive Number where
  | int (value : Int)
  | real (value : Binary64)
  deriving DecidableEq

namespace Numeral

/-- The characters of a numeral, taken apart. -/
structure Parts where
  negative : Bool
  integer : List Char
  fraction : List Char
  hasFraction : Bool
  negativeExponent : Bool
  exponent : Option (List Char)

/-- Whether there is a sign, and what follows it. -/
def takeSign : List Char → Bool × List Char
  | '-' :: rest => (true, rest)
  | cs => (false, cs)

/-- Whether there is a point, the digits behind it, and what follows them. -/
def takeFraction : List Char → Bool × List Char × List Char
  | '.' :: rest =>
    (true, rest.takeWhile Text.Decimal.isDigit, rest.dropWhile Text.Decimal.isDigit)
  | cs => (false, [], cs)

/-- Whether the exponent is negative, and its digits if there is one. -/
def takeExponent : List Char → Bool × Option (List Char)
  | _ :: '-' :: rest => (true, some rest)
  | _ :: '+' :: rest => (false, some rest)
  | _ :: rest => (false, some rest)
  | [] => (false, none)

def parts (cs : List Char) : Parts :=
  let (negative, cs) := takeSign cs
  let integer := cs.takeWhile Text.Decimal.isDigit
  let (hasFraction, fraction, cs) := takeFraction (cs.dropWhile Text.Decimal.isDigit)
  let (negativeExponent, exponent) := takeExponent cs
  ⟨negative, integer, fraction, hasFraction, negativeExponent, exponent⟩

def Parts.isInteger (p : Parts) : Bool := !p.hasFraction && p.exponent.isNone

/-- The number that the digits of a numeral without fraction and exponent write. -/
def Parts.magnitude (p : Parts) : Nat := Text.Decimal.toNat p.integer

/-- As many of the digits as fit 64 bits after `start`, and the digits left over. -/
def fitting : (start : Nat) → List Char → Nat × List Char
  | start, [] => (start, [])
  | start, c :: rest =>
    let next := 10 * start + Text.Decimal.value c
    if next < UInt64.size then fitting next rest else (start, c :: rest)

/-- The digits that count and the power of ten they are multiplied with, the
exponent left aside. Digits left over before the point raise the power. -/
def Parts.significand (p : Parts) : Nat × Int :=
  let (front, excess) := fitting 0 p.integer
  let (all, rest) := fitting front p.fraction
  (all, excess.length - (p.fraction.length - rest.length : Nat))

/-- The number times the power of ten, rounded after each step; far below one it
goes down in steps of 10^308. -/
def scaled? : (fuel : Nat) → Binary64 → Int → Option Binary64
  | 0, _, _ => some .zero
  | fuel + 1, x, power =>
    if power.natAbs ≤ 308 then do
      let ten ← Binary64.ofNat? (Nat.pow 10 power.natAbs)
      if 0 ≤ power then x.mul? ten else x.div? ten
    else if x.isZero then some x
    else if 0 < power then none
    else do
      let ten ← Binary64.ofNat? (Nat.pow 10 308)
      let x ← x.div? ten
      scaled? fuel x (power + 308)

/-- The floating-point value; none where it is out of range. An exponent of 2^31
or more is out of range in itself, or makes the value zero. -/
def Parts.real? (p : Parts) : Option Binary64 := do
  let (digits, power) := p.significand
  let exponent := Text.Decimal.toNat (p.exponent.getD [])
  if Int32.maxValue.toInt < exponent then
    if digits ≠ 0 ∧ !p.negativeExponent then none else some (Binary64.zero.withSign p.negative)
  else
    let power := if p.negativeExponent then power - exponent else power + exponent
    let x ← Binary64.ofNat? digits
    let x ← scaled? 4 x power
    some (x.withSign p.negative)

/-- The number a numeral stands for. Minus zero is no integer. -/
def number? (cs : List Char) : Option Number :=
  let p := parts cs
  let n := p.magnitude
  if p.isInteger && !p.negative && n < UInt64.size then some (.int n)
  else if p.isInteger && p.negative && 0 < n && n ≤ 1 <<< 63 then some (.int (-n))
  else p.real?.map .real

/-- The integer a numeral writes out, without fraction or exponent. -/
def int? (cs : List Char) : Option Int :=
  match number? cs with
  | some (.int i) => some i
  | _ => none

end Numeral
end Rehoming.Json
