/-! Binary floating-point numbers of 64 bits, as exact values. A number is a
mantissa below 2^53 times a power of two not below 2^-1074; the mantissa is at
least 2^52 wherever the power allows it. -/

namespace Rehoming.Json

structure Binary64 where
  negative : Bool
  mantissa : Nat
  exponent : Int
  deriving DecidableEq, Inhabited

namespace Binary64

def zero : Binary64 := ⟨false, 0, -1074⟩

def isZero (x : Binary64) : Bool := x.mantissa == 0

def withSign (negative : Bool) (x : Binary64) : Binary64 := { x with negative := negative }

/-- `n / d` times the power of two, as a quotient of naturals. -/
def scale (n d : Nat) (power : Int) : Nat × Nat :=
  if 0 ≤ power then (n <<< power.toNat, d) else (n, d <<< (-power).toNat)

/-- The nearest number to `n / d`, of two equally near the one with the even
mantissa; none from half a step above the largest number on. -/
def ofRatio? (n d : Nat) : Option Binary64 :=
  if n = 0 then some zero
  else
    let guess : Int := (n.log2 : Int) - (d.log2 : Int) - 53
    let rough := scale n d (-guess)
    let fine : Int := if 1 <<< 53 ≤ rough.1 / rough.2 then guess + 1 else guess
    let exponent := if fine < -1074 then -1074 else fine
    let (n, d) := scale n d (-exponent)
    let q := n / d
    let r := n % d
    let m := if d < 2 * r ∨ (2 * r = d ∧ q % 2 = 1) then q + 1 else q
    let (m, exponent) := if m = 1 <<< 53 then (1 <<< 52, exponent + 1) else (m, exponent)
    if 971 < exponent then none else some ⟨false, m, exponent⟩

/-- The magnitude as a quotient. -/
def ratio (x : Binary64) : Nat × Nat := scale x.mantissa 1 x.exponent

/-- Magnitudes multiplied, and rounded. -/
def mul? (x y : Binary64) : Option Binary64 :=
  let (a, b) := x.ratio
  let (c, d) := y.ratio
  ofRatio? (a * c) (b * d)

/-- Magnitudes divided, and rounded. -/
def div? (x y : Binary64) : Option Binary64 :=
  let (a, b) := x.ratio
  let (c, d) := y.ratio
  ofRatio? (a * d) (b * c)

def ofNat? (n : Nat) : Option Binary64 := ofRatio? n 1

/-- The decimal exponent of a positive quotient: how far its first digit is to
the left of the point's left neighbour. -/
def decimalExponent (n d : Nat) : Int :=
  let guess : Int := ((n.log2 : Int) - (d.log2 : Int)) * 30103 / 100000
  let atLeast (k : Int) : Bool :=
    if 0 ≤ k then decide (d * Nat.pow 10 k.toNat ≤ n) else decide (d ≤ n * Nat.pow 10 (-k).toNat)
  if atLeast (guess + 1) then guess + 1
  else if atLeast guess then guess
  else guess - 1

/-- `n / d` times the power of ten, as a quotient of naturals. -/
def scaleTen (n d : Nat) (power : Int) : Nat × Nat :=
  if 0 ≤ power then (n * Nat.pow 10 power.toNat, d) else (n, d * Nat.pow 10 (-power).toNat)

/-- The decimal with these digits and this place of the last one, if it reads back. -/
def readsBack (x : Binary64) (digits : Nat) (place : Int) : Bool :=
  let (n, d) := scaleTen digits 1 place
  ofRatio? n d == some { x with negative := false }

/-- The decimals on either side of `n / d` at this place, the nearer one first;
of two equally near ones the even one. -/
def neighbours (n d : Nat) (place : Int) : List Nat :=
  let (n, d) := scaleTen n d (-place)
  let q := n / d
  let r := n % d
  if 2 * r < d ∨ (2 * r = d ∧ q % 2 = 0) then [q, q + 1] else [q + 1, q]

/-- The fewest digits that read back as the number, and the place of the last
one; of several the nearest to the number. The first place tried is the one
before the number's first digit, where a power of ten just above may stand. -/
def shortest (x : Binary64) : Nat × Int :=
  let (n, d) := x.ratio
  let top := decimalExponent n d
  let found := (List.range 18).findSome? fun (k : Nat) =>
    let place := top + 1 - (k : Int)
    ((neighbours n d place).find? fun digits => readsBack x digits place).map fun digits =>
      (digits, place)
  found.getD (0, 0)

end Binary64
end Rehoming.Json
