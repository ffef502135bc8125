/-! Decimal digits of natural numbers. -/

namespace Rehoming.Text.Decimal

def isDigit (c : Char) : Bool := '0' ≤ c && c ≤ '9'

def digit (n : Nat) : Char := Char.ofNat (48 + n % 10)

def value (c : Char) : Nat := c.toNat - 48

/-- The digits of `n`, put in front of `rest`. -/
def push (n : Nat) (rest : List Char) : List Char :=
  if n < 10 then digit n :: rest else push (n / 10) (digit n :: rest)
termination_by n

/-- The shortest decimal digits of `n`. -/
def ofNat (n : Nat) : List Char := push n []

/-- The number that the digits write. -/
def toNat (cs : List Char) : Nat := cs.foldl (fun n c => 10 * n + value c) 0

/-- `n` with zeros in front up to `width` digits. -/
def padded (width n : Nat) : List Char :=
  let ds := ofNat n
  List.replicate (width - ds.length) '0' ++ ds

def ofInt (i : Int) : List Char :=
  if i < 0 then '-' :: ofNat i.natAbs else ofNat i.natAbs

end Rehoming.Text.Decimal
