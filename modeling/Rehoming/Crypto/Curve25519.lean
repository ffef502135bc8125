import Rehoming.Bytes

/-! Key agreement on Curve25519: points are given by one coordinate, and a scalar
multiplies a point by climbing a ladder of doublings. -/

namespace Rehoming.Crypto.Curve25519

/-- The prime 2^255 - 19. -/
def prime : Nat := (1 <<< 255) - 19

private def add (a b : Nat) : Nat := (a + b) % prime
private def sub (a b : Nat) : Nat := (a + prime - b) % prime
private def mul (a b : Nat) : Nat := a * b % prime

/-- `a` to the power of `e`, by the bits of `e` from the top. -/
def power (a e : Nat) : Nat :=
  (List.range (e.log2 + 1)).foldr
    (fun i acc =>
      let acc := mul acc acc
      if e.testBit i then mul acc a else acc) 1

/-- Two neighbouring multiples of a point, as fractions. -/
structure Rung where
  x2 : Nat
  z2 : Nat
  x3 : Nat
  z3 : Nat

/-- Doubles the first multiple and adds the two; `x` is the point itself. -/
def Rung.climb (x : Nat) (r : Rung) : Rung :=
  let a := add r.x2 r.z2
  let b := sub r.x2 r.z2
  let aa := mul a a
  let bb := mul b b
  let e := sub aa bb
  let da := mul (sub r.x3 r.z3) a
  let cb := mul (add r.x3 r.z3) b
  let sum := add da cb
  let diff := sub da cb
  ⟨mul aa bb, mul e (add aa (mul 121665 e)), mul sum sum, mul x (mul diff diff)⟩

def Rung.swap (r : Rung) : Rung := ⟨r.x3, r.z3, r.x2, r.z2⟩

/-- The bits that a secret scalar has: a multiple of eight, with bit 254 on top. -/
def clamp (scalar : Nat) : Nat := scalar % (1 <<< 254) / 8 * 8 + (1 <<< 254)

/-- The multiple of the point by a clamped scalar; zero where there is none. -/
def multiply (scalar point : Nat) : Nat :=
  let x := point % prime
  let top := (List.range 255).foldr
    (fun i (r : Rung) =>
      if scalar.testBit i then ((r.swap).climb x).swap else r.climb x)
    ⟨1, 0, x, 1⟩
  mul top.x2 (power top.z2 (prime - 2))

/-- The shared value of a secret of 32 bytes and a public value of 32 bytes, of
which the topmost bit does not count. -/
def agree (secret publicValue : Bytes) : Bytes :=
  Bytes.ofNatLE 32
    (multiply (clamp (Bytes.toNatLE secret)) (Bytes.toNatLE publicValue % (1 <<< 255)))

/-- The public value of a secret of 32 bytes. -/
def publicOf (secret : Bytes) : Bytes := agree secret (Bytes.ofNatLE 32 9)

end Rehoming.Crypto.Curve25519
