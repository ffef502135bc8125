import Rehoming.Bytes

/-! Bit streams as lists. A forward stream takes each byte from its lowest bit
on. A backward stream starts at the end of its bytes: after the topmost one bit
of the last byte, which only marks the end, it goes down bit by bit. -/

namespace Rehoming.Zstd.Bits

def forward (bs : Bytes) : List Bool :=
  bs.flatMap fun b => (List.range 8).map fun i => b.toNat.testBit i

/-- The backward stream; none where the last byte is missing or zero. -/
def backward? (bs : Bytes) : Option (List Bool) :=
  match bs.getLast? with
  | none => none
  | some 0 => none
  | some _ => some ((forward bs).reverse.dropWhile (!·)).tail

/-- The backward stream of bytes that need not end in a mark: without one every bit counts. -/
def backward (bs : Bytes) : List Bool := (backward? bs).getD (forward bs).reverse

/-- A number of `n` bits with its lowest bit first, and the bits after it. -/
def takeLow? (n : Nat) (bits : List Bool) : Option (Nat × List Bool) :=
  let front := bits.take n
  if front.length < n then none
  else some (front.foldr (fun b v => 2 * v + b.toNat) 0, bits.drop n)

/-- A number of `n` bits with its highest bit first, and the bits after it. -/
def takeHigh? (n : Nat) (bits : List Bool) : Option (Nat × List Bool) := go n 0 bits
where
  go : (n v : Nat) → List Bool → Option (Nat × List Bool)
    | 0, v, bits => some (v, bits)
    | _ + 1, _, [] => none
    | n + 1, v, b :: bits => go n (2 * v + b.toNat) bits

end Rehoming.Zstd.Bits
