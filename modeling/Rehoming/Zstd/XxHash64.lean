import Rehoming.Bytes

/-! The 64-bit checksum xxHash with seed zero, which a frame may carry of its
content. -/

namespace Rehoming.Zstd.XxHash64

def prime1 : UInt64 := 0x9E3779B185EBCA87
def prime2 : UInt64 := 0xC2B2AE3D27D4EB4F
def prime3 : UInt64 := 0x165667B19E3779F9
def prime4 : UInt64 := 0x85EBCA77C2B2AE63
def prime5 : UInt64 := 0x27D4EB2F165667C5

private def rotl (w : UInt64) (n : UInt64) : UInt64 := w <<< n ||| w >>> (64 - n)

private def word (bs : Bytes) : UInt64 := UInt64.ofNat (Bytes.toNatLE bs)

private def round (acc lane : UInt64) : UInt64 := rotl (acc + lane * prime2) 31 * prime1

private def merge (acc lane : UInt64) : UInt64 := (acc ^^^ round 0 lane) * prime1 + prime4

/-- The four running sums over pieces of 32 bytes. -/
structure Lanes where
  a : UInt64
  b : UInt64
  c : UInt64
  d : UInt64

def Lanes.absorb (l : Lanes) (piece : Bytes) : Lanes :=
  ⟨round l.a (word (piece.take 8)), round l.b (word ((piece.drop 8).take 8)),
    round l.c (word ((piece.drop 16).take 8)), round l.d (word (piece.drop 24))⟩

def Lanes.sum (l : Lanes) : UInt64 :=
  merge (merge (merge (merge (rotl l.a 1 + rotl l.b 7 + rotl l.c 12 + rotl l.d 18) l.a) l.b) l.c) l.d

/-- Absorbs the last bytes, fewer than 32, by eights, by four and singly. -/
private def absorbRest : (fuel : Nat) → UInt64 → Bytes → UInt64
  | 0, acc, _ => acc
  | fuel + 1, acc, bs =>
    if 8 ≤ bs.length then
      absorbRest fuel (rotl (acc ^^^ round 0 (word (bs.take 8))) 27 * prime1 + prime4) (bs.drop 8)
    else if 4 ≤ bs.length then
      absorbRest fuel (rotl (acc ^^^ word (bs.take 4) * prime1) 23 * prime2 + prime3) (bs.drop 4)
    else
      match bs with
      | [] => acc
      | b :: bs => absorbRest fuel (rotl (acc ^^^ word [b] * prime5) 11 * prime1) bs

def digest (bs : Bytes) : UInt64 :=
  let pieces := bs.chunks 32
  let full := pieces.filter (·.length == 32)
  let rest := (pieces.filter (·.length != 32)).flatten
  let start :=
    if full.isEmpty then prime5
    else (full.foldl Lanes.absorb ⟨prime1 + prime2, prime2, 0, 0 - prime1⟩).sum
  let acc := absorbRest 32 (start + UInt64.ofNat bs.length) rest
  let acc := (acc ^^^ acc >>> 33) * prime2
  let acc := (acc ^^^ acc >>> 29) * prime3
  acc ^^^ acc >>> 32

end Rehoming.Zstd.XxHash64
