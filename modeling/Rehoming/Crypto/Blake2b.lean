import Rehoming.Bytes

/-! BLAKE2b without a key. -/

namespace Rehoming.Crypto.Blake2b

def initial : Array UInt64 :=
  #[0x6a09e667f3bcc908, 0xbb67ae8584caa73b, 0x3c6ef372fe94f82b, 0xa54ff53a5f1d36f1,
    0x510e527fade682d1, 0x9b05688c2b3e6c1f, 0x1f83d9abfb41bd6b, 0x5be0cd19137e2179]

/-- The order in which each of the ten rounds takes the message words. -/
def orders : List (List Nat) :=
  [[0, 1, 2, 3, 4, 5, 6, 7, 8, 9, 10, 11, 12, 13, 14, 15],
   [14, 10, 4, 8, 9, 15, 13, 6, 1, 12, 0, 2, 11, 7, 5, 3],
   [11, 8, 12, 0, 5, 2, 15, 13, 10, 14, 3, 6, 7, 1, 9, 4],
   [7, 9, 3, 1, 13, 12, 11, 14, 2, 6, 5, 10, 4, 0, 15, 8],
   [9, 0, 5, 7, 2, 4, 10, 15, 14, 1, 11, 12, 6, 8, 3, 13],
   [2, 12, 6, 10, 0, 11, 8, 3, 4, 13, 7, 5, 15, 14, 1, 9],
   [12, 5, 1, 15, 14, 13, 4, 10, 0, 7, 6, 3, 9, 2, 8, 11],
   [13, 11, 7, 14, 12, 1, 3, 9, 5, 0, 15, 4, 8, 6, 2, 10],
   [6, 15, 14, 9, 11, 3, 0, 8, 12, 2, 13, 7, 1, 4, 10, 5],
   [10, 2, 8, 4, 7, 6, 1, 5, 15, 11, 9, 14, 3, 12, 13, 0]]

/-- The columns and then the diagonals that a round mixes. -/
def lanes : List (Nat × Nat × Nat × Nat) :=
  [(0, 4, 8, 12), (1, 5, 9, 13), (2, 6, 10, 14), (3, 7, 11, 15),
   (0, 5, 10, 15), (1, 6, 11, 12), (2, 7, 8, 13), (3, 4, 9, 14)]

private def rotr (w : UInt64) (n : UInt64) : UInt64 := w >>> n ||| w <<< (64 - n)

private def mix (v : Array UInt64) (lane : Nat × Nat × Nat × Nat) (x y : UInt64) : Array UInt64 :=
  let (i, j, k, l) := lane
  let a := v.getD i 0 + v.getD j 0 + x
  let d := rotr (v.getD l 0 ^^^ a) 32
  let c := v.getD k 0 + d
  let b := rotr (v.getD j 0 ^^^ c) 24
  let a := a + b + y
  let d := rotr (d ^^^ a) 16
  let c := c + d
  let b := rotr (b ^^^ c) 63
  (((v.setIfInBounds i a).setIfInBounds j b).setIfInBounds k c).setIfInBounds l d

private def pairs {α : Type} : List α → List (α × α)
  | a :: b :: rest => (a, b) :: pairs rest
  | _ => []

/-- Mixes one block into the state. `count` is the number of bytes up to the
block's end, and `last` marks the last block. -/
def compress (state : Array UInt64) (block : Bytes) (count : Nat) (last : Bool) : Array UInt64 :=
  let words := ((block ++ List.replicate (128 - block.length) 0).chunks 8).map fun w =>
    UInt64.ofNat (Bytes.toNatLE w)
  let words := words.toArray
  let v := state ++ initial
  let v := v.setIfInBounds 12 (v.getD 12 0 ^^^ UInt64.ofNat count)
  let v := v.setIfInBounds 13 (v.getD 13 0 ^^^ UInt64.ofNat (count / UInt64.size))
  let v := if last then v.setIfInBounds 14 (~~~ v.getD 14 0) else v
  let v := (orders ++ orders.take 2).foldl (fun v order =>
    (List.zip lanes (pairs order)).foldl (fun v lxy =>
      mix v lxy.1 (words.getD lxy.2.1 0) (words.getD lxy.2.2 0)) v) v
  (Array.range 8).map fun i => state.getD i 0 ^^^ v.getD i 0 ^^^ v.getD (i + 8) 0

/-- The digest of the given length, which is at most 64 bytes. -/
def digest (length : Nat) (message : Bytes) : Bytes :=
  let start := initial.setIfInBounds 0 (initial.getD 0 0 ^^^ 0x01010000 ^^^ UInt64.ofNat length)
  let blocks := if message.isEmpty then [[]] else message.chunks 128
  let final := blocks.length - 1
  let state := blocks.zipIdx.foldl (fun s (b : Bytes × Nat) =>
    compress s b.1 (128 * b.2 + b.1.length) (b.2 == final)) start
  (state.toList.flatMap fun w => Bytes.ofNatLE 8 w.toNat).take length

end Rehoming.Crypto.Blake2b
