import Rehoming.Zstd.Fse

/-! Huffman codes of literals. A symbol's weight says how long its code is: a
weight one higher makes it one bit shorter, and weight zero means that there is
no code. -/

namespace Rehoming.Zstd.Huffman

inductive Tree where
  | none
  | leaf (symbol : UInt8)
  | node (zero one : Tree)

/-- The symbol whose code the bits begin with, and the bits after it. -/
def Tree.next? : Tree → List Bool → Option (UInt8 × List Bool)
  | .leaf symbol, bits => some (symbol, bits)
  | .node zero one, b :: bits => if b then one.next? bits else zero.next? bits
  | _, _ => Option.none

/-- The length of the longest code. -/
def Tree.depth : Tree → Nat
  | .none => 0
  | .leaf _ => 0
  | .node zero one => max zero.depth one.depth + 1

/-- Cuts the tree of the given depth from the front of symbols with weights; a
weight stands for a subtree that is one less deep. -/
def Tree.ofWeights : (depth : Nat) → List (UInt8 × Nat) → Tree × List (UInt8 × Nat)
  | _, [] => (.none, [])
  | 0, (symbol, _) :: rest => (.leaf symbol, rest)
  | depth + 1, (symbol, weight) :: rest =>
    if weight = depth + 2 then (.leaf symbol, rest)
    else
      let (zero, rest) := Tree.ofWeights depth ((symbol, weight) :: rest)
      let (one, rest) := Tree.ofWeights depth rest
      (.node zero one, rest)

/-- The tree for the weights of all symbols but the last, whose weight is what
fills up a power of two. Codes are at most twelve bits long, and an even number
of symbols, at least two, has the longest. -/
def Tree.build? (weights : List Nat) : Option Tree := do
  guard (weights.all (· ≤ 12))
  let total := weights.foldl (fun n w => n + (1 <<< w) / 2) 0
  guard (total ≠ 0)
  let depth := total.log2 + 1
  guard (depth ≤ 12)
  let rest := (1 <<< depth) - total
  guard (rest = 1 <<< rest.log2)
  let weights := weights ++ [rest.log2 + 1]
  let longest := weights.count 1
  guard (2 ≤ longest ∧ longest % 2 = 0)
  let symbols := weights.zipIdx.map fun w => (UInt8.ofNat w.2, w.1)
  let sorted := (List.range depth).flatMap fun k => symbols.filter fun s => s.2 == k + 1
  some (Tree.ofWeights depth sorted).1

/-- Weights of four bits each, two a byte. -/
private def halves (bs : Bytes) : List Nat :=
  bs.flatMap fun b => [b.toNat / 16, b.toNat % 16]

/-- The tree described at the front of the bytes, with the bytes after it. -/
def Tree.read? : Bytes → Option (Tree × Bytes)
  | [] => Option.none
  | b :: bs => do
    let n := b.toNat
    if 128 ≤ n then
      let size := (n - 126) / 2
      guard (size ≤ bs.length)
      let tree ← Tree.build? ((halves (bs.take size)).take (n - 127))
      some (tree, bs.drop size)
    else
      guard (n ≤ bs.length)
      let (table, stream) ← Fse.Table.read? 6 255 (bs.take n)
      let bits ← Bits.backward? stream
      let (this, bits) ← table.start? bits
      let (other, bits) ← table.start? bits
      let weights ← table.alternate 254 this other [] bits
      let tree ← Tree.build? weights
      some (tree, bs.drop n)

/-- The first `count` symbols, put before `done` in reverse, and the bits after them. -/
def Tree.symbols? (tree : Tree) : (count : Nat) → Bytes → List Bool → Option (Bytes × List Bool)
  | 0, done, bits => some (done, bits)
  | count + 1, done, bits =>
    match tree.next? bits with
    | some (symbol, bits) => tree.symbols? count (symbol :: done) bits
    | Option.none => Option.none

/-- The `count` symbols of one backward stream, which use up all its bits. -/
def Tree.stream? (tree : Tree) (count : Nat) (bs : Bytes) : Option Bytes := do
  let bits ← Bits.backward? bs
  let (symbols, rest) ← tree.symbols? count [] bits
  guard rest.isEmpty
  some symbols.reverse

/-- The `count` symbols of a stream that ends with the bytes. Bits may be left
over, and a stream that runs out goes on into what stands before it. -/
def Tree.longStream? (tree : Tree) (count : Nat) (bs : Bytes) : Option Bytes := do
  let (symbols, _) ← tree.symbols? count [] (Bits.backward bs)
  some symbols.reverse

/-- The `count` symbols of four streams of equal share, the last one perhaps
shorter, with the lengths of the first three in front. Where all are at least
eight bytes long, and no code is longer than eleven bits, they are read side by
side, and none is asked to end exactly with its symbols; a stream then goes on
for at most eight bytes. -/
def Tree.fourStreams? (tree : Tree) (count : Nat) (bs : Bytes) : Option Bytes := do
  let a := Bytes.toNatLE (bs.take 2)
  let b := Bytes.toNatLE ((bs.drop 2).take 2)
  let c := Bytes.toNatLE ((bs.drop 4).take 2)
  let share := (count + 3) / 4
  guard (10 ≤ bs.length ∧ a + b + c + 6 ≤ bs.length ∧ 6 ≤ count ∧ 3 * share ≤ count)
  let d := bs.length - (a + b + c + 6)
  let long := tree.depth ≤ 11 ∧ 8 ≤ a ∧ 8 ≤ b ∧ 8 ≤ c ∧ 8 ≤ d ∧ 3 * share < count
  let read (count first size : Nat) : Option Bytes :=
    if long then tree.longStream? count ((bs.take (first + size)).drop (first - 8))
    else tree.stream? count ((bs.drop first).take size)
  let one ← read share 6 a
  let two ← read share (6 + a) b
  let three ← read share (6 + a + b) c
  let four ← read (count - 3 * share) (6 + a + b + c) d
  some (one ++ two ++ three ++ four)

end Rehoming.Zstd.Huffman
