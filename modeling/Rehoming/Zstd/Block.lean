import Rehoming.Zstd.Huffman

/-! Compressed blocks: a section of literals, and a section of sequences, each of
which copies some literals and then a stretch of what was written before. -/

namespace Rehoming.Zstd

/-- A block's content is at most this long. -/
def maxBlockSize : Nat := 128 * 1024

/-- What one block of a frame leaves behind for the next. -/
structure Memory where
  tree : Option Huffman.Tree
  /-- The tables of literal lengths, offsets and match lengths. -/
  tables : Option (Fse.Table × Fse.Table × Fse.Table)
  /-- The last three offsets, newest first. -/
  offsets : Nat × Nat × Nat

def Memory.fresh : Memory := ⟨none, none, (1, 4, 8)⟩

namespace Literals

/-- The literals of a block, the tree in force after them, and the bytes behind. -/
structure Section where
  literals : Bytes
  tree : Option Huffman.Tree
  rest : Bytes

/-- Literals stored as they are, or one byte repeated. -/
private def readPlain (limit : Nat) (tree : Option Huffman.Tree) (repeated : Bool) (bs : Bytes) :
    Option Section := do
  let kind := Bytes.toNatLE (bs.take 1) / 4 % 4
  let (header, size) :=
    if kind % 2 = 0 then (1, Bytes.toNatLE (bs.take 1) / 8)
    else if kind = 1 then (2, Bytes.toNatLE (bs.take 2) / 16)
    else (3, Bytes.toNatLE (bs.take 3) / 16)
  let stored := if repeated then 1 else size
  guard (header + stored ≤ bs.length ∧ size ≤ limit)
  let bs := bs.drop header
  let literals := if repeated then List.replicate size (bs.headD 0) else bs.take size
  some ⟨literals, tree, bs.drop stored⟩

/-- Literals in a Huffman code, whose tree stands in front unless it is the last one again. -/
private def readCoded (limit : Nat) (tree : Option Huffman.Tree) (again : Bool) (bs : Bytes) :
    Option Section := do
  let kind := Bytes.toNatLE (bs.take 1) / 4 % 4
  let (header, width) := if kind < 2 then (3, 10) else if kind = 2 then (4, 14) else (5, 18)
  guard (5 ≤ bs.length)
  let n := Bytes.toNatLE (bs.take header) / 16
  let size := n % (1 <<< width)
  let stored := n >>> width
  guard (header + stored ≤ bs.length ∧ size ≤ limit)
  let coded := (bs.drop header).take stored
  let (tree, streams) ←
    if again then tree.map fun t => (t, coded) else Huffman.Tree.read? coded
  let literals ←
    if kind = 0 then tree.stream? size streams else tree.fourStreams? size streams
  some ⟨literals, some tree, bs.drop (header + stored)⟩

def read? (limit : Nat) (tree : Option Huffman.Tree) (bs : Bytes) : Option Section :=
  match Bytes.toNatLE (bs.take 1) % 4 with
  | 0 => readPlain limit tree false bs
  | 1 => readPlain limit tree true bs
  | 2 => readCoded limit tree false bs
  | _ => readCoded limit tree true bs

end Literals

namespace Sequences

/-- The least value of a code, and how many bits are added to it. -/
abbrev Code := Nat × Nat

/-- Consecutive codes from `base` on with these numbers of bits. -/
private def codes : (base : Nat) → List Nat → List Code
  | _, [] => []
  | base, bits :: rest => (base, bits) :: codes (base + (1 <<< bits)) rest

def literalLengths : Array Code :=
  (codes 0 (List.replicate 16 0 ++ [1, 1, 1, 1, 2, 2, 3, 3, 4, 6, 7, 8, 9, 10, 11, 12, 13, 14, 15,
    16])).toArray

def matchLengths : Array Code :=
  (codes 3 (List.replicate 32 0 ++ [1, 1, 1, 1, 2, 2, 3, 3, 4, 4, 5, 7, 8, 9, 10, 11, 12, 13, 14,
    15, 16])).toArray

private def common (counts : List Nat) : List Fse.Share := counts.map .states

/-- The tables that hold where a block brings none of its own. -/
def defaultLiteralLengths : Fse.Table :=
  .ofShares 6 (common [4, 3, 2, 2, 2, 2, 2, 2, 2, 2, 2, 2, 2, 1, 1, 1, 2, 2, 2, 2, 2, 2, 2, 2, 2, 3,
    2, 1, 1, 1, 1, 1] ++ List.replicate 4 .rare)

def defaultOffsets : Fse.Table :=
  .ofShares 5 (common [1, 1, 1, 1, 1, 1, 2, 2, 2, 1, 1, 1, 1, 1, 1, 1, 1, 1, 1, 1, 1, 1, 1, 1]
    ++ List.replicate 5 .rare)

def defaultMatchLengths : Fse.Table :=
  .ofShares 6 (common ([1, 4, 3, 2, 2, 2, 2, 2, 2] ++ List.replicate 37 1)
    ++ List.replicate 7 .rare)

/-- A table by its mode: the default, one symbol, one described here, or the last again. -/
private def readTable (mode : Nat) (default : Fse.Table) (last : Option Fse.Table)
    (maxLog maxSymbol : Nat) (bs : Bytes) : Option (Fse.Table × Bytes) :=
  match mode with
  | 0 => some (default, bs)
  | 1 =>
    match bs with
    | b :: bs => if b.toNat ≤ maxSymbol then some (.single b.toNat, bs) else none
    | [] => none
  | 2 => Fse.Table.read? maxLog maxSymbol bs
  | _ => last.map fun t => (t, bs)

/-- The number of sequences, with the bytes after it. -/
private def readCount : Bytes → Option (Nat × Bytes)
  | [] => none
  | a :: bs =>
    if a < 128 then some (a.toNat, bs)
    else
      match bs with
      | [] => none
      | b :: bs =>
        if a < 255 then some ((a.toNat - 128) * 256 + b.toNat, bs)
        else
          match bs with
          | [] => none
          | c :: bs => some (b.toNat + c.toNat * 256 + 0x7F00, bs)

/-- Some literals, and then `size` bytes from `offset` bytes back. -/
structure Sequence where
  literals : Nat
  offset : Nat
  size : Nat

/-- What an offset's value stands for, and the last three offsets after it. Values
up to three name one of the last three; without literals they count one further,
the last of them being the newest less one. An offset of zero is none. -/
def resolve (value : Nat) (noLiterals : Bool) : Nat × Nat × Nat → Option (Nat × Nat × Nat × Nat)
  | (a, b, c) =>
    if 3 < value then some (value - 3, value - 3, a, b)
    else
      match value - 1 + noLiterals.toNat with
      | 0 => some (a, a, b, c)
      | 1 => some (b, b, a, c)
      | 2 => some (c, c, a, b)
      | _ => if a ≤ 1 then none else some (a - 1, a - 1, a, b)

/-- What has been written, and what is still to be copied. -/
structure Progress where
  out : Array UInt8
  literals : Bytes
  offsets : Nat × Nat × Nat

private def pushAll (out : Array UInt8) (bs : Bytes) : Array UInt8 := bs.foldl Array.push out

/-- Appends `size` bytes, each being the one `offset` bytes back. -/
def copyBack (offset : Nat) : (size : Nat) → Array UInt8 → Array UInt8
  | 0, out => out
  | size + 1, out => copyBack offset size (out.push (out.getD (out.size - offset) 0))

/-- Carries out a sequence. It must not reach back before `start`, nor write
beyond `limit`. -/
def Progress.run? (start limit : Nat) (p : Progress) (s : Sequence)
    (offsets : Nat × Nat × Nat) : Option Progress := do
  let written := p.out.size + s.literals
  guard (written + s.size ≤ limit ∧ start + s.offset ≤ written)
  let front := p.literals.take s.literals
  guard (front.length = s.literals)
  some ⟨copyBack s.offset s.size (pushAll p.out front), p.literals.drop s.literals, offsets⟩

/-- The three states that describe the next sequence. -/
structure States where
  literalLength : Nat
  offset : Nat
  matchLength : Nat

/-- Carries out `count` sequences, whose bits must be used up by then. -/
def run? (tables : Fse.Table × Fse.Table × Fse.Table) (start limit : Nat) :
    (count : Nat) → States → List Bool → Progress → Option Progress
  | 0, _, bits, p => if bits.isEmpty then some p else none
  | count + 1, st, bits, p => do
    let (lengths, offsets, sizes) := tables
    let offsetCode := (offsets.cell st.offset).symbol
    let (extra, bits) ← Bits.takeHigh? offsetCode bits
    let (base, width) := matchLengths.getD (sizes.cell st.matchLength).symbol (0, 0)
    let (more, bits) ← Bits.takeHigh? width bits
    let size := base + more
    let lengthCode := (lengths.cell st.literalLength).symbol
    let (base, width) := literalLengths.getD lengthCode (0, 0)
    let (more, bits) ← Bits.takeHigh? width bits
    let (offset, last) ← resolve ((1 <<< offsetCode) + extra) (lengthCode == 0) p.offsets
    let p ← p.run? start limit ⟨base + more, offset, size⟩ last
    if count = 0 then
      if bits.isEmpty then some p else none
    else
      let (a, bits) ← lengths.next? st.literalLength bits
      let (c, bits) ← sizes.next? st.matchLength bits
      let (b, bits) ← offsets.next? st.offset bits
      run? tables start limit count ⟨a, b, c⟩ bits p

/-- Carries out the section of sequences; literals left over come last. -/
def execute? (start limit : Nat) (memory : Memory) (literals : Literals.Section)
    (out : Array UInt8) : Option (Array UInt8 × Memory) := do
  let (count, bs) ← readCount literals.rest
  let memory := { memory with tree := literals.tree }
  if count = 0 then
    guard (bs.isEmpty ∧ out.size + literals.literals.length ≤ limit)
    return (pushAll out literals.literals, memory)
  let modes := Bytes.toNatLE (bs.take 1)
  guard (!bs.isEmpty ∧ modes % 4 = 0)
  let bs := bs.drop 1
  let (lengths, bs) ← readTable (modes / 64) defaultLiteralLengths (memory.tables.map (·.1)) 9 35 bs
  let (offsets, bs) ← readTable (modes / 16 % 4) defaultOffsets (memory.tables.map (·.2.1)) 8 31 bs
  let (sizes, bs) ← readTable (modes / 4 % 4) defaultMatchLengths (memory.tables.map (·.2.2)) 9 52 bs
  let bits ← Bits.backward? bs
  let (a, bits) ← lengths.start? bits
  let (b, bits) ← offsets.start? bits
  let (c, bits) ← sizes.start? bits
  let p ← run? (lengths, offsets, sizes) start limit count ⟨a, b, c⟩ bits
    ⟨out, literals.literals, memory.offsets⟩
  guard (p.out.size + p.literals.length ≤ limit)
  return (pushAll p.out p.literals,
    { memory with tables := some (lengths, offsets, sizes), offsets := p.offsets })

end Sequences

/-- Appends the content of a compressed block. `start` is where the frame's
content begins, `limit` where all output must end, and `blockLimit` bounds the
block and its literals. -/
def Memory.block? (start limit blockLimit : Nat) (memory : Memory) (bs : Bytes)
    (out : Array UInt8) : Option (Array UInt8 × Memory) := do
  guard (2 ≤ bs.length ∧ bs.length ≤ blockLimit)
  let literals ← Literals.read? blockLimit memory.tree bs
  Sequences.execute? start limit memory literals out

end Rehoming.Zstd
