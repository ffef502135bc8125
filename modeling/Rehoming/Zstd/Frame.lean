import Rehoming.Zstd.Block
import Rehoming.Zstd.XxHash64

/-! Zstandard data: frames one after another, some of which may be there to be
skipped. Reading handles every kind of block; writing stores the content in
blocks of its own, and a block of equal bytes as one byte. Main statement to
rely on: reading never gives more bytes than it is allowed to. -/

namespace Rehoming.Zstd

def magic : Nat := 0xFD2FB528

/-- What a frame says about itself before its first block. -/
structure Header where
  blockLimit : Nat
  contentSize : Option Nat
  checksum : Bool

/-- Reads the header that follows the magic number, with the bytes after it. A
frame that needs a dictionary is refused. -/
def Header.read? (bs : Bytes) : Option (Header × Bytes) := do
  let descriptor := Bytes.toNatLE (bs.take 1)
  guard (!bs.isEmpty ∧ descriptor / 8 % 2 = 0)
  let bs := bs.drop 1
  let single := descriptor / 32 % 2 = 1
  let windowWidth := if single then 0 else 1
  let dictionaryWidth := [0, 1, 2, 4].getD (descriptor % 4) 0
  let sizeWidth :=
    match descriptor / 64 with
    | 0 => if single then 1 else 0
    | n => 1 <<< n
  guard (windowWidth + dictionaryWidth + sizeWidth ≤ bs.length)
  let window := Bytes.toNatLE (bs.take windowWidth)
  guard (window / 8 + 10 ≤ 31)
  let dictionary := Bytes.toNatLE ((bs.drop windowWidth).take dictionaryWidth)
  guard (dictionary = 0)
  let size := Bytes.toNatLE ((bs.drop (windowWidth + dictionaryWidth)).take sizeWidth)
    + (if sizeWidth = 2 then 256 else 0)
  let windowSize :=
    if single then size else (1 <<< (window / 8 + 10)) / 8 * (8 + window % 8)
  some (⟨min windowSize maxBlockSize, if sizeWidth = 0 then none else some size,
    descriptor / 4 % 2 = 1⟩, bs.drop (windowWidth + dictionaryWidth + sizeWidth))

/-- Appends the content of blocks up to the one marked as the last. -/
def blocks? (header : Header) (start limit : Nat) :
    (fuel : Nat) → Memory → Array UInt8 → Bytes → Option (Array UInt8 × Bytes)
  | 0, _, _, _ => none
  | fuel + 1, memory, out, bs => do
    guard (3 ≤ bs.length)
    let word := Bytes.toNatLE (bs.take 3)
    let size := word / 8
    let kind := word / 2 % 4
    let bs := bs.drop 3
    let stored := if kind = 1 then 1 else size
    guard (stored ≤ bs.length)
    let (out, memory) ←
      match kind with
      | 0 =>
        if out.size + size ≤ limit then some ((bs.take size).foldl Array.push out, memory) else none
      | 1 =>
        if out.size + size ≤ limit then
          some ((List.replicate size (bs.headD 0)).foldl Array.push out, memory)
        else none
      | 2 => memory.block? start limit header.blockLimit (bs.take size) out
      | _ => none
    let bs := bs.drop stored
    if word % 2 = 1 then some (out, bs)
    else blocks? header start limit fuel memory out bs

/-- Appends the content of the frame whose header follows. -/
def frame? (limit : Nat) (out : Array UInt8) (bs : Bytes) :
    Option (Array UInt8 × Bytes) := do
  let (header, bs) ← Header.read? bs
  let start := out.size
  let (out, bs) ← blocks? header start limit bs.length .fresh out bs
  guard (header.contentSize.all (· == out.size - start))
  if header.checksum then
    let sum := (XxHash64.digest (out.extract start out.size).toList).toNat % UInt32.size
    guard (4 ≤ bs.length ∧ Bytes.toNatLE (bs.take 4) = sum)
    some (out, bs.drop 4)
  else some (out, bs)

/-- Appends the content of all frames. -/
def frames? (limit : Nat) : (fuel : Nat) → Array UInt8 → Bytes → Option (Array UInt8)
  | _, out, [] => some out
  | 0, _, _ => none
  | fuel + 1, out, bs => do
    guard (5 ≤ bs.length)
    let first := Bytes.toNatLE (bs.take 4)
    let bs := bs.drop 4
    if first / 16 = 0x184D2A5 then
      let size := Bytes.toNatLE (bs.take 4)
      guard (4 ≤ bs.length ∧ size ≤ bs.length - 4)
      frames? limit fuel out (bs.drop (4 + size))
    else
      guard (first = magic)
      let (out, bs) ← frame? limit out bs
      frames? limit fuel out bs

/-- The content of all frames, if it is no longer than `limit`. -/
def decompress? (limit : Nat) (bs : Bytes) : Option Bytes := do
  let out ← frames? limit bs.length #[] bs
  if out.size ≤ limit then some out.toList else none

/-- A block with its three bytes in front. -/
def storeBlock (last : Bool) (content : Bytes) : Bytes :=
  match content with
  | b :: c :: rest =>
    if (c :: rest).all (· == b) then
      Bytes.ofNatLE 3 (content.length * 8 + 2 + last.toNat) ++ [b]
    else Bytes.ofNatLE 3 (content.length * 8 + last.toNat) ++ content
  | _ => Bytes.ofNatLE 3 (content.length * 8 + last.toNat) ++ content

/-- One frame with the content's length in its header. -/
def compress (content : Bytes) : Bytes :=
  let pieces := content.chunks maxBlockSize
  let last := pieces.getLastD []
  Bytes.ofNatLE 4 magic ++ [0xE0] ++ Bytes.ofNatLE 8 content.length
    ++ (pieces.dropLast.flatMap (storeBlock false)) ++ storeBlock true last

end Rehoming.Zstd
