import Rehoming.Bytes
import Rehoming.Text.Utf8
import Rehoming.Text.Blank
import Rehoming.Text.Decimal

/-! Base64 with the standard alphabet and canonical padding, which is how every
ciphertext is written in a document. Reading accepts exactly what writing
produces, and says where anything else first goes wrong. -/

namespace Rehoming.Base64

/-- The symbol for a number below 64. -/
def symbol (n : Nat) : UInt8 :=
  if n < 26 then UInt8.ofNat (65 + n)
  else if n < 52 then UInt8.ofNat (71 + n)
  else if n < 62 then UInt8.ofNat (n - 4)
  else if n = 62 then 43 else 47

def value? (b : UInt8) : Option Nat :=
  let n := b.toNat
  if 65 ≤ n ∧ n ≤ 90 then some (n - 65)
  else if 97 ≤ n ∧ n ≤ 122 then some (n - 71)
  else if 48 ≤ n ∧ n ≤ 57 then some (n + 4)
  else if n = 43 then some 62
  else if n = 47 then some 63
  else none

def pad : UInt8 := 61

/-- Up to three bytes as four symbols. -/
def encodeGroup : Bytes → Bytes
  | [a] => [symbol (a.toNat / 4), symbol (a.toNat % 4 * 16), pad, pad]
  | [a, b] =>
    [symbol (a.toNat / 4), symbol (a.toNat % 4 * 16 + b.toNat / 16), symbol (b.toNat % 16 * 4), pad]
  | a :: b :: c :: _ =>
    [symbol (a.toNat / 4), symbol (a.toNat % 4 * 16 + b.toNat / 16),
      symbol (b.toNat % 16 * 4 + c.toNat / 64), symbol (c.toNat % 64)]
  | [] => []

/-- The symbols of the bytes, after those in `done`, which are in reverse. -/
def encodeOnto : Bytes → (done : Bytes) → Bytes
  | a :: b :: c :: rest, done => encodeOnto rest ((encodeGroup [a, b, c]).reverse ++ done)
  | group, done => done.reverse ++ encodeGroup group

def encode (bs : Bytes) : Bytes := encodeOnto bs []

def encodeText (bs : Bytes) : String :=
  String.ofList ((encode bs).map fun b => Char.ofNat b.toNat)

/-- Why a text is no base64. Offsets count bytes. -/
inductive Fault where
  | badSymbol (byte : UInt8) (offset : Nat)
  | badLength (length : Nat)
  | badLastSymbol (byte : UInt8) (offset : Nat)
  | badPadding
  deriving DecidableEq, Repr

def Fault.message : Fault → String
  | .badSymbol byte offset =>
    s!"Invalid symbol {byte.toNat}, offset {offset}."
  | .badLength length => s!"Invalid input length: {length}"
  | .badLastSymbol byte offset =>
    s!"Invalid last symbol {byte.toNat}, offset {offset}."
  | .badPadding => "Invalid padding"

/-- The values of symbols that stand at `offset` and after it. -/
def values (offset : Nat) (symbols : Bytes) : Except Fault (List Nat) :=
  match symbols.findIdx? fun b => (value? b).isNone with
  | some i => .error (.badSymbol (symbols.getD i 0) (offset + i))
  | none => .ok (symbols.filterMap value?)

/-- The bytes that up to four values hold, unused bits dropped. -/
def decodeGroup : List Nat → Bytes
  | [a, b] => [UInt8.ofNat (a * 4 + b / 16)]
  | [a, b, c] => [UInt8.ofNat (a * 4 + b / 16), UInt8.ofNat (b % 16 * 16 + c / 4)]
  | a :: b :: c :: d :: _ =>
    [UInt8.ofNat (a * 4 + b / 16), UInt8.ofNat (b % 16 * 16 + c / 4), UInt8.ofNat (c % 4 * 64 + d)]
  | _ => []

/-- The bytes of full groups of values, after those in `done`, which are in reverse. -/
def decodeFull : List Nat → (done : Bytes) → Bytes
  | a :: b :: c :: d :: rest, done => decodeFull rest ((decodeGroup [a, b, c, d]).reverse ++ done)
  | _, done => done.reverse

/-- The part of the last value of a group that stands for no byte. -/
def unusedBits : List Nat → Nat
  | [_, b] => b % 16
  | [_, _, c] => c % 4
  | _ => 0

/-- The last group, whose first symbol stands at `offset`. -/
def decodeLast (offset : Nat) (group : Bytes) : Except Fault Bytes := do
  let letters := group.takeWhile (· != pad)
  let padding := group.dropWhile (· != pad)
  let vs ← values offset letters
  if !padding.isEmpty && (letters.length < 2 || padding.any (· != pad)) then
    throw (.badSymbol pad (offset + letters.length))
  if letters.length < 2 then
    if group.isEmpty then return [] else throw (.badLength (offset + letters.length))
  if group.length % 4 ≠ 0 then throw .badPadding
  if unusedBits vs ≠ 0 then
    throw (.badLastSymbol (letters.getLastD 0) (offset + letters.length - 1))
  return decodeGroup vs

/-- A last symbol that opens a new group is looked at before all others, so that
a stray line end is what gets reported. -/
def decode (bs : Bytes) : Except Fault Bytes := do
  let last := bs.getLastD pad
  if bs.length % 4 = 1 ∧ last ≠ pad ∧ value? last = none then
    throw (.badSymbol last (bs.length - 1))
  let cut := (bs.length - 1) / 4 * 4
  let full ← values 0 (bs.take cut)
  let rest ← decodeLast cut (bs.drop cut)
  return decodeFull full [] ++ rest

/-- Reads a field of a document, without the blanks around it. -/
def decodeText (text : String) : Except Fault Bytes :=
  decode (Text.Utf8.encode (Text.trim text.toList))

end Rehoming.Base64
