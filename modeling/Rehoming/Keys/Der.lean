import Rehoming.Crypto.Rsa
import Rehoming.Text.Utf8

/-! RSA private keys in DER, by themselves or in the general form for private keys.
All lengths and integers must be in their one shortest form, and nothing may follow
what is expected. -/

namespace Rehoming.Keys.Der

open Crypto

/-- A number of bytes: one byte up to 127, else as few as it takes, with their
count in front. -/
def length? : Bytes → Option (Nat × Bytes)
  | [] => none
  | b :: rest =>
    let count := b.toNat - 128
    let n := Bytes.toNatBE (rest.take count)
    if b < 128 then some (b.toNat, rest)
    else if 1 ≤ count ∧ count ≤ 4 ∧ count ≤ rest.length ∧ 128 ≤ n ∧ Bytes.width n = count then
      some (n, rest.drop count)
    else none

structure Item where
  tag : UInt8
  content : Bytes

def item? : Bytes → Option (Item × Bytes)
  | [] => none
  | tag :: rest => do
    let (n, rest) ← length? rest
    if n ≤ rest.length then some (⟨tag, rest.take n⟩, rest.drop n) else none

/-- The content of an item with the given tag. -/
def expect? (tag : UInt8) (bs : Bytes) : Option (Bytes × Bytes) := do
  let (item, rest) ← item? bs
  if item.tag = tag then some (item.content, rest) else none

def integerTag : UInt8 := 0x02
def octetsTag : UInt8 := 0x04
def nullTag : UInt8 := 0x05
def objectTag : UInt8 := 0x06
def sequenceTag : UInt8 := 0x30

/-- An integer that is not negative. -/
def nat? (bs : Bytes) : Option (Nat × Bytes) := do
  let (content, rest) ← expect? integerTag bs
  match content with
  | [] => none
  | [b] => if b < 128 then some (b.toNat, rest) else none
  | b :: c :: more =>
    if 128 ≤ b ∨ (b = 0 ∧ c < 128) then none
    else some (Bytes.toNatBE (b :: c :: more), rest)

/-- The content of a sequence that nothing follows. -/
def onlySequence? (bs : Bytes) : Option Bytes := do
  let (content, rest) ← expect? sequenceTag bs
  if rest.isEmpty then some content else none

/-- A two-prime key by itself. The values that speed up its use are not looked at. -/
def rsaKey? (bs : Bytes) : Option Rsa.PrivateKey := do
  let bs ← onlySequence? bs
  let (version, bs) ← nat? bs
  let (modulus, bs) ← nat? bs
  let (publicExponent, bs) ← nat? bs
  let (privateExponent, bs) ← nat? bs
  let (p, bs) ← nat? bs
  let (q, bs) ← nat? bs
  let (_, bs) ← nat? bs
  let (_, bs) ← nat? bs
  let (_, bs) ← nat? bs
  guard (version = 0 ∧ bs.isEmpty)
  some ⟨⟨modulus, publicExponent⟩, privateExponent, p, q⟩

/-- The identifier of RSA encryption. -/
def rsaEncryption : Bytes := [0x2A, 0x86, 0x48, 0x86, 0xF7, 0x0D, 0x01, 0x01, 0x01]

/-- Items with context-specific tags, up to the end. -/
private def extensions? : (fuel : Nat) → Bytes → Option (List Item)
  | _, [] => some []
  | 0, _ => none
  | fuel + 1, bs => do
    let (item, rest) ← item? bs
    guard (0x80 ≤ item.tag ∧ item.tag < 0xC0)
    let more ← extensions? fuel rest
    some (item :: more)

/-- The general form around an RSA key. A second version has the public key behind
the private one, as a string of whole bytes. -/
def generalKey? (bs : Bytes) : Option Rsa.PrivateKey := do
  let bs ← onlySequence? bs
  let (version, bs) ← nat? bs
  let (algorithm, bs) ← expect? sequenceTag bs
  let (object, parameters) ← expect? objectTag algorithm
  let (null, rest) ← expect? nullTag parameters
  guard (object = rsaEncryption ∧ null = [] ∧ rest = [])
  let (key, bs) ← expect? octetsTag bs
  let extensions ← extensions? bs.length bs
  let publicKeys := extensions.filter (·.tag % 0x20 == 1)
  guard ((version = 0 ∧ publicKeys.isEmpty) ∨
    (version = 1 ∧ publicKeys.any fun i => i.tag == 0x81 && i.content.head? == some 0))
  rsaKey? key

end Rehoming.Keys.Der
