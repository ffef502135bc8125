import Rehoming.Bytes
import Rehoming.Crypto.Poly1305

/-! The stream cipher Salsa20 with nonces of 24 bytes, and the secret box that it
forms with Poly1305. -/

namespace Rehoming.Crypto.Salsa20

private def rotl (w : UInt32) (n : UInt32) : UInt32 := w <<< n ||| w >>> (32 - n)

/-- The words "expand 32-byte k". -/
def constants : List UInt32 := [0x61707865, 0x3320646e, 0x79622d32, 0x6b206574]

private def quarter (v : Array UInt32) (i j k l : Nat) : Array UInt32 :=
  let a := v.getD i 0
  let b := v.getD j 0
  let c := v.getD k 0
  let d := v.getD l 0
  let b := b ^^^ rotl (a + d) 7
  let c := c ^^^ rotl (b + a) 9
  let d := d ^^^ rotl (c + b) 13
  let a := a ^^^ rotl (d + c) 18
  (((v.setIfInBounds i a).setIfInBounds j b).setIfInBounds k c).setIfInBounds l d

/-- The columns and then the rows of the four by four words, each from the
diagonal on. -/
def lanes : List (Nat × Nat × Nat × Nat) :=
  [(0, 4, 8, 12), (5, 9, 13, 1), (10, 14, 2, 6), (15, 3, 7, 11),
   (0, 1, 2, 3), (5, 6, 7, 4), (10, 11, 8, 9), (15, 12, 13, 14)]

/-- Twenty rounds: ten times the columns and the rows. -/
def permute (words : List UInt32) : List UInt32 :=
  let double (v : Array UInt32) : Array UInt32 :=
    lanes.foldl (fun v lane => quarter v lane.1 lane.2.1 lane.2.2.1 lane.2.2.2) v
  ((List.range 10).foldl (fun v _ => double v) words.toArray).toList

/-- The words with the constants on the diagonal, the two halves of the key
beside it, and the four words of input in the middle. -/
def layout (key input : Bytes) : List UInt32 :=
  let ks := Bytes.words32LE key
  let ns := Bytes.words32LE input
  constants.take 1 ++ ks.take 4 ++ (constants.drop 1).take 1 ++ ns ++ (constants.drop 2).take 1
    ++ ks.drop 4 ++ constants.drop 3

/-- The 64 bytes of keystream at a counter, under a nonce of 8 bytes. -/
def block (key nonce : Bytes) (counter : Nat) : Bytes :=
  let words := layout key (nonce ++ Bytes.ofNatLE 8 counter)
  (List.zipWith (· + ·) words (permute words)).flatMap Bytes.ofWord32LE

/-- A key for one input of 16 bytes: the diagonal and the middle of the permuted
words, without the final addition. -/
def subkey (key input : Bytes) : Bytes :=
  let words := (permute (layout key input)).toArray
  [0, 5, 10, 15, 6, 7, 8, 9].flatMap fun i => Bytes.ofWord32LE (words.getD i 0)

/-- At least `length` bytes of keystream. -/
def keystream (key nonce : Bytes) (length : Nat) : Bytes :=
  (List.range ((length + 63) / 64)).flatMap fun i => block key nonce i

/-- The tag key and the bytes to combine with a text of `length` bytes. -/
def pads (key nonce : Bytes) (length : Nat) : Bytes × Bytes :=
  let stream := keystream (subkey key (nonce.take 16)) (nonce.drop 16) (32 + length)
  (stream.take 32, stream.drop 32)

/-- A tag of 16 bytes followed by the ciphertext, under a nonce of 24 bytes. -/
def encrypt (key nonce plaintext : Bytes) : Bytes :=
  let (tagKey, stream) := pads key nonce plaintext.length
  let ciphertext := Bytes.xor plaintext stream
  Poly1305.tag tagKey ciphertext ++ ciphertext

/-- Undoes `encrypt`, unless the tag is not the one of the ciphertext. -/
def decrypt? (key nonce sealed : Bytes) : Option Bytes :=
  let ciphertext := sealed.drop 16
  let (tagKey, stream) := pads key nonce ciphertext.length
  if 16 ≤ sealed.length ∧ sealed.take 16 = Poly1305.tag tagKey ciphertext then
    some (Bytes.xor ciphertext stream)
  else none

end Rehoming.Crypto.Salsa20
