import Rehoming.Bytes
import Rehoming.Crypto.Poly1305

/-! The stream cipher ChaCha20 with nonces of 24 bytes, and the authenticated
encryption that it forms with Poly1305. -/

namespace Rehoming.Crypto.ChaCha20

def rotl (w : UInt32) (n : UInt32) : UInt32 := w <<< n ||| w >>> (32 - n)

/-- The words "expand 32-byte k". -/
def constants : List UInt32 := [0x61707865, 0x3320646e, 0x79622d32, 0x6b206574]

def quarter (v : Array UInt32) (i j k l : Nat) : Array UInt32 :=
  let a := v.getD i 0
  let b := v.getD j 0
  let c := v.getD k 0
  let d := v.getD l 0
  let a := a + b
  let d := rotl (d ^^^ a) 16
  let c := c + d
  let b := rotl (b ^^^ c) 12
  let a := a + b
  let d := rotl (d ^^^ a) 8
  let c := c + d
  let b := rotl (b ^^^ c) 7
  (((v.setIfInBounds i a).setIfInBounds j b).setIfInBounds k c).setIfInBounds l d

/-- The columns and then the diagonals of the four by four words. -/
def lanes : List (Nat × Nat × Nat × Nat) :=
  [(0, 4, 8, 12), (1, 5, 9, 13), (2, 6, 10, 14), (3, 7, 11, 15),
   (0, 5, 10, 15), (1, 6, 11, 12), (2, 7, 8, 13), (3, 4, 9, 14)]

/-- Twenty rounds: ten times the columns and the diagonals. -/
def permute (words : List UInt32) : List UInt32 :=
  let double (v : Array UInt32) : Array UInt32 :=
    lanes.foldl (fun v lane => quarter v lane.1 lane.2.1 lane.2.2.1 lane.2.2.2) v
  ((List.range 10).foldl (fun v _ => double v) words.toArray).toList

/-- The 64 bytes of keystream at a counter, under a nonce of 12 bytes. -/
def block (key nonce : Bytes) (counter : Nat) : Bytes :=
  let words := constants ++ Bytes.words32LE key ++ [UInt32.ofNat counter] ++ Bytes.words32LE nonce
  (List.zipWith (· + ·) words (permute words)).flatMap Bytes.ofWord32LE

/-- A key for one nonce: the outer rows of the permuted words, without the final
addition. -/
def subkey (key nonce16 : Bytes) : Bytes :=
  let words := permute (constants ++ Bytes.words32LE key ++ Bytes.words32LE nonce16)
  (words.take 4 ++ words.drop 12).flatMap Bytes.ofWord32LE

/-- At least `length` bytes of keystream from block `first` on. -/
def keystream (key nonce : Bytes) (first length : Nat) : Bytes :=
  (List.range ((length + 63) / 64)).flatMap fun i => block key nonce (first + i)

def apply (key nonce : Bytes) (first : Nat) (text : Bytes) : Bytes :=
  Bytes.xor text (keystream key nonce first text.length)

def zerosTo16 (length : Nat) : Bytes := List.replicate ((16 - length % 16) % 16) 0

/-- The tag of a ciphertext with no data beside it. -/
def tag (key nonce ciphertext : Bytes) : Bytes :=
  Poly1305.tag ((block key nonce 0).take 32)
    (ciphertext ++ zerosTo16 ciphertext.length ++ Bytes.ofNatLE 8 0
      ++ Bytes.ofNatLE 8 ciphertext.length)

/-- The key and the short nonce that stand for a key and a nonce of 24 bytes. -/
def narrow (key nonce : Bytes) : Bytes × Bytes :=
  (subkey key (nonce.take 16), [0, 0, 0, 0] ++ nonce.drop 16)

/-- Encrypts and appends the tag of 16 bytes. -/
def encrypt (key nonce plaintext : Bytes) : Bytes :=
  let (key, nonce) := narrow key nonce
  let ciphertext := apply key nonce 1 plaintext
  ciphertext ++ tag key nonce ciphertext

/-- Undoes `encrypt`, unless the tag is not the one of the ciphertext. -/
def decrypt? (key nonce sealed : Bytes) : Option Bytes :=
  let (key, nonce) := narrow key nonce
  let ciphertext := sealed.take (sealed.length - 16)
  if 16 ≤ sealed.length ∧ sealed.drop (sealed.length - 16) = tag key nonce ciphertext then
    some (apply key nonce 1 ciphertext)
  else none

end Rehoming.Crypto.ChaCha20
