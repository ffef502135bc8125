import Rehoming.Bytes
import Rehoming.Crypto.Sha256

/-! RSA keys, and encryption to them with the padding OAEP over SHA-256. -/

namespace Rehoming.Crypto.Rsa

/-- `a` to the power of `e` modulo `n`, by the bits of `e` from the top. -/
def powMod (a e n : Nat) : Nat :=
  (List.range (e.log2 + 1)).foldr
    (fun i acc =>
      let acc := acc * acc % n
      if e.testBit i then acc * a % n else acc) (1 % n)

structure PublicKey where
  modulus : Nat
  exponent : Nat
  deriving DecidableEq

/-- The length of the modulus in bytes. -/
def PublicKey.size (key : PublicKey) : Nat := Bytes.width key.modulus

/-- A key pair with the two factors of its modulus. -/
structure PrivateKey where
  publicKey : PublicKey
  exponent : Nat
  p : Nat
  q : Nat
  deriving DecidableEq

/-- Why numbers do not make up a key. -/
inductive KeyFault where
  | tooLarge
  | modulus
  | publicExponent
  | factors
  | privateExponent
  deriving DecidableEq

def KeyFault.message : KeyFault → String
  | .tooLarge => "modulus too large"
  | .modulus => "invalid modulus"
  | .publicExponent => "invalid public exponent"
  | .factors => "invalid prime factors"
  | .privateExponent => "invalid private exponent"

/-- The modulus is odd and above the exponent, which is odd, above one and below 2^33. -/
def PublicKey.check (key : PublicKey) : Except KeyFault Unit :=
  if key.modulus ≤ key.exponent ∨ key.modulus % 2 = 0 then .error .modulus
  else if key.exponent % 2 = 0 ∨ key.exponent < 2 ∨ 1 <<< 33 ≤ key.exponent then
    .error .publicExponent
  else .ok ()

/-- The checks for a key that others made: as above, and at most 4096 bits. -/
def PublicKey.checkForeign (key : PublicKey) : Except KeyFault Unit :=
  if 1 <<< 4096 ≤ key.modulus then .error .tooLarge else key.check

/-- The factors give the modulus, and the exponents undo each other modulo each
factor less one. Whether the factors are prime is not looked at. -/
def PrivateKey.check (key : PrivateKey) : Except KeyFault Unit := do
  key.publicKey.check
  if key.p < 2 ∨ key.q < 2 ∨ key.p * key.q ≠ key.publicKey.modulus then throw .factors
  let product := key.publicKey.exponent * key.exponent
  if product % (key.p - 1) ≠ 1 % (key.p - 1) ∨ product % (key.q - 1) ≠ 1 % (key.q - 1) then
    throw .privateExponent

/-- A number that gives `g` = gcd when multiplied by `a` modulo `n`, with `g`. -/
private def bezout : (fuel a b : Nat) → (x y : Int) → Nat × Int
  | 0, a, _, x, _ => (a, x)
  | fuel + 1, a, b, x, y =>
    if b = 0 then (a, x) else bezout fuel b (a % b) y (x - (a / b : Nat) * y)

/-- The inverse of `a` modulo `n`, if there is one. -/
def inverse? (a n : Nat) : Option Nat :=
  let (g, x) := bezout (2 * (n.log2 + a.log2) + 4) (a % n) n 1 0
  if g = 1 then some (x % n).toNat else none

/-- Raises to the private exponent, modulo each factor where they allow it. -/
def PrivateKey.raise (key : PrivateKey) (c : Nat) : Nat :=
  match inverse? key.q key.p with
  | some inverse =>
    let a := powMod (c % key.p) (key.exponent % (key.p - 1)) key.p
    let b := powMod (c % key.q) (key.exponent % (key.q - 1)) key.q
    (a + key.p - b % key.p) * inverse % key.p * key.q + b
  | none => powMod c key.exponent key.publicKey.modulus

/-- The mask of OAEP: digests of the seed with a counter behind it. -/
def mask (seed : Bytes) (length : Nat) : Bytes :=
  ((List.range ((length + 31) / 32)).flatMap fun i =>
    Sha256.digest (seed ++ Bytes.ofNatBE 4 i)).take length

/-- The digest of the empty label. -/
def labelDigest : Bytes := Sha256.digest []

/-- The padded form, one byte shorter than the modulus and without the zero byte
in front; there must be room for `message` and 66 bytes more. -/
def pad (size : Nat) (seed message : Bytes) : Bytes :=
  let block := labelDigest ++ List.replicate (size - 66 - message.length) 0 ++ [1] ++ message
  let maskedBlock := Bytes.xor block (mask seed block.length)
  Bytes.xor seed (mask maskedBlock 32) ++ maskedBlock

/-- The message in a padded form of at least 64 bytes. -/
def unpad? (padded : Bytes) : Option Bytes :=
  let maskedBlock := padded.drop 32
  let seed := Bytes.xor (padded.take 32) (mask maskedBlock 32)
  let block := Bytes.xor maskedBlock (mask seed maskedBlock.length)
  match (block.drop 32).dropWhile (· == 0) with
  | 1 :: message => if block.take 32 = labelDigest then some message else none
  | _ => none

/-- The ciphertext of a message, as long as the modulus; nothing for a message
that leaves no room for the padding. The seed has 32 bytes. -/
def PublicKey.encrypt? (key : PublicKey) (seed message : Bytes) : Option Bytes :=
  if key.size < message.length + 66 then none
  else
    let m := Bytes.toNatBE (pad key.size seed message)
    some (Bytes.ofNatBE key.size (powMod m key.exponent key.modulus))

/-- The message of a ciphertext, which must be as long as the modulus. -/
def PrivateKey.decrypt? (key : PrivateKey) (ciphertext : Bytes) : Option Bytes := do
  let size := key.publicKey.size
  let c := Bytes.toNatBE ciphertext
  guard (ciphertext.length = size ∧ 66 ≤ size ∧ c < key.publicKey.modulus)
  let m := key.raise c
  guard (powMod m key.publicKey.exponent key.publicKey.modulus = c)
  match Bytes.ofNatBE size m with
  | 0 :: padded => unpad? padded
  | _ => none

end Rehoming.Crypto.Rsa
