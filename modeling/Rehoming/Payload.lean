import Rehoming.CipherSuite

/-! Payloads: compressed, and encrypted under material that several parties bring
together. A payload starts with the nonce it was encrypted under. -/

namespace Rehoming

/-- Key material, part after part. Nothing marks where a part ends. -/
structure CompositeKey where
  material : Bytes
  deriving DecidableEq

namespace CompositeKey

def empty : CompositeKey := ⟨[]⟩

def part (key : CompositeKey) (bytes : Bytes) : CompositeKey := ⟨key.material ++ bytes⟩

def text (key : CompositeKey) (s : String) : CompositeKey := key.part (Text.Utf8.ofString s)

/-- Whole seconds, as a signed number of eight bytes. -/
def time (key : CompositeKey) (seconds : Int) : CompositeKey :=
  key.part (Bytes.ofNatBE 8 (seconds % UInt64.size).toNat)

/-- What is shown of a key: only how long it is. -/
def describe (key : CompositeKey) : String :=
  "CompositeKey \x7b len: " ++ toString key.material.length ++ ", .. \x7d"

end CompositeKey

/-- Secrets made for a single use have this many bytes. -/
def secretSize : Nat := 32

def newSecret (entropy : Entropy) : Bytes := entropy.bytes secretSize

namespace Payload

def nonceSize : Nat := 24
def tagSize : Nat := 16

def encrypt (suite : CipherSuite) (key : CompositeKey) (entropy : Entropy) (plaintext : Bytes) :
    Bytes :=
  let nonce := entropy.bytes nonceSize
  nonce ++ suite.encrypt key.material nonce (suite.compress plaintext)

/-- Opens a payload whose content is at most `limit` bytes long. -/
def decrypt (suite : CipherSuite) (key : CompositeKey) (limit : Nat) (sealed : Bytes) :
    Except Error Bytes :=
  if sealed.length < nonceSize + tagSize then
    .error (.decryptionFailed
      s!"payload too short: {sealed.length} bytes (minimum {nonceSize + tagSize})")
  else
    match suite.decrypt? key.material (sealed.take nonceSize) (sealed.drop nonceSize) with
    | none => .error (.decryptionFailed "payload: wrong key or corrupted data")
    | some compressed =>
      match Zstd.decompress? limit compressed with
      | none => .error (.encoding "zstd decompress: malformed or too long")
      | some plaintext => .ok plaintext

end Payload
end Rehoming
