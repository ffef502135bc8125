import Rehoming.Bytes

/-! The one-time authenticator Poly1305: a polynomial in the first half of the
key, whose coefficients are the message's blocks, modulo 2^130 - 5. -/

namespace Rehoming.Crypto.Poly1305

def modulus : Nat := (1 <<< 130) - 5

/-- The bits that the point of evaluation may have. -/
def pointMask : Nat := 0x0ffffffc0ffffffc0ffffffc0fffffff

/-- A block with a one bit after its last byte. -/
def coefficient (block : Bytes) : Nat := Bytes.toNatLE block + (1 <<< (8 * block.length))

def evaluate (point : Nat) (message : Bytes) : Nat :=
  (message.chunks 16).foldl (fun sum block => (sum + coefficient block) * point % modulus) 0

/-- The tag of a message under a key of 32 bytes, which must serve only once. -/
def tag (key message : Bytes) : Bytes :=
  let point := Bytes.toNatLE (key.take 16) &&& pointMask
  Bytes.ofNatLE 16 (evaluate point message + Bytes.toNatLE (key.drop 16))

theorem length_tag (key message : Bytes) : (tag key message).length = 16 :=
  Bytes.length_ofNatLE ..

end Rehoming.Crypto.Poly1305
