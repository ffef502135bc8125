import Rehoming.Decoding
import Rehoming.Placement
import Rehoming.Resealing
import Rehoming.Sanitizing

/-! Encoding brigades for a destination, and opening what was encoded there. -/

namespace Rehoming

open Crypto Keys

/-- A prepared payload can only be opened for the same brigade and reservation. -/
def preparedKey (brigadeId reservationId : String) (secret : Bytes) : CompositeKey :=
  ((CompositeKey.empty.text brigadeId).text reservationId).part secret

/-- Encrypts a brigade under a new secret, which is wrapped for the destination. -/
def Brigade.prepare (suite : CipherSuite) (destination : Rsa.PublicKey) (reservationId : String)
    (entropy : Entropy) (b : Brigade) : Except Error PreparedSnapshot := do
  let secret := newSecret (entropy.child 0)
  let wrapped ← suite.wrap destination (entropy.child 1) secret
  let payload := Payload.encrypt suite (preparedKey b.id reservationId secret) (entropy.child 2)
    b.toBytes
  return { brigadeId := b.id, address := b.address, domainNames := b.domainNames,
           secret := Base64.encodeText wrapped, payload := Base64.encodeText payload }

/-- Undoes `Brigade.prepare`. -/
def PreparedSnapshot.decode (suite : CipherSuite) (authority : AuthorityKey)
    (reservationId : String) (limit : Nat) (s : PreparedSnapshot) : Except Error Brigade := do
  let secret ← suite.unwrapField authority s.secret "snapshot secret"
  openBrigade suite (preparedKey s.brigadeId reservationId secret) limit s.payload s.brigadeId

/-- The encoder of a run: sanitizes the brigade, reseals it for the node's router,
and encodes it for the destination. -/
def snapshotEncoder (suite : CipherSuite) (master : MasterKey) (destination : Rsa.PublicKey)
    (reservationId : String) (entropy : Entropy) : SlotEncoder := fun call => do
  let own := entropy.child call.ordinal
  let resealer := routerResealer suite master call.router (own.child 0)
  let recoded ← (call.brigade.sanitize.recode resealer call.slot).result.mapError
    (.inBrigade call.brigade.id .recode)
  (recoded.prepare suite destination reservationId (own.child 1)).mapError
    (.inBrigade call.brigade.id .encode)

end Rehoming
