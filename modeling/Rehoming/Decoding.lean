import Rehoming.Bundle
import Rehoming.Brigade
import Rehoming.Payload
import Rehoming.Event

/-! Recovering brigades from their envelopes. Fingerprints are compared before
anything is decrypted. -/

namespace Rehoming

open Keys

/-- Whether an envelope is for this authority, with the authority's share. -/
def Envelope.shareFor (e : Envelope) (fingerprint : String) : Except Error String :=
  if !e.realmFingerprint.isEmpty then
    .error (.invalidSnapshot "non-empty realm key fingerprint")
  else if e.authorityFingerprint.isEmpty then
    .error (.invalidSnapshot "empty authority key fingerprint")
  else if e.authorityFingerprint ≠ fingerprint then
    .error (.keysMismatch ("authority: " ++ fingerprint ++ " != " ++ e.authorityFingerprint))
  else
    match e.shares.get? fingerprint with
    | some share => .ok share
    | none => .error (.invalidSnapshot ("no secret for authority: " ++ fingerprint))

/-- The key of the payload: what the envelope says, and all three secrets. -/
def Envelope.key (e : Envelope) (shared locker share : Bytes) : CompositeKey :=
  ((((((CompositeKey.empty.text e.tag).text e.brigadeId).time e.globalTime.seconds).time
    e.localTime.seconds).part shared).part locker).part share

/-- The brigade in a payload, which must be the one expected. -/
def openBrigade (suite : CipherSuite) (key : CompositeKey) (limit : Nat)
    (payload brigadeId : String) : Except Error Brigade := do
  let sealed ← decodeField payload "payload"
  let document ← Payload.decrypt suite key limit sealed
  match Brigade.ofBytes? document with
  | none => throw .badJson
  | some brigade =>
    if brigade.id = brigadeId then return brigade
    else throw (.invalidSnapshot ("brigade id mismatch: " ++ brigade.id ++ " != " ++ brigadeId))

/-- The brigade in an envelope. -/
def Envelope.decode (suite : CipherSuite) (authority : AuthorityKey) (shared : Bytes)
    (limit : Nat) (e : Envelope) : Except Error Brigade := do
  let share ← e.shareFor authority.fingerprint
  let locker ← suite.unwrapField authority e.lockerSecret "locker secret"
  let share ← suite.unwrapField authority share "authority secret"
  openBrigade suite (e.key shared locker share) limit e.payload e.brigadeId

/-- The results of tasks that ended in the given order: all of them, in the order
of the tasks, or the first failure to come in. -/
def gather {α : Type} (order : List Nat) (results : List (Except Error α)) :
    Except Error (List α) :=
  let failure := order.findSome? fun (i : Nat) =>
    match (results[i]? : Option (Except Error α)) with
    | some (.error e) => some e
    | _ => none
  match failure with
  | some e => .error e
  | none => .ok (results.filterMap Except.toOption)

/-- The secret that all envelopes of a bundle share. -/
def Bundle.shared (suite : CipherSuite) (authority : AuthorityKey) (b : Bundle) :
    Except Error Bytes :=
  suite.unwrapField authority b.sharedSecret "pre-shared secret"

/-- What comes of each envelope. Errors say which brigade they are about. -/
def Bundle.brigades (suite : CipherSuite) (authority : AuthorityKey) (shared : Bytes)
    (limit : Nat) (b : Bundle) : List (Except Error Brigade) :=
  b.envelopes.map fun e =>
    (e.decode suite authority shared limit).mapError (.inBrigade e.brigadeId .decode)

/-- The brigades before the first failure. -/
def successes {α : Type} : List (Except Error α) → List α
  | .ok a :: rest => a :: successes rest
  | _ => []

/-- All brigades of a bundle, where decoding ends in the given order. -/
def Bundle.decodeIn (suite : CipherSuite) (authority : AuthorityKey) (limit : Nat)
    (order : List Nat) (b : Bundle) : Logged (List Brigade) := do
  let shared ← Logged.lift (b.shared suite authority)
  let results := b.brigades suite authority shared limit
  let done := successes (order.filterMap fun i => results[i]?)
  Logged.emitAll (done.map fun b => .decoded b.id b.address)
  Logged.lift (gather order results)

/-- All brigades of a bundle, decoded one after another. -/
def Bundle.decode (suite : CipherSuite) (authority : AuthorityKey) (limit : Nat) (b : Bundle) :
    Logged (List Brigade) :=
  b.decodeIn suite authority limit (List.range b.envelopes.length)

/-- The order in which tasks end that run side by side, if some of them do first. -/
def completion (count : Nat) (first : List Nat) : List Nat :=
  (first ++ List.range count).eraseDups

end Rehoming
