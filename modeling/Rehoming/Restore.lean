import Rehoming.Encoding

/-! Whole runs over a bundle. What can be refused without secrets is refused before
anything is decrypted. -/

namespace Rehoming

open Crypto Keys

/-- The keys of a run. -/
structure RunKeys where
  /-- Opens the bundle. -/
  authority : AuthorityKey
  /-- Opens the secrets of brigades. -/
  master : MasterKey
  /-- The authority that the plan is for. -/
  destination : Rsa.PublicKey
  realmFingerprint : String

structure RunOptions where
  mode : PlacementMode
  /-- Go on although the exporter failed for some brigades. -/
  force : Bool
  policy : PlacementPolicy
  /-- Whether envelopes are decoded side by side. -/
  parallel : Bool
  /-- Which of them are done first then. This is not chosen, but may be any. -/
  settling : List Nat
  /-- The most bytes that a brigade may have. -/
  limit : Nat
  deriving DecidableEq

/-- What holds where nothing else is said. -/
def RunOptions.default : RunOptions where
  mode := .sequential
  force := false
  policy := .fatal
  parallel := true
  settling := []
  limit := 64 <<< 20

/-- Whether a bundle is complete and for this authority. That some exports failed is
only reported here. -/
def Bundle.checkIn (b : Bundle) (fingerprint : String) : Logged Unit := do
  let invalid (reason : String) : Logged Unit := Logged.fail (.invalidSnapshot reason)
  if b.updateTime.isUnset then invalid "update time is zero"
  if b.globalTime.isUnset then invalid "global snapshot time is zero"
  if b.tag.isEmpty then invalid "empty tag"
  if b.datacenterId.isEmpty then invalid "empty datacenter id"
  if !b.realmFingerprint.isEmpty then invalid "non-empty realm key fingerprint"
  if b.authorityFingerprint.isEmpty then invalid "empty authority key fingerprint"
  if b.sharedSecret.isEmpty then invalid "empty encrypted pre-shared secret"
  if b.envelopes.isEmpty then invalid "empty snapshots"
  if 0 < b.errorsCount then Logged.emit (.exportErrors b.errorsCount)
  if b.authorityFingerprint ≠ fingerprint then
    Logged.fail (.keysMismatch ("authority: " ++ fingerprint ++ " != " ++ b.authorityFingerprint))

/-- Whether there are as many slots as brigades. -/
def Bundle.checkCapacity (b : Bundle) (r : Reservation) : Except Error Unit :=
  if r.totalSlots < b.envelopes.length then
    .error (.reservationTooSmall b.envelopes.length r.totalSlots)
  else .ok ()

/-- All that is checked without secrets, with what comes of it. -/
def Bundle.screen (b : Bundle) (r : Reservation) (pins : Pins) (fingerprint : String)
    (force : Bool) : Logged (Topology × CheckedPins) := do
  b.checkIn fingerprint
  if 0 < b.errorsCount ∧ !force then Logged.fail (.exportErrors b.errorsCount)
  Logged.lift (b.checkCapacity r)
  let topology ← Logged.lift (Topology.ofReservation r)
  let pins ← topology.checkPins pins b.brigadeIds
  return (topology, pins)

/-- All brigades of a bundle, decoded as the options say. -/
def Bundle.decodeAll (suite : CipherSuite) (authority : AuthorityKey) (options : RunOptions)
    (b : Bundle) : Logged (List Brigade) :=
  if options.parallel then
    b.decodeIn suite authority options.limit (completion b.envelopes.length options.settling)
  else b.decode suite authority options.limit

/-- The plan by which a reservation takes in the brigades of a bundle. -/
def createRestorePlan (suite : CipherSuite) (entropy : Entropy) (keys : RunKeys)
    (options : RunOptions) (r : Reservation) (pins : Pins) (b : Bundle) : Logged RestorePlan := do
  let (topology, pins) ← b.screen r pins keys.authority.fingerprint options.force
  Logged.emit (.recoding b.envelopes.length topology.totalSlots topology.nodes.length options.mode)
  let brigades ← b.decodeAll suite keys.authority options
  buildPlan topology keys.realmFingerprint ⟨options.mode, options.policy, pins⟩
    (snapshotEncoder suite keys.master keys.destination topology.reservationId entropy) brigades

/-- The address that each brigade of a bundle has now. -/
def createMapping (suite : CipherSuite) (authority : AuthorityKey) (options : RunOptions)
    (b : Bundle) : Logged Pins := do
  b.checkIn authority.fingerprint
  let brigades ← b.decodeAll suite authority options
  return NameMap.ofList (brigades.map fun b => (b.id, b.address))

end Rehoming
