import Rehoming.Encoding
import Rehoming.Proofs.Restore.Resealing

/-! What a prepared snapshot opens to at its destination: the brigade that was encoded,
sanitized, at the address of the snapshot, and with its secrets resealed for the router
of the node. -/

namespace Rehoming

open Crypto Keys

variable {suite : CipherSuite} {destination : AuthorityKey}

/-- A snapshot opens to what its document is read as, if that is not longer than is allowed. -/
theorem Brigade.decode_prepare_of_read (payloads : suite.OpensPayloads)
    (secrets : suite.Unwraps destination) {b restored : Brigade}
    (read : ofBytes? b.toBytes = some restored) (named : restored.id = b.id)
    {reservationId : String} {entropy : Entropy} {s : PreparedSnapshot}
    (prepared : b.prepare suite destination.publicKey reservationId entropy = .ok s) (limit : Nat) :
    s.decode suite destination reservationId limit =
      if Zstd.Fits limit b.toBytes then .ok restored else .error Payload.tooLong := by
  obtain ⟨wrapped, secret, made⟩ := bind_ok_iff.mp prepared
  cases made
  have opened := CipherSuite.unwrapField_encodeText secrets secret "snapshot secret"
  simp only [PreparedSnapshot.decode, opened, bind, Except.bind]
  rw [← named]
  exact openBrigade_encrypt_of_read payloads read _ limit _

/-- What a snapshot says about its brigade in the open. -/
theorem Brigade.prepare_labels {b : Brigade} {key : Rsa.PublicKey} {reservationId : String}
    {entropy : Entropy} {s : PreparedSnapshot}
    (prepared : b.prepare suite key reservationId entropy = .ok s) :
    s.brigadeId = b.id ∧ s.address = b.address ∧ s.domainNames = [b.domain] := by
  obtain ⟨wrapped, -, made⟩ := bind_ok_iff.mp prepared
  cases made
  exact ⟨rfl, rfl, rfl⟩

/-- A snapshot names its brigade, and opens to it if its document is not longer than is
allowed. -/
theorem Brigade.decode_prepare (payloads : suite.OpensPayloads)
    (secrets : suite.Unwraps destination) {b : Brigade} (canonical : b.Canonical)
    (integral : b.Integral) {reservationId : String} {entropy : Entropy} {s : PreparedSnapshot}
    (prepared : b.prepare suite destination.publicKey reservationId entropy = .ok s) :
    (s.brigadeId = b.id ∧ s.address = b.address ∧ s.domainNames = [b.domain]) ∧
      ∀ limit, s.decode suite destination reservationId limit =
        if Zstd.Fits limit b.toBytes then .ok b else .error Payload.tooLong :=
  ⟨prepare_labels prepared,
    decode_prepare_of_read payloads secrets (ofBytes?_toBytes canonical integral) rfl prepared⟩

/-- What a snapshot is worth at its destination, for a node with this router. -/
structure PreparedSnapshot.Restores (suite : CipherSuite) (master : MasterKey)
    (destination : AuthorityKey) (router : RouterKey) (reservationId : String) (b : Brigade)
    (s : PreparedSnapshot) : Prop where
  brigadeId : s.brigadeId = b.id
  domainNames : s.domainNames = [b.domain]
  opens : ∃ restored : Brigade,
    b.sanitize.Resealed (suite.CarriesOver master router) s.address restored ∧
      ∀ ceiling : UInt64, restored.toBytes.length ≤ ceiling.toNat →
        s.decode suite destination reservationId ceiling.toNat = .ok restored

/-- **Encoded brigades are restored.** What a run encodes for a slot opens, at its
destination, to what is to be served there. -/
theorem snapshotEncoder_restores (payloads : suite.OpensPayloads)
    (secrets : suite.Unwraps destination) (boxes : suite.OpensBoxes) {master : MasterKey}
    {reservationId : String} {entropy : Entropy} {call : EncodeCall} {s : PreparedSnapshot}
    (canonical : call.brigade.Canonical) (integral : call.brigade.Integral)
    (encoded : snapshotEncoder suite master destination.publicKey reservationId entropy call =
      .ok s) :
    s.address = call.slot ∧
      s.Restores suite master destination call.router reservationId call.brigade := by
  obtain ⟨recoded, walked, prepared⟩ := bind_ok_iff.mp encoded
  have sound := CipherSuite.routerResealer_sound boxes master call.router
  have resealed := Brigade.recode_resealed (sound _) (mapError_ok_iff.mp walked)
  obtain ⟨⟨id, address, domainNames⟩, decoded⟩ := Brigade.decode_prepare payloads secrets
    (resealed.canonical (Brigade.sanitize_canonical canonical))
    (resealed.integral (Brigade.sanitize_integral integral)) (mapError_ok_iff.mp prepared)
  have slot : s.address = call.slot := address.trans resealed.address
  refine ⟨slot, id.trans resealed.id, ?_, recoded, slot ▸ resealed, fun ceiling fits => ?_⟩
  · rw [domainNames, resealed.domain]
    rfl
  · rw [decoded, if_pos ⟨fits, Nat.lt_of_le_of_lt fits ceiling.toNat_lt⟩]

end Rehoming
