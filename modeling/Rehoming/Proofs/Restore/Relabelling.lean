import Rehoming.Proofs.Restore.Binding

/-! Prepared snapshots that are taken for something else. The key of a snapshot has the id of its
brigade and that of its reservation in it with nothing between them, so other pairs of ids make the
same key. Main statement: a snapshot opens for the brigade and the reservation that it was prepared
for and for nothing else. Where the ids make another key this is for want of the key, and where
they make the same one, for the id in the payload. -/

namespace Rehoming

open Keys

variable {suite : CipherSuite}

theorem Text.Utf8.ofString_append (s t : String) :
    ofString (s ++ t) = ofString s ++ ofString t := by
  rw [ofString, encode, String.toList_append, List.flatMap_append]
  rfl

/-- Ids make the same key exactly if they are the same text together. -/
theorem preparedKey_material_iff {id id' reservation reservation' : String} {secret : Bytes} :
    (preparedKey id' reservation' secret).material = (preparedKey id reservation secret).material ↔
      id' ++ reservation' = id ++ reservation := by
  have material (id reservation : String) : (preparedKey id reservation secret).material =
      Text.Utf8.ofString (id ++ reservation) ++ secret := by
    rw [Text.Utf8.ofString_append]
    rfl
  rw [material, material]
  constructor
  · exact fun same => Text.Utf8.ofString_inj (List.append_cancel_right same)
  · exact fun same => by rw [same]

/-- No other key opens a payload. -/
theorem Payload.decrypt_of_ne (payloads : suite.OpensPayloads) (binds : suite.BindsMaterial)
    {key other : CompositeKey} (apart : other.material ≠ key.material) (limit : Nat)
    (entropy : Entropy) (plaintext : Bytes) :
    decrypt suite other limit (encrypt suite key entropy plaintext) =
      .error (.decryptionFailed "payload: wrong key or corrupted data") := by
  have sized : (entropy.bytes nonceSize).length = nonceSize := entropy.length_bytes nonceSize
  have tagged := payloads.tagged key.material _ (suite.compress plaintext) sized
  have long : ¬ (encrypt suite key entropy plaintext).length < nonceSize + tagSize := by
    rw [encrypt, List.length_append, sized]
    omega
  rw [decrypt, if_neg long]
  split
  · rfl
  · rename_i compressed opened
    rw [encrypt, List.take_left' sized, List.drop_left' sized] at opened
    exact absurd (binds _ _ _ _ _ sized opened) apart

/-- A payload that is opened with its own key holds its own brigade, whatever id is expected. -/
theorem openBrigade_expecting (payloads : suite.OpensPayloads) {b : Brigade}
    (canonical : b.Canonical) (integral : b.Integral) (key : CompositeKey) {limit : Nat}
    (entropy : Entropy) (fits : Zstd.Fits limit b.toBytes) (id : String) :
    openBrigade suite key limit (Base64.encodeText (Payload.encrypt suite key entropy b.toBytes))
        id =
      if b.id = id then .ok b
      else .error (.invalidSnapshot ("brigade id mismatch: " ++ b.id ++ " != " ++ id)) := by
  have opened := Payload.decrypt_encrypt payloads key limit entropy b.toBytes
  rw [if_pos fits] at opened
  simp only [openBrigade, decodeField_encodeText, opened,
    Brigade.ofBytes?_toBytes canonical integral, bind, Except.bind]
  rfl

/-- **Snapshots are bound to their brigade and their reservation.** A snapshot that was prepared of
what a document gives is relabelled, and opened for some reservation where documents of its length
are allowed. It gives its brigade back if both ids are those that it was prepared for. If they are
others, but make the same key, it is refused for the id that is in the payload; if they make another
key, it cannot be decrypted. -/
theorem PreparedSnapshot.decode_relabelled (payloads : suite.OpensPayloads)
    (binds : suite.BindsMaterial) {destination : AuthorityKey}
    (secrets : suite.Unwraps destination) {document : Bytes} {b : Brigade}
    (read : Brigade.ofBytes? document = some b) (integral : b.Integral) {reservationId : String}
    {entropy : Entropy} {s : PreparedSnapshot}
    (prepared : b.prepare suite destination.publicKey reservationId entropy = .ok s)
    {ceiling : UInt64} (fits : b.toBytes.length ≤ ceiling.toNat)
    (brigadeId' reservationId' : String) :
    ({ s with brigadeId := brigadeId' } : PreparedSnapshot).decode suite destination reservationId'
        ceiling.toNat =
      if brigadeId' = b.id ∧ reservationId' = reservationId then .ok b
      else if brigadeId' ++ reservationId' = b.id ++ reservationId then
        .error (.invalidSnapshot ("brigade id mismatch: " ++ b.id ++ " != " ++ brigadeId'))
      else .error (.decryptionFailed "payload: wrong key or corrupted data") := by
  obtain ⟨wrapped, secret, made⟩ := bind_ok_iff.mp prepared
  cases made
  have unwrapped := CipherSuite.unwrapField_encodeText secrets secret "snapshot secret"
  have within : Zstd.Fits ceiling.toNat b.toBytes :=
    ⟨fits, Nat.lt_of_le_of_lt fits ceiling.toNat_lt⟩
  simp only [PreparedSnapshot.decode, unwrapped, bind, Except.bind]
  by_cases joined : brigadeId' ++ reservationId' = b.id ++ reservationId
  · have key : preparedKey brigadeId' reservationId' (newSecret (entropy.child 0)) =
        preparedKey b.id reservationId (newSecret (entropy.child 0)) :=
      congrArg CompositeKey.mk (preparedKey_material_iff.mpr joined)
    rw [key, openBrigade_expecting payloads (Brigade.ofBytes?_canonical read) integral _ _ within,
      if_pos joined]
    by_cases same : brigadeId' = b.id
    · -- ids that make the same key agree in both parts once they agree in one
      have rest : reservationId' = reservationId := by
        rw [same] at joined
        exact String.append_right_inj _ |>.mp joined
      rw [if_pos same.symm, if_pos ⟨same, rest⟩]
    · rw [if_neg (Ne.symm same), if_neg fun both => same both.1]
  · have apart : (preparedKey brigadeId' reservationId' (newSecret (entropy.child 0))).material ≠
        (preparedKey b.id reservationId (newSecret (entropy.child 0))).material :=
      fun same => joined (preparedKey_material_iff.mp same)
    have unequal : ¬ (brigadeId' = b.id ∧ reservationId' = reservationId) := by
      rintro ⟨rfl, rfl⟩
      exact joined rfl
    rw [if_neg unequal, if_neg joined]
    simp only [openBrigade, decodeField_encodeText, bind, Except.bind,
      Payload.decrypt_of_ne payloads binds apart]

open SmallRun in
/-- The id of the brigade may move over to the reservation; then only the payload gives it away. -/
theorem PreparedSnapshot.decode_relabelled_moved :
    ∃ s, brigade.prepare .labelled authority.publicKey "r" ⟨[]⟩ = .ok s ∧ s.brigadeId = "b" ∧
      s.decode .labelled authority "r" 1000 = .ok brigade ∧
      ({ s with brigadeId := "" } : PreparedSnapshot).decode .labelled authority "br" 1000 =
        .error (.invalidSnapshot "brigade id mismatch: b != ") ∧
      s.decode .labelled authority "q" 1000 =
        .error (.decryptionFailed "payload: wrong key or corrupted data") := by
  obtain ⟨s, prepared⟩ : ∃ s, brigade.prepare .labelled authority.publicKey "r" ⟨[]⟩ = .ok s :=
    ⟨_, rfl⟩
  have read := Brigade.ofBytes?_toBytes brigade_canonical brigade_integral
  have fits : brigade.toBytes.length ≤ (1000 : UInt64).toNat := by decide +kernel
  have opened := decode_relabelled CipherSuite.labelled_opensPayloads
    CipherSuite.labelled_bindsMaterial (CipherSuite.labelled_unwraps authority) read
    brigade_integral prepared fits
  have id : s.brigadeId = "b" := by
    cases prepared
    rfl
  have own : ({ s with brigadeId := "b" } : PreparedSnapshot) = s := by rw [← id]
  exact ⟨s, prepared, id, own ▸ opened "b" "r", opened "" "br", own ▸ opened "b" "q"⟩

end Rehoming
