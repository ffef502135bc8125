import Rehoming.Export
import Rehoming.Proofs.Base64
import Rehoming.Proofs.Documents.Brigades
import Rehoming.Proofs.Restore.Decoding
import Rehoming.Proofs.Restore.Payloads

/-! What a bundle opens to. The authority that a bundle was made for finds in it the
brigades that went in, or nothing: an envelope never opens to another brigade. -/

namespace Rehoming

open Keys

/-! ## Wrapped secrets -/

theorem decodeField_encodeText (bytes : Bytes) (what : String) :
    decodeField (Base64.encodeText bytes) what = .ok bytes := by
  rw [decodeField, Base64.decodeText_encodeText]

namespace CipherSuite

/-- What is relied on of the cipher that secrets are wrapped with: this authority gets
back what was wrapped for it. -/
def Unwraps (suite : CipherSuite) (key : AuthorityKey) : Prop :=
  ∀ entropy secret ciphertext, suite.wrap? key.publicKey entropy secret = some ciphertext →
    suite.unwrap? key.privateKey ciphertext = some secret

variable {suite : CipherSuite} {key : AuthorityKey} {entropy : Entropy} {secret : Bytes}

theorem unwrapField_encodeText (law : suite.Unwraps key) {ciphertext : Bytes}
    (wrapped : suite.wrap key.publicKey entropy secret = .ok ciphertext) (what : String) :
    suite.unwrapField key (Base64.encodeText ciphertext) what = .ok secret := by
  have given : suite.wrap? key.publicKey entropy secret = some ciphertext := by
    unfold wrap at wrapped
    split at wrapped
    · rename_i given
      cases wrapped
      exact given
    · cases wrapped
  simp only [unwrapField, decodeField_encodeText, bind, Except.bind, law _ _ _ given]
  rfl

theorem unwrapField_wrapSecret {x : Exporter} (law : suite.Unwraps x.authority) {text : String}
    (wrapped : Exporter.wrapSecret suite x entropy secret = .ok text) (what : String) :
    suite.unwrapField x.authority text what = .ok secret := by
  obtain ⟨ciphertext, given, made⟩ := bind_ok_iff.mp wrapped
  cases made
  exact unwrapField_encodeText law given what

end CipherSuite

/-! ## Envelopes -/

variable {suite : CipherSuite} {x : Exporter} {b : Brigade}

/-- What a document is read as is found in its payload, if the document is not longer than is
allowed. -/
theorem openBrigade_encrypt_of_read (law : suite.OpensPayloads) {document : Bytes}
    (read : Brigade.ofBytes? document = some b) (key : CompositeKey) (limit : Nat)
    (entropy : Entropy) :
    openBrigade suite key limit
        (Base64.encodeText (Payload.encrypt suite key entropy document)) b.id =
      if Zstd.Fits limit document then .ok b else .error Payload.tooLong := by
  have opened := Payload.decrypt_encrypt law key limit entropy document
  by_cases fits : Zstd.Fits limit document
  · rw [if_pos fits] at opened ⊢
    simp only [openBrigade, decodeField_encodeText, bind, Except.bind, opened, read, if_true]
    rfl
  · rw [if_neg fits] at opened ⊢
    simp only [openBrigade, decodeField_encodeText, bind, Except.bind, opened]

/-- A brigade in a payload is found there, if its document is not longer than is allowed. -/
theorem openBrigade_encrypt (law : suite.OpensPayloads) (canonical : b.Canonical)
    (integral : b.Integral) (key : CompositeKey) (limit : Nat) (entropy : Entropy) :
    openBrigade suite key limit
        (Base64.encodeText (Payload.encrypt suite key entropy b.toBytes)) b.id =
      if Zstd.Fits limit b.toBytes then .ok b else .error Payload.tooLong :=
  openBrigade_encrypt_of_read law (Brigade.ofBytes?_toBytes canonical integral) key limit entropy

/-- What a payload for an id opens to, step by step. -/
theorem openBrigade_ok {key : CompositeKey} {limit : Nat} {payload id : String}
    (opened : openBrigade suite key limit payload id = .ok b) :
    ∃ sealed document, decodeField payload "payload" = .ok sealed ∧
      Payload.decrypt suite key limit sealed = .ok document ∧ Brigade.ofBytes? document = some b ∧
      b.id = id := by
  obtain ⟨sealed, text, opened⟩ := bind_ok_iff.mp opened
  obtain ⟨document, decrypted, opened⟩ := bind_ok_iff.mp opened
  split at opened
  · cases opened
  · rename_i brigade read
    split at opened
    · rename_i named
      cases opened
      exact ⟨sealed, document, text, decrypted, read, named⟩
    · cases opened

/-- What an exporter puts into an envelope: three secrets, two of them wrapped beside
the payload that all three protect. -/
theorem Exporter.wrap_ok {entropy : Entropy} {shared : Bytes} {e : Envelope}
    (wrapped : x.wrap suite entropy shared b = .ok e) :
    e.brigadeId = b.id ∧ e.realmFingerprint = "" ∧
      e.authorityFingerprint = x.authority.fingerprint ∧ ∃ locker share text,
        x.wrapSecret suite (entropy.child 2) locker = .ok e.lockerSecret ∧
        x.wrapSecret suite (entropy.child 3) share = .ok text ∧
        e.shares = NameMap.empty.insert x.authority.fingerprint text ∧
        e.payload = Base64.encodeText (Payload.encrypt suite (e.key shared locker share)
          (entropy.child 4) b.toBytes) := by
  obtain ⟨lockerSecret, locker, wrapped⟩ := bind_ok_iff.mp wrapped
  obtain ⟨text, share, wrapped⟩ := bind_ok_iff.mp wrapped
  cases wrapped
  refine ⟨rfl, rfl, rfl, _, _, text, locker, share, rfl, ?_⟩
  -- the key does not depend on the payload that is put in last
  simp only [Envelope.key]

theorem Envelope.shareFor_ok_iff {e : Envelope} {fingerprint share : String} :
    e.shareFor fingerprint = .ok share ↔ e.realmFingerprint = "" ∧ e.authorityFingerprint ≠ "" ∧
      e.authorityFingerprint = fingerprint ∧ e.shares.get? fingerprint = some share := by
  unfold shareFor
  by_cases unbound : e.realmFingerprint = ""
  · by_cases named : e.authorityFingerprint = ""
    · simp [unbound, named]
    · by_cases mine : e.authorityFingerprint = fingerprint
      · cases e.shares.get? fingerprint <;> simp [unbound, mine ▸ named, mine]
      · simp [unbound, named, mine]
  · simp [unbound]

/-- An envelope opens to the brigade that was put into it, if its document is not longer
than is allowed. -/
theorem Envelope.decode_wrap (payloads : suite.OpensPayloads) (secrets : suite.Unwraps x.authority)
    (named : x.authority.fingerprint ≠ "") (canonical : b.Canonical) (integral : b.Integral)
    {entropy : Entropy} {shared : Bytes} {e : Envelope}
    (wrapped : x.wrap suite entropy shared b = .ok e) (limit : Nat) :
    e.decode suite x.authority shared limit =
      if Zstd.Fits limit b.toBytes then .ok b else .error Payload.tooLong := by
  obtain ⟨id, unbound, mine, locker, share, text, lockerWrapped, shareWrapped, shares, payload⟩ :=
    Exporter.wrap_ok wrapped
  have given : e.shareFor x.authority.fingerprint = .ok text := by
    refine shareFor_ok_iff.mpr ⟨unbound, mine ▸ named, mine, ?_⟩
    simp [shares, NameMap.get?, NameMap.insert, NameMap.put, NameMap.empty]
  have locker' := CipherSuite.unwrapField_wrapSecret secrets lockerWrapped "locker secret"
  have share' := CipherSuite.unwrapField_wrapSecret secrets shareWrapped "authority secret"
  simp only [decode, given, locker', share', bind, Except.bind]
  rw [payload, id, openBrigade_encrypt payloads canonical integral]

theorem Envelope.eq_of_decode_wrap (payloads : suite.OpensPayloads)
    (secrets : suite.Unwraps x.authority) (canonical : b.Canonical) (integral : b.Integral)
    {entropy : Entropy} {shared : Bytes} {limit : Nat} {e : Envelope} {found : Brigade}
    (wrapped : x.wrap suite entropy shared b = .ok e)
    (decoded : e.decode suite x.authority shared limit = .ok found) : found = b := by
  have named : x.authority.fingerprint ≠ "" := by
    obtain ⟨text, given, -⟩ := bind_ok_iff.mp decoded
    obtain ⟨-, named, mine, -⟩ := shareFor_ok_iff.mp given
    exact mine ▸ named
  rw [decode_wrap payloads secrets named canonical integral wrapped] at decoded
  split at decoded
  · cases decoded
    rfl
  · cases decoded

/-! ## Bundles -/

/-- A bundle holds the secret that its envelopes share, and an envelope for each brigade. -/
theorem Exporter.bundle_ok {entropy : Entropy} {brigades : List Brigade} {bundle : Bundle}
    (bundled : x.bundle suite entropy brigades = .ok bundle) :
    ∃ shared, x.wrapSecret suite (entropy.child 1) shared = .ok bundle.sharedSecret ∧
      List.Forall₂ (fun b e => ∃ own, x.wrap suite own shared b = .ok e) brigades
        bundle.envelopes := by
  obtain ⟨sharedSecret, shared, bundled⟩ := bind_ok_iff.mp bundled
  obtain ⟨envelopes, wrapped, bundled⟩ := bind_ok_iff.mp bundled
  cases bundled
  refine ⟨_, shared, ?_⟩
  rw [mapM_ok_iff, List.zipIdx_map, List.forall₂_map_left_iff] at wrapped
  rw [← List.zipIdx_map_fst 0 brigades, List.forall₂_map_left_iff]
  exact wrapped.imp fun _ _ made => ⟨_, made⟩

/-- Envelopes open to the brigades that were put into them, in order. -/
theorem Envelope.eq_of_decode_wraps (payloads : suite.OpensPayloads)
    (secrets : suite.Unwraps x.authority) {shared : Bytes} {limit : Nat} {brigades : List Brigade}
    {envelopes : List Envelope} {out : List Brigade} (canonical : ∀ b ∈ brigades, b.Canonical)
    (integral : ∀ b ∈ brigades, b.Integral)
    (wrapped : List.Forall₂ (fun b e => ∃ own, x.wrap suite own shared b = .ok e) brigades
      envelopes)
    (decoded : List.Forall₂ (fun e b => e.decode suite x.authority shared limit = .ok b)
      envelopes out) : out = brigades := by
  induction wrapped generalizing out with
  | nil =>
    cases decoded
    rfl
  | @cons b e brigades envelopes here _ ih =>
    obtain ⟨own, here⟩ := here
    obtain ⟨canonical, canonicals⟩ := List.forall_mem_cons.mp canonical
    obtain ⟨integral, integrals⟩ := List.forall_mem_cons.mp integral
    cases decoded with
    | @cons _ found _ out opened more =>
      have same : found = b := eq_of_decode_wrap payloads secrets canonical integral here opened
      have rest : out = brigades := ih canonicals integrals more
      rw [same, rest]

/-- **Bundles open to what went in.** What the authority decodes a bundle to are the
brigades that the bundle was made of, in order. -/
theorem Bundle.eq_of_decode (payloads : suite.OpensPayloads) (secrets : suite.Unwraps x.authority)
    {entropy : Entropy} {brigades : List Brigade} (canonical : ∀ b ∈ brigades, b.Canonical)
    (integral : ∀ b ∈ brigades, b.Integral) {bundle : Bundle} {limit : Nat} {out : List Brigade}
    (bundled : x.bundle suite entropy brigades = .ok bundle)
    (decoded : (bundle.decode suite x.authority limit).result = .ok out) : out = brigades := by
  obtain ⟨shared, wrapped, envelopes⟩ := Exporter.bundle_ok bundled
  obtain ⟨shared', opened, decoded⟩ := decode_ok_iff.mp decoded
  have same : shared' = shared := by
    have there := CipherSuite.unwrapField_wrapSecret secrets wrapped "pre-shared secret"
    exact Except.ok.inj (opened.symm.trans there)
  subst same
  exact Envelope.eq_of_decode_wraps payloads secrets canonical integral envelopes decoded

theorem Envelope.decode_wraps (payloads : suite.OpensPayloads)
    (secrets : suite.Unwraps x.authority) (named : x.authority.fingerprint ≠ "") {shared : Bytes}
    {limit : Nat} {brigades : List Brigade} {envelopes : List Envelope}
    (canonical : ∀ b ∈ brigades, b.Canonical) (integral : ∀ b ∈ brigades, b.Integral)
    (fits : ∀ b ∈ brigades, Zstd.Fits limit b.toBytes)
    (wrapped : List.Forall₂ (fun b e => ∃ own, x.wrap suite own shared b = .ok e) brigades
      envelopes) :
    (envelopes.map fun e => (e.decode suite x.authority shared limit).mapError
      (Error.inBrigade e.brigadeId .decode)) = brigades.map .ok := by
  induction wrapped with
  | nil => rfl
  | @cons b e brigades envelopes here _ ih =>
    obtain ⟨own, here⟩ := here
    obtain ⟨canonical, canonicals⟩ := List.forall_mem_cons.mp canonical
    obtain ⟨integral, integrals⟩ := List.forall_mem_cons.mp integral
    obtain ⟨fit, fits⟩ := List.forall_mem_cons.mp fits
    have first : e.decode suite x.authority shared limit = .ok b := by
      rw [decode_wrap payloads secrets named canonical integral here, if_pos fit]
    rw [List.map_cons, first, ih canonicals integrals fits]
    rfl

/-- A bundle is decoded if none of its documents is longer than is allowed. -/
theorem Bundle.decode_of_fits (payloads : suite.OpensPayloads)
    (secrets : suite.Unwraps x.authority) (named : x.authority.fingerprint ≠ "")
    {entropy : Entropy} {brigades : List Brigade} (canonical : ∀ b ∈ brigades, b.Canonical)
    (integral : ∀ b ∈ brigades, b.Integral) {bundle : Bundle} {limit : Nat}
    (fits : ∀ b ∈ brigades, Zstd.Fits limit b.toBytes)
    (bundled : x.bundle suite entropy brigades = .ok bundle) :
    (bundle.decode suite x.authority limit).result = .ok brigades := by
  obtain ⟨shared, wrapped, envelopes⟩ := Exporter.bundle_ok bundled
  have opened : bundle.shared suite x.authority = .ok shared :=
    CipherSuite.unwrapField_wrapSecret secrets wrapped "pre-shared secret"
  refine decode_ok_iff.mpr ⟨shared, opened, ?_⟩
  have all := Envelope.decode_wraps payloads secrets named canonical integral fits envelopes
  rw [← List.forall₂_eq_eq_eq, List.forall₂_map_left_iff, List.forall₂_map_right_iff] at all
  exact all.imp fun _ _ => mapError_ok_iff.mp

end Rehoming
