import Mathlib.Algebra.Group.Int.Defs
import Rehoming.Proofs.Documents.Identity
import Rehoming.Proofs.Restore.Runs
import Rehoming.Proofs.Times.Texts

/-! What a payload is bound to. Its key is made of texts, times and secrets with nothing in
between, so one and the same key could stand for two ways of cutting it up. Main statement: it
does not. An envelope only opens with the tag, the id, the times and the three secrets that its
payload was sealed with; of the texts, the id is known from the brigade in the payload. -/

namespace Rehoming

open Keys

/-! ## Times -/

/-- A number of seconds that fits into eight bytes with a sign. -/
def Timestamp.Representable (t : Timestamp) : Prop := -2 ^ 63 ≤ t.seconds ∧ t.seconds < 2 ^ 63

instance (t : Timestamp) : Decidable t.Representable :=
  inferInstanceAs (Decidable (_ ∧ _))

/-- Within the years that dates may have, seconds are far from running out of eight bytes. -/
theorem Timestamp.days_bounds {days : Int} (low : minYear ≤ (dateOfDays days).1)
    (high : (dateOfDays days).1 ≤ maxYear) : -100000000 ≤ days ∧ days ≤ 100000000 := by
  simp only [dateOfDays, minYear, maxYear] at low high
  split at low <;> split at high <;> omega

theorem Timestamp.ofParts?_representable {year : Int} {month day hour minute second nanos : Nat}
    {offset : Int} {t : Timestamp}
    (h : ofParts? year month day hour minute second nanos offset = some t) : t.Representable := by
  obtain ⟨-, -, h⟩ := Option.bind_eq_some_iff.mp h
  obtain ⟨-, -, h⟩ := Option.bind_eq_some_iff.mp h
  obtain ⟨⟨⟩, years, made⟩ := Option.bind_eq_some_iff.mp h
  obtain ⟨low, high⟩ := (Option.guard_eq_some' _).mp years
  cases made
  have days := days_bounds low high
  constructor <;> dsimp only <;> omega

/-- Every time that a document can give fits. -/
theorem Timestamp.ofText?_representable {text : String} {t : Timestamp}
    (h : ofText? text = some t) : t.Representable := by
  obtain ⟨year, month, day, hour, minute, second, nanos, offset, -, -, made⟩ := exists_ofParts? h
  exact ofParts?_representable made

theorem Bytes.ofNatBE_inj {n m : Nat} (hn : n < UInt64.size) (hm : m < UInt64.size)
    (h : ofNatBE 8 n = ofNatBE 8 m) : n = m := by
  have same := congrArg toNatLE (List.reverse_injective h)
  rw [toNatLE_ofNatLE, toNatLE_ofNatLE] at same
  have size : 1 <<< (8 * 8) = UInt64.size := rfl
  rwa [size, Nat.mod_eq_of_lt hn, Nat.mod_eq_of_lt hm] at same

/-- The eight bytes of a time tell its seconds. -/
theorem Timestamp.seconds_inj {s t : Timestamp} (hs : s.Representable) (ht : t.Representable)
    (h : Bytes.ofNatBE 8 (s.seconds % UInt64.size).toNat =
      Bytes.ofNatBE 8 (t.seconds % UInt64.size).toNat) : s.seconds = t.seconds := by
  have bound (i : Int) : (i % UInt64.size).toNat < UInt64.size := by
    unfold UInt64.size
    omega
  have same := Bytes.ofNatBE_inj (bound _) (bound _) h
  obtain ⟨low, high⟩ := hs
  obtain ⟨low', high'⟩ := ht
  unfold UInt64.size at same
  omega

/-! ## Keys -/

theorem Text.Utf8.ofString_inj {s t : String} (h : ofString s = ofString t) : s = t := by
  have chars := congrArg symbols h
  rw [ofString, ofString, symbols_encode, symbols_encode] at chars
  exact String.toList_inj.mp (List.map_injective_iff.mpr (Option.some_injective _) chars)

theorem Envelope.key_material (e : Envelope) (shared locker share : Bytes) :
    (e.key shared locker share).material = Text.Utf8.ofString e.tag ++
      Text.Utf8.ofString e.brigadeId ++
      Bytes.ofNatBE 8 (e.globalTime.seconds % UInt64.size).toNat ++
      Bytes.ofNatBE 8 (e.localTime.seconds % UInt64.size).toNat ++ shared ++ locker ++ share := rfl

/-- What goes into the key of an envelope, with secrets of the usual size. -/
structure Envelope.Keyed (e : Envelope) (shared locker share : Bytes) : Prop where
  globalTime : e.globalTime.Representable
  localTime : e.localTime.Representable
  shared : shared.length = secretSize
  locker : locker.length = secretSize
  share : share.length = secretSize

/-- What two envelopes and their secrets have in common: all that keys are made of. -/
structure Envelope.SameKey (e f : Envelope) (shared shared' locker locker' share share' : Bytes) :
    Prop where
  tag : f.tag = e.tag
  brigadeId : f.brigadeId = e.brigadeId
  globalTime : f.globalTime.seconds = e.globalTime.seconds
  localTime : f.localTime.seconds = e.localTime.seconds
  shared : shared' = shared
  locker : locker' = locker
  share : share' = share

/-- A key tells what it was made of once the id is known: all but the two texts has a width of its
own, and is cut off from the end. -/
theorem Envelope.sameKey_of_material {e f : Envelope}
    {shared shared' locker locker' share share' : Bytes} (id : f.brigadeId = e.brigadeId)
    (keyed : e.Keyed shared locker share) (keyed' : f.Keyed shared' locker' share')
    (h : (f.key shared' locker' share').material = (e.key shared locker share).material) :
    e.SameKey f shared shared' locker locker' share share' := by
  rw [key_material, key_material] at h
  obtain ⟨h, share⟩ := List.append_inj' h (keyed'.share.trans keyed.share.symm)
  obtain ⟨h, locker⟩ := List.append_inj' h (keyed'.locker.trans keyed.locker.symm)
  obtain ⟨h, shared⟩ := List.append_inj' h (keyed'.shared.trans keyed.shared.symm)
  have width (n m : Nat) : (Bytes.ofNatBE 8 n).length = (Bytes.ofNatBE 8 m).length := by
    rw [Bytes.length_ofNatBE, Bytes.length_ofNatBE]
  obtain ⟨h, localTime⟩ := List.append_inj' h (width _ _)
  obtain ⟨h, globalTime⟩ := List.append_inj' h (width _ _)
  rw [id] at h
  have tag := Text.Utf8.ofString_inj (List.append_cancel_right h)
  exact ⟨tag, id, Timestamp.seconds_inj keyed'.globalTime keyed.globalTime globalTime,
    Timestamp.seconds_inj keyed'.localTime keyed.localTime localTime, shared, locker, share⟩

/-! ## Payloads -/

/-- What is relied on of the cipher that payloads are encrypted with, besides that it undoes
itself: other key material opens nothing. -/
def CipherSuite.BindsMaterial (suite : CipherSuite) : Prop :=
  ∀ material other nonce plaintext opened : Bytes, nonce.length = Payload.nonceSize →
    suite.decrypt? other nonce (suite.encrypt material nonce plaintext) = some opened →
      other = material

variable {suite : CipherSuite}

/-- A payload only opens under its own key. -/
theorem Payload.material_of_decrypt (binds : suite.BindsMaterial) {key other : CompositeKey}
    {entropy : Entropy} {plaintext found : Bytes} {limit : Nat}
    (opened : decrypt suite other limit (encrypt suite key entropy plaintext) = .ok found) :
    other.material = key.material := by
  have sized : (entropy.bytes nonceSize).length = nonceSize := entropy.length_bytes nonceSize
  obtain ⟨compressed, there, -⟩ := decrypt_ok opened
  rw [encrypt, List.take_left' sized, List.drop_left' sized] at there
  exact binds _ _ _ _ _ sized there

/-- A payload that opens for an id holds a brigade with that id, and is opened with its own key. -/
theorem openBrigade_sealed (payloads : suite.OpensPayloads) (binds : suite.BindsMaterial)
    {key other : CompositeKey} {entropy : Entropy} {b found : Brigade} {limit : Nat} {id : String}
    (opened : openBrigade suite other limit
      (Base64.encodeText (Payload.encrypt suite key entropy b.toBytes)) id = .ok found) :
    other.material = key.material ∧ id = b.id := by
  obtain ⟨sealed, document, text, decrypted, read, named⟩ := openBrigade_ok opened
  rw [decodeField_encodeText] at text
  cases text
  have same := Payload.material_of_decrypt binds decrypted
  have own : document = b.toBytes := by
    have content := Payload.decrypt_encrypt payloads key limit entropy b.toBytes
    have keys : other = key := congrArg CompositeKey.mk same
    rw [keys] at decrypted
    rw [decrypted] at content
    split at content
    · exact Except.ok.inj content
    · cases content
  subst own
  exact ⟨same, named.symm.trans (Brigade.id_of_ofBytes?_toBytes read)⟩

/-! ## Envelopes -/

/-- The secrets that an authority finds in an envelope that is for it. -/
structure Envelope.Finds (suite : CipherSuite) (authority : AuthorityKey) (e : Envelope)
    (locker share : Bytes) : Prop where
  locker : suite.unwrapField authority e.lockerSecret "locker secret" = .ok locker
  share : ∃ text, e.shareFor authority.fingerprint = .ok text ∧
    suite.unwrapField authority text "authority secret" = .ok share

/-- An authority that decodes an envelope does it with the secrets that it finds there. -/
theorem Envelope.Finds.decode {authority : AuthorityKey} {e : Envelope} {locker share : Bytes}
    (finds : e.Finds suite authority locker share) (shared : Bytes) (limit : Nat) :
    e.decode suite authority shared limit =
      openBrigade suite (e.key shared locker share) limit e.payload e.brigadeId := by
  obtain ⟨opened, text, given, opened'⟩ := finds
  simp only [Envelope.decode, given, opened, opened', bind, Except.bind]

/-- What an exporter seals is keyed by times and secrets of the usual size. -/
theorem Exporter.wrap_sealed {x : Exporter} {entropy : Entropy} {shared : Bytes} {b : Brigade}
    {e : Envelope} (sized : shared.length = secretSize)
    (wrapped : x.wrap suite entropy shared b = .ok e) :
    let locker := newSecret (entropy.child 0)
    let share := newSecret (entropy.child 1)
    e.brigadeId = b.id ∧ e.Keyed shared locker share ∧
      e.payload = Base64.encodeText (Payload.encrypt suite (e.key shared locker share)
        (entropy.child 4) b.toBytes) := by
  obtain ⟨lockerSecret, -, wrapped⟩ := bind_ok_iff.mp wrapped
  obtain ⟨text, -, wrapped⟩ := bind_ok_iff.mp wrapped
  cases wrapped
  refine ⟨rfl, ⟨?_, ?_, sized, Entropy.length_bytes _ _, Entropy.length_bytes _ _⟩, ?_⟩
  · show Exporter.globalTime.Representable
    decide
  · show Exporter.localTime.Representable
    decide
  · simp only [Envelope.key]

/-- The authority of the exporter finds the secrets that the exporter made. -/
theorem Exporter.wrap_finds {x : Exporter} (secrets : suite.Unwraps x.authority)
    (named : x.authority.fingerprint ≠ "") {entropy : Entropy} {shared : Bytes} {b : Brigade}
    {e : Envelope} (wrapped : x.wrap suite entropy shared b = .ok e) :
    e.Finds suite x.authority (newSecret (entropy.child 0)) (newSecret (entropy.child 1)) := by
  obtain ⟨lockerSecret, locker, wrapped⟩ := bind_ok_iff.mp wrapped
  obtain ⟨text, share, wrapped⟩ := bind_ok_iff.mp wrapped
  cases wrapped
  refine ⟨CipherSuite.unwrapField_wrapSecret secrets locker _, text, ?_,
    CipherSuite.unwrapField_wrapSecret secrets share _⟩
  refine Envelope.shareFor_ok_iff.mpr ⟨rfl, named, rfl, ?_⟩
  simp [NameMap.get?, NameMap.insert, NameMap.put, NameMap.empty]

/-- **A payload only opens for what it was sealed for.** Take an envelope as it was exported, and
any envelope with the same payload, whose times are such as documents give. If an authority finds
secrets of the usual size in the second one and decodes it, the two agree on tag, id and whole
seconds, and all three secrets are those that the exporter made. -/
theorem Envelope.sameKey_of_decode (payloads : suite.OpensPayloads)
    (binds : suite.BindsMaterial) {x : Exporter} {entropy : Entropy} {shared : Bytes} {b : Brigade}
    {e : Envelope} (sized : shared.length = secretSize)
    (wrapped : x.wrap suite entropy shared b = .ok e) {authority : AuthorityKey} {f : Envelope}
    (payload : f.payload = e.payload) {shared' locker' share' : Bytes}
    (finds : f.Finds suite authority locker' share') (keyed : f.Keyed shared' locker' share')
    {limit : Nat} {found : Brigade} (decoded : f.decode suite authority shared' limit = .ok found) :
    e.SameKey f shared shared' (newSecret (entropy.child 0)) locker' (newSecret (entropy.child 1))
      share' := by
  obtain ⟨id, own, content⟩ := Exporter.wrap_sealed sized wrapped
  rw [finds.decode, payload, content] at decoded
  obtain ⟨material, named⟩ := openBrigade_sealed payloads binds decoded
  exact sameKey_of_material (named.trans id.symm) own keyed material

/-! ## A small envelope -/

namespace CipherSuite

/-- Key material with a mark in front of each byte, and another mark behind it. -/
def marked (material : Bytes) : Bytes := material.flatMap (fun b => [1, b]) ++ [0]

/-- What stands behind this key material. -/
def behind? : (material bytes : Bytes) → Option Bytes
  | [], 0 :: rest => some rest
  | b :: material, 1 :: c :: rest => if b = c then behind? material rest else none
  | _, _ => none

theorem behind?_marked (material rest : Bytes) :
    behind? material (marked material ++ rest) = some rest := by
  induction material with
  | nil => rfl
  | cons b material ih =>
    show (if b = b then behind? material (marked material ++ rest) else none) = some rest
    rw [if_pos rfl, ih]

theorem eq_of_behind? {material other rest found : Bytes}
    (h : behind? other (marked material ++ rest) = some found) : other = material := by
  induction material generalizing other with
  | nil =>
    cases other with
    | nil => rfl
    | cons b other => cases h
  | cons c material ih =>
    cases other with
    | nil => cases h
    | cons b other =>
      have step : (if b = c then behind? other (marked material ++ rest) else none) =
          some found := h
      split at step
      · rename_i same
        rw [same, ih step]
      · cases step

/-- Payloads carry their key material openly, and open for nobody who has other material. -/
def labelled : CipherSuite :=
  { plain with
    encrypt := fun material _ plaintext =>
      List.replicate Payload.tagSize 0 ++ (marked material ++ plaintext)
    decrypt? := fun material _ ciphertext => behind? material (ciphertext.drop Payload.tagSize) }

theorem labelled_opensPayloads : labelled.OpensPayloads where
  opens material nonce plaintext _ := behind?_marked material plaintext
  tagged material nonce plaintext _ := by
    show Payload.tagSize ≤ (List.replicate Payload.tagSize 0 ++ _).length
    rw [List.length_append, List.length_replicate]
    exact Nat.le_add_right ..
  compresses := Zstd.compress_restores

theorem labelled_bindsMaterial : labelled.BindsMaterial :=
  fun _ _ _ _ _ _ opened => eq_of_behind? opened

theorem labelled_unwraps (key : AuthorityKey) : labelled.Unwraps key := plain_unwraps key

end CipherSuite

open SmallRun in
/-- The authority may have lost count of the nanoseconds. But when a character moves from the id
to the tag, which leaves the key as it was, the envelope is refused. -/
theorem Envelope.sameKey_of_decode_shifted :
    let shared := List.replicate 32 7
    let late (e : Envelope) : Envelope := { e with globalTime := ⟨e.globalTime.seconds, 5⟩ }
    let shifted (e : Envelope) : Envelope := { e with tag := e.tag ++ "b", brigadeId := "" }
    ∃ e, exporter.wrap .labelled ⟨[]⟩ shared brigade = .ok e ∧
      (∃ found, (late e).decode .labelled authority shared 1000 = .ok found) ∧
      e.SameKey (late e) shared shared (newSecret (Entropy.child ⟨[]⟩ 0))
        (newSecret (Entropy.child ⟨[]⟩ 0)) (newSecret (Entropy.child ⟨[]⟩ 1))
        (newSecret (Entropy.child ⟨[]⟩ 1)) ∧
      ((shifted e).key shared [] []).material = (e.key shared [] []).material ∧
      ∀ found, (shifted e).decode .labelled authority shared 1000 ≠ .ok found := by
  intro shared late shifted
  obtain ⟨e, wrapped⟩ : ∃ e, exporter.wrap .labelled ⟨[]⟩ shared brigade = .ok e := ⟨_, rfl⟩
  have payloads := CipherSuite.labelled_opensPayloads
  have binds := CipherSuite.labelled_bindsMaterial
  have secrets := CipherSuite.labelled_unwraps authority
  have sized : shared.length = secretSize := rfl
  have named : authority.fingerprint ≠ "" := by decide
  obtain ⟨id, keyed, -⟩ := Exporter.wrap_sealed sized wrapped
  have finds := Exporter.wrap_finds secrets named wrapped
  have opened : (late e).decode .labelled authority shared 1000 = .ok brigade := by
    have own := Envelope.decode_wrap payloads secrets named brigade_canonical brigade_integral
      wrapped 1000
    rw [if_pos (by decide +kernel)] at own
    exact own
  have lateKeyed : (late e).Keyed shared _ _ :=
    ⟨keyed.globalTime, keyed.localTime, sized, keyed.locker, keyed.share⟩
  have lateFinds : (late e).Finds .labelled authority _ _ := ⟨finds.locker, finds.share⟩
  have latePayload : (late e).payload = e.payload := rfl
  refine ⟨e, wrapped, ⟨brigade, opened⟩,
    sameKey_of_decode payloads binds sized wrapped latePayload lateFinds lateKeyed opened, ?_,
    fun found opened => ?_⟩
  · have moved : Text.Utf8.ofString (e.tag ++ "b") ++ Text.Utf8.ofString "" =
        Text.Utf8.ofString e.tag ++ Text.Utf8.ofString e.brigadeId := by
      rw [id]
      simp [Text.Utf8.ofString, Text.Utf8.encode, brigade, Brigade.named]
    rw [key_material, key_material]
    show Text.Utf8.ofString (e.tag ++ "b") ++ Text.Utf8.ofString "" ++ _ ++ _ ++ _ ++ _ ++ _ = _
    rw [moved]
  · have shiftedKeyed : (shifted e).Keyed shared _ _ :=
      ⟨keyed.globalTime, keyed.localTime, sized, keyed.locker, keyed.share⟩
    have shiftedFinds : (shifted e).Finds .labelled authority _ _ := ⟨finds.locker, finds.share⟩
    have shiftedPayload : (shifted e).payload = e.payload := rfl
    have same := sameKey_of_decode payloads binds sized wrapped shiftedPayload shiftedFinds
      shiftedKeyed opened
    have none : "" = e.brigadeId := same.brigadeId
    rw [id] at none
    exact absurd none (by decide)

end Rehoming
