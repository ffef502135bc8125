import Rehoming.Payload
import Rehoming.Proofs.Crypto.ChaCha20
import Rehoming.Proofs.Zstd.Limits
import Rehoming.Proofs.Zstd.Stored

/-! Payloads open to what was encrypted. All that is asked of the cipher is that it undoes
itself under nonces of the right size and appends a tag, and of the compressor that the
content can be read back; ceilings and the nonce in front are taken care of here. -/

namespace Rehoming

/-! ## Entropy -/

theorem Crypto.Sha256.length_digest (message : Bytes) : (digest message).length = 32 := rfl

theorem Entropy.length_bytes (e : Entropy) (count : Nat) : (e.bytes count).length = count := by
  have whole : ((List.range ((count + 31) / 32)).flatMap fun i =>
      Crypto.Sha256.digest (0 :: (Bytes.ofNatBE 8 i ++ e.seed))).length =
        (count + 31) / 32 * 32 := by
    rw [List.length_flatMap]
    simp only [Crypto.Sha256.length_digest, List.map_const', List.length_range,
      List.sum_replicate_nat]
  rw [bytes, List.length_take, whole]
  omega

/-! ## The compressor -/

/-- Compressed content can be read back, unless it is longer than a header can say. -/
structure Zstd.Restores (compress : Bytes → Bytes) : Prop where
  restores : ∀ content, content.length < UInt64.size →
    decompress? content.length (compress content) = some content
  refuses : ∀ content, UInt64.size ≤ content.length →
    ∀ limit, decompress? limit (compress content) = none

/-- It is read back under exactly the limits that it is within. -/
theorem Zstd.Restores.decompress? {compress : Bytes → Bytes} (law : Restores compress)
    (limit : Nat) (content : Bytes) :
    Zstd.decompress? limit (compress content) =
      if Fits limit content then some content else none := by
  by_cases small : content.length < UInt64.size
  · rw [decompress?_exact (law.restores content small)]
    simp only [Fits, small, and_true]
  · rw [law.refuses content (Nat.not_lt.mp small), if_neg fun fits => small fits.2]

/-- Content that is stored as it is can be read back. -/
theorem Zstd.compress_restores : Restores compress where
  restores content small := by rw [decompress?_compress, if_pos ⟨Nat.le_refl _, small⟩]
  refuses content long limit := by
    rw [decompress?_compress, if_neg fun fits => Nat.not_lt.mpr long fits.2]

/-! ## The cipher -/

/-- What is relied on of the cipher that payloads are encrypted with, and of the compressor. -/
structure CipherSuite.OpensPayloads (suite : CipherSuite) : Prop where
  opens : ∀ material nonce plaintext : Bytes, nonce.length = Payload.nonceSize →
    suite.decrypt? material nonce (suite.encrypt material nonce plaintext) = some plaintext
  tagged : ∀ material nonce plaintext : Bytes, nonce.length = Payload.nonceSize →
    Payload.tagSize ≤ (suite.encrypt material nonce plaintext).length
  compresses : Zstd.Restores suite.compress

/-- The standard cipher keeps to it. -/
theorem CipherSuite.standard_opensPayloads : standard.OpensPayloads where
  opens _ _ plaintext sized :=
    Crypto.ChaCha20.decrypt?_encrypt (Crypto.Sha256.length_digest _) sized plaintext
  tagged material nonce plaintext _ := by
    show 16 ≤ (Crypto.ChaCha20.encrypt _ nonce plaintext).length
    rw [Crypto.ChaCha20.encrypt, List.length_append, Crypto.ChaCha20.tag,
      Crypto.Poly1305.length_tag]
    exact Nat.le_add_left ..
  compresses := Zstd.compress_restores

namespace Payload

/-- What is said of a payload that holds too much. -/
def tooLong : Error := .encoding "zstd decompress: malformed or too long"

theorem decrypt_of_opened {suite : CipherSuite} {key : CompositeKey} {limit : Nat}
    {nonce ciphertext compressed : Bytes} (sized : nonce.length = nonceSize)
    (tagged : tagSize ≤ ciphertext.length)
    (opened : suite.decrypt? key.material nonce ciphertext = some compressed) :
    decrypt suite key limit (nonce ++ ciphertext) =
      match Zstd.decompress? limit compressed with
      | none => .error tooLong
      | some plaintext => .ok plaintext := by
  have long : ¬ (nonce ++ ciphertext).length < nonceSize + tagSize := by
    rw [List.length_append, sized]
    omega
  rw [decrypt, if_neg long, List.take_left' sized, List.drop_left' sized, opened]
  rfl

/-- What a payload opens to was decrypted first, and is within the limit. -/
theorem decrypt_ok {suite : CipherSuite} {key : CompositeKey} {limit : Nat}
    {sealed document : Bytes} (h : decrypt suite key limit sealed = .ok document) :
    ∃ compressed, suite.decrypt? key.material (sealed.take nonceSize) (sealed.drop nonceSize) =
        some compressed ∧ Zstd.decompress? limit compressed = some document := by
  unfold decrypt at h
  split at h
  · cases h
  · split at h
    · cases h
    · rename_i compressed opened
      split at h
      · cases h
      · rename_i found
        cases h
        exact ⟨compressed, opened, found⟩

/-- **Payloads open to what was encrypted**, if that is not longer than is allowed. -/
theorem decrypt_encrypt {suite : CipherSuite} (law : suite.OpensPayloads) (key : CompositeKey)
    (limit : Nat) (entropy : Entropy) (plaintext : Bytes) :
    decrypt suite key limit (encrypt suite key entropy plaintext) =
      if Zstd.Fits limit plaintext then .ok plaintext else .error tooLong := by
  have sized : (entropy.bytes nonceSize).length = nonceSize := entropy.length_bytes nonceSize
  have opened := law.opens key.material _ (suite.compress plaintext) sized
  have tagged := law.tagged key.material _ (suite.compress plaintext) sized
  rw [encrypt, decrypt_of_opened sized tagged opened, law.compresses.decompress?]
  by_cases fits : Zstd.Fits limit plaintext
  · rw [if_pos fits, if_pos fits]
  · rw [if_neg fits, if_neg fits]

/-! ## The ceiling -/

/-- A payload that opens under some ceiling opens under exactly those that its content is within. -/
theorem decrypt_of_ok {suite : CipherSuite} {key : CompositeKey} {limit : Nat}
    {sealed document : Bytes} (h : decrypt suite key limit sealed = .ok document) (limit' : Nat) :
    decrypt suite key limit' sealed =
      if document.length ≤ limit' then .ok document else .error tooLong := by
  obtain ⟨compressed, opened, found⟩ := decrypt_ok h
  have long : ¬ sealed.length < nonceSize + tagSize := by
    intro short
    rw [decrypt, if_pos short] at h
    cases h
  rw [decrypt, if_neg long, opened]
  simp only [Zstd.decompress?_exact found limit']
  by_cases fits : document.length ≤ limit'
  · rw [if_pos fits, if_pos fits]
  · rw [if_neg fits, if_neg fits]
    rfl

/-- **The ceiling is exact.** If cipher and compressor can be undone, what was encrypted comes back
under exactly those ceilings that it is within. Of any other bytes too, under any key, no more is
given than the ceiling allows, and the same under any other that allows as much; bytes without room
for a nonce and a tag are not decrypted at all. -/
theorem decrypt_exact (suite : CipherSuite) (key : CompositeKey) (max : UInt64) :
    (suite.OpensPayloads → ∀ entropy plaintext,
      decrypt suite key max.toNat (encrypt suite key entropy plaintext) =
        if plaintext.length ≤ max.toNat then .ok plaintext else .error tooLong) ∧
    (∀ sealed content, decrypt suite key max.toNat sealed = .ok content →
      content.length ≤ max.toNat ∧ ∀ limit, decrypt suite key limit sealed =
        if content.length ≤ limit then .ok content else .error tooLong) ∧
    ∀ sealed, sealed.length < nonceSize + tagSize →
      ∃ reason, decrypt suite key max.toNat sealed = .error (.decryptionFailed reason) := by
  refine ⟨fun law entropy plaintext => ?_, fun sealed content h => ?_, fun sealed short => ?_⟩
  · -- the header has room for the length of whatever is within the ceiling
    have fits : Zstd.Fits max.toNat plaintext ↔ plaintext.length ≤ max.toNat :=
      and_iff_left_of_imp fun within => Nat.lt_of_le_of_lt within max.toNat_lt
    rw [decrypt_encrypt law]
    simp only [fits]
  · obtain ⟨compressed, -, found⟩ := decrypt_ok h
    exact ⟨Zstd.length_le_of_decompress? found, decrypt_of_ok h⟩
  · exact ⟨_, if_pos short⟩

/-- Three bytes fit, and four do not. -/
theorem decrypt_exact_three :
    let sealed := encrypt .standard ⟨[7]⟩ ⟨[1]⟩
    CipherSuite.standard.OpensPayloads ∧
      decrypt .standard ⟨[7]⟩ 3 (sealed [1, 2, 3]) = .ok [1, 2, 3] ∧
      decrypt .standard ⟨[7]⟩ 2 (sealed [1, 2, 3]) = .error tooLong ∧
      decrypt .standard ⟨[7]⟩ 3 (sealed [1, 2, 3, 4]) = .error tooLong ∧
      ∃ reason, decrypt .standard ⟨[7]⟩ 3 [1, 2, 3] = .error (.decryptionFailed reason) := by
  intro sealed
  obtain ⟨opens, bounded, short⟩ := decrypt_exact .standard ⟨[7]⟩ 3
  have law := CipherSuite.standard_opensPayloads
  have opened : decrypt .standard ⟨[7]⟩ 3 (sealed [1, 2, 3]) = .ok [1, 2, 3] :=
    opens law ⟨[1]⟩ [1, 2, 3]
  exact ⟨law, opened, (bounded _ _ opened).2 2, opens law ⟨[1]⟩ [1, 2, 3, 4],
    short [1, 2, 3] (by decide)⟩

end Payload
end Rehoming
