import Rehoming.Keys.Ssh
import Rehoming.Proofs.Bytes

/-! RSA public keys in fields. Integers are only read in their shortest form, so that the fields of
a key are told by its numbers. Main statements: what is read is what would be written for the same
numbers, and what is written is read back. -/

namespace Rehoming.Keys.Ssh

/-! ## Fields -/

theorem field_writeField {content : Bytes} (small : content.length < 1 <<< 20) (rest : Bytes) :
    field (writeField content ++ rest) = some (content, rest) := by
  have sized : (Bytes.ofNatBE 4 content.length).length = 4 := Bytes.length_ofNatBE _ _
  have length : Bytes.toNatBE (Bytes.ofNatBE 4 content.length) = content.length :=
    Bytes.toNatBE_ofNatBE (small.trans (by decide))
  have read : nat32 (writeField content ++ rest) = some (content.length, content ++ rest) := by
    rw [nat32, writeField, List.append_assoc, if_pos (by simp [sized]), List.take_left' sized,
      List.drop_left' sized, length]
  have room : content.length ≤ (content ++ rest).length := by simp
  simp only [field, read, bind, Option.bind, small, room, and_self, if_true, List.take_left,
    List.drop_left]

/-! ## Integers -/

/-- A signed integer that has no byte in front that it could do without, unless it is negative. -/
structure Shortest (content : Bytes) : Prop where
  nonzero : content ≠ [0]
  needed : ∀ b rest, content = 0 :: b :: rest → ¬ b < 128

theorem integer_eq_some_iff {bs content rest : Bytes} :
    integer bs = some (content, rest) ↔ field bs = some (content, rest) ∧ Shortest content := by
  unfold integer
  cases found : field bs with
  | none => simp
  | some p =>
    obtain ⟨content', rest'⟩ := p
    simp only [bind, Option.bind]
    split
    · refine iff_of_false nofun ?_
      rintro ⟨same, short⟩
      cases same
      exact short.nonzero rfl
    · rename_i b tail
      split
      · rename_i low
        refine iff_of_false nofun ?_
        rintro ⟨same, short⟩
        cases same
        exact short.needed b tail rfl low
      · rename_i high
        refine ⟨fun same => ⟨same, ?_⟩, fun both => both.1⟩
        cases same
        refine ⟨nofun, fun b' rest'' split => ?_⟩
        cases split
        exact high
    · rename_i notZero notPadded
      refine ⟨fun same => ⟨same, ?_⟩, fun both => both.1⟩
      cases same
      exact ⟨notZero, fun b tail padded => absurd padded (notPadded b tail)⟩

theorem ofNat_shortest (n : Nat) : Shortest (ofNat n) := by
  unfold ofNat
  split
  · exact ⟨nofun, nofun⟩
  · rename_i b rest digits
    have nonzero := Bytes.head_ofNat digits
    split
    · exact ⟨fun same => nonzero (List.cons.inj same).1, fun b' tail same =>
        absurd (List.cons.inj same).1 nonzero⟩
    · rename_i high
      refine ⟨nofun, fun b' tail same => ?_⟩
      cases same
      exact high

/-- An integer above zero that is in its shortest form is the one that is written. -/
theorem ofNat_of_positive {content : Bytes} {n : Nat} (short : Shortest content)
    (h : positive? content = some n) : ofNat n = content := by
  cases content with
  | nil => cases h
  | cons b rest =>
    rw [positive?] at h
    split at h
    · rename_i low
      cases h
      by_cases zero : b = 0
      · subst zero
        cases rest with
        | nil => exact absurd rfl short.nonzero
        | cons b rest =>
          have high := short.needed b rest rfl
          have nonzero : b ≠ 0 := by
            intro zero
            exact high (zero ▸ by decide)
          have value : Bytes.toNatBE (0 :: b :: rest) = Bytes.toNatBE (b :: rest) := by
            simp [Bytes.toNatBE_cons]
          rw [value, ofNat, Bytes.ofNat_toNatBE rest nonzero]
          exact if_neg high
      · rw [ofNat, Bytes.ofNat_toNatBE rest zero]
        exact if_pos low
    · cases h

theorem positive?_ofNat {n : Nat} (h : n ≠ 0) : positive? (ofNat n) = some n := by
  have value := Bytes.toNatBE_ofNat n
  unfold ofNat
  split
  · rename_i none
    exact absurd none (Bytes.ofNat_ne_nil h)
  · rename_i b rest digits
    rw [digits] at value
    split
    · rename_i low
      rw [positive?, if_pos low, value]
    · rw [positive?, if_pos (by decide), Bytes.toNatBE_cons, value]
      simp

theorem length_ofNat_le {n k : Nat} (h : n < 256 ^ k) : (ofNat n).length ≤ k + 1 := by
  have digits := Bytes.length_ofNat_le_iff.mpr h
  unfold ofNat
  split
  · exact Nat.zero_le _
  · rename_i b rest split
    rw [split] at digits
    split
    · exact Nat.le_succ_of_le digits
    · exact Nat.succ_le_succ digits

/-! ## Public keys -/

namespace RsaPublic

/-- A key whose integers are in their shortest form and fit into fields. -/
structure Written (key : RsaPublic) : Prop where
  exponent : Shortest key.exponent
  modulus : Shortest key.modulus
  small : key.exponent.length < 1 <<< 20 ∧ key.modulus.length < 1 <<< 20

/-- What is written is read back. -/
theorem ofBlob?_blob {key : RsaPublic} (h : key.Written) : ofBlob? key.blob = some key := by
  have name : field key.blob = some (Text.Utf8.ofString rsaName,
      writeField key.exponent ++ writeField key.modulus) := by
    rw [blob, List.append_assoc]
    exact field_writeField (by decide) _
  have exponent : integer (writeField key.exponent ++ writeField key.modulus) =
      some (key.exponent, writeField key.modulus) :=
    integer_eq_some_iff.mpr ⟨field_writeField h.small.1 _, h.exponent⟩
  have modulus : integer (writeField key.modulus) = some (key.modulus, []) := by
    have last := field_writeField h.small.2 []
    rw [List.append_nil] at last
    exact integer_eq_some_iff.mpr ⟨last, h.modulus⟩
  simp only [ofBlob?, PublicPart.read, name, exponent, modulus, bind, Option.bind, if_true]

/-- Keys are only read with integers in their shortest form. -/
theorem shortest_of_ofBlob? {bs : Bytes} {key : RsaPublic} (h : ofBlob? bs = some key) :
    Shortest key.exponent ∧ Shortest key.modulus := by
  unfold ofBlob? at h
  split at h
  · rename_i key' read
    cases h
    obtain ⟨⟨name, more⟩, -, read⟩ := Option.bind_eq_some_iff.mp read
    dsimp only at read
    split at read
    · obtain ⟨⟨exponent, more⟩, first, read⟩ := Option.bind_eq_some_iff.mp read
      obtain ⟨⟨modulus, rest⟩, second, read⟩ := Option.bind_eq_some_iff.mp read
      cases read
      exact ⟨(integer_eq_some_iff.mp first).2, (integer_eq_some_iff.mp second).2⟩
    · obtain ⟨kind, -, read⟩ := Option.bind_eq_some_iff.mp read
      obtain ⟨⟨parts, rest⟩, -, read⟩ := Option.bind_eq_some_iff.mp read
      cases read
  · cases h

/-- A key that was read is the one that is written for its numbers. -/
theorem ofKey_of_ofBlob? {bs : Bytes} {key : RsaPublic} (h : ofBlob? bs = some key)
    {modulus exponent : Nat} (read : positive? key.modulus = some modulus)
    (read' : positive? key.exponent = some exponent) : ofKey ⟨modulus, exponent⟩ = key := by
  obtain ⟨short', short⟩ := shortest_of_ofBlob? h
  rw [ofKey, ofNat_of_positive short read, ofNat_of_positive short' read']

theorem ofKey_written {key : Crypto.Rsa.PublicKey} (modulus : key.modulus < 256 ^ 1024)
    (exponent : key.exponent < 256 ^ 1024) : (ofKey key).Written where
  exponent := ofNat_shortest key.exponent
  modulus := ofNat_shortest key.modulus
  small := ⟨(length_ofNat_le exponent).trans_lt (by decide),
    (length_ofNat_le modulus).trans_lt (by decide)⟩

end RsaPublic
end Rehoming.Keys.Ssh
