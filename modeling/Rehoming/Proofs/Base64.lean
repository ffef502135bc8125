import Rehoming.Base64
import Rehoming.Proofs.Text.Blank

/-! Bytes survive as base64: three of them at a time as four values below 64, and the
last one to three in a group of their own, which is padded. -/

namespace Rehoming.Base64

/-! ## Symbols -/

theorem value?_symbol : ∀ n, n < 64 → value? (symbol n) = some n := by decide

theorem symbol_ne_pad : ∀ n, n < 64 → symbol n ≠ pad := by decide

/-- A byte that stands for itself in a text, with no blank among such. -/
def Plain (b : UInt8) : Prop := b.toNat < 128 ∧ Text.isBlank (Char.ofNat b.toNat) = false

theorem symbol_plain : ∀ n, n < 64 →
    (symbol n).toNat < 128 ∧ Text.isBlank (Char.ofNat (symbol n).toNat) = false := by decide

theorem pad_plain : Plain pad := by unfold Plain; decide

theorem values_symbols {vs : List Nat} (h : ∀ v ∈ vs, v < 64) (offset : Nat) :
    values offset (vs.map symbol) = .ok vs := by
  have sound : (vs.map symbol).findIdx? (fun b => (value? b).isNone) = none := by
    rw [List.findIdx?_eq_none_iff]
    intro b hb
    obtain ⟨v, hv, rfl⟩ := List.mem_map.mp hb
    rw [value?_symbol v (h v hv)]
    rfl
  have back : (vs.map symbol).filterMap value? = vs := by
    clear sound
    induction vs with
    | nil => rfl
    | cons v vs ih =>
      rw [List.map_cons, List.filterMap_cons, value?_symbol v (h v List.mem_cons_self)]
      exact congrArg (v :: ·) (ih fun w hw => h w (List.mem_cons_of_mem _ hw))
  rw [values, sound]
  exact congrArg Except.ok back

/-! ## Groups -/

/-- The values that up to three bytes are written as. -/
def groupValues : Bytes → List Nat
  | [a] => [a.toNat / 4, a.toNat % 4 * 16]
  | [a, b] => [a.toNat / 4, a.toNat % 4 * 16 + b.toNat / 16, b.toNat % 16 * 4]
  | a :: b :: c :: _ => [a.toNat / 4, a.toNat % 4 * 16 + b.toNat / 16,
      b.toNat % 16 * 4 + c.toNat / 64, c.toNat % 64]
  | [] => []

/-- A group of its own: one to three bytes. -/
inductive Group : Bytes → Prop where
  | one (a : UInt8) : Group [a]
  | two (a b : UInt8) : Group [a, b]
  | three (a b c : UInt8) : Group [a, b, c]

theorem ofNat_toNat_of_eq {n : Nat} {b : UInt8} (h : n = b.toNat) : UInt8.ofNat n = b := by
  rw [h, UInt8.ofNat_toNat]

theorem groupValues_lt {g : Bytes} (h : Group g) : ∀ v ∈ groupValues g, v < 64 := by
  cases h with
  | one a =>
    have := a.toNat_lt
    simp only [groupValues, List.mem_cons, List.not_mem_nil, or_false]
    omega
  | two a b =>
    have := a.toNat_lt
    have := b.toNat_lt
    simp only [groupValues, List.mem_cons, List.not_mem_nil, or_false]
    omega
  | three a b c =>
    have := a.toNat_lt
    have := b.toNat_lt
    have := c.toNat_lt
    simp only [groupValues, List.mem_cons, List.not_mem_nil, or_false]
    omega

theorem decodeGroup_groupValues {g : Bytes} (h : Group g) : decodeGroup (groupValues g) = g := by
  cases h with
  | one a =>
    have := a.toNat_lt
    simp only [groupValues, decodeGroup]
    rw [ofNat_toNat_of_eq (b := a) (by omega)]
  | two a b =>
    have := a.toNat_lt
    have := b.toNat_lt
    simp only [groupValues, decodeGroup]
    rw [ofNat_toNat_of_eq (b := a) (by omega), ofNat_toNat_of_eq (b := b) (by omega)]
  | three a b c =>
    have := a.toNat_lt
    have := b.toNat_lt
    have := c.toNat_lt
    simp only [groupValues, decodeGroup]
    rw [ofNat_toNat_of_eq (b := a) (by omega), ofNat_toNat_of_eq (b := b) (by omega),
      ofNat_toNat_of_eq (b := c) (by omega)]

theorem unusedBits_groupValues {g : Bytes} (h : Group g) : unusedBits (groupValues g) = 0 := by
  cases h with
  | one a => simp only [groupValues, unusedBits]; omega
  | two a b => simp only [groupValues, unusedBits]; omega
  | three a b c => rfl

/-- A group is written as its values and then padded to four symbols. -/
theorem encodeGroup_eq {g : Bytes} (h : Group g) : encodeGroup g =
    (groupValues g).map symbol ++ List.replicate (4 - (groupValues g).length) pad := by
  cases h <;> rfl

theorem length_groupValues {g : Bytes} (h : Group g) :
    2 ≤ (groupValues g).length ∧ (groupValues g).length ≤ 4 := by
  cases h <;> simp [groupValues]

/-- **The last group is read back.** -/
theorem decodeLast_encodeGroup {g : Bytes} (h : Group g) (offset : Nat) :
    decodeLast offset (encodeGroup g) = .ok g := by
  obtain ⟨two, four⟩ := length_groupValues h
  have small := groupValues_lt h
  have letter : ∀ b ∈ (groupValues g).map symbol, (b != pad) = true := by
    intro b hb
    obtain ⟨v, hv, rfl⟩ := List.mem_map.mp hb
    exact bne_iff_ne.mpr (symbol_ne_pad v (small v hv))
  have letters : (encodeGroup g).takeWhile (· != pad) = (groupValues g).map symbol := by
    rw [encodeGroup_eq h, List.takeWhile_append_of_pos letter, List.takeWhile_replicate]
    simp
  have padding : (encodeGroup g).dropWhile (· != pad) =
      List.replicate (4 - (groupValues g).length) pad := by
    rw [encodeGroup_eq h, List.dropWhile_append_of_pos letter, List.dropWhile_replicate]
    simp
  have whole : (encodeGroup g).length = 4 := by
    rw [encodeGroup_eq h, List.length_append, List.length_map, List.length_replicate]
    omega
  have long : ¬ (groupValues g).length < 2 := Nat.not_lt.mpr two
  have filled : ¬ (!(List.replicate (4 - (groupValues g).length) pad).isEmpty &&
      (decide ((groupValues g).length < 2) ||
        (List.replicate (4 - (groupValues g).length) pad).any fun x => x != pad)) = true := by
    simp [long]
  have clean : ¬ unusedBits (groupValues g) ≠ 0 := not_not_intro (unusedBits_groupValues h)
  simp only [decodeLast, letters, padding, values_symbols small, whole, List.length_map, bind,
    Except.bind]
  rw [if_neg filled, if_neg long, if_neg (by decide), if_neg clean, decodeGroup_groupValues h]
  rfl

/-! ## Whole texts -/

theorem encodeOnto_eq (bs done : Bytes) : encodeOnto bs done = done.reverse ++ encode bs := by
  match bs with
  | a :: b :: c :: rest =>
    rw [encode, encodeOnto, encodeOnto, encodeOnto_eq rest, encodeOnto_eq rest]
    simp
  | [a, b] => simp [encode, encodeOnto]
  | [a] => simp [encode, encodeOnto]
  | [] => simp [encode, encodeOnto]

theorem encode_cons (a b c : UInt8) (rest : Bytes) :
    encode (a :: b :: c :: rest) = encodeGroup [a, b, c] ++ encode rest := by
  rw [encode, encodeOnto, encodeOnto_eq, List.append_nil, List.reverse_reverse]

theorem decodeFull_eq (vs : List Nat) (done : Bytes) :
    decodeFull vs done = done.reverse ++ decodeFull vs [] := by
  match vs with
  | a :: b :: c :: d :: rest =>
    rw [decodeFull, decodeFull, decodeFull_eq rest, decodeFull_eq rest (_ ++ [])]
    simp
  | [a, b, c] => simp [decodeFull]
  | [a, b] => simp [decodeFull]
  | [a] => simp [decodeFull]
  | [] => simp [decodeFull]

/-- A text is values of full groups, and then the last group. -/
theorem exists_split {bs : Bytes} (h : bs ≠ []) : ∃ vs last, Group last ∧
    encode bs = vs.map symbol ++ encodeGroup last ∧ (∀ v ∈ vs, v < 64) ∧ vs.length % 4 = 0 ∧
      decodeFull vs [] ++ last = bs := by
  match bs with
  | [a] => exact ⟨[], [a], .one a, rfl, nofun, rfl, rfl⟩
  | [a, b] => exact ⟨[], [a, b], .two a b, rfl, nofun, rfl, rfl⟩
  | [a, b, c] => exact ⟨[], [a, b, c], .three a b c, rfl, nofun, rfl, rfl⟩
  | a :: b :: c :: d :: rest =>
    obtain ⟨vs, last, group, text, small, full, back⟩ := exists_split (List.cons_ne_nil d rest)
    have three := Group.three a b c
    refine ⟨groupValues [a, b, c] ++ vs, last, group, ?_, ?_, ?_, ?_⟩
    · rw [encode_cons, text, encodeGroup_eq three, List.map_append, List.append_assoc]
      rfl
    · intro v hv
      rcases List.mem_append.mp hv with hv | hv
      · exact groupValues_lt three v hv
      · exact small v hv
    · rw [List.length_append]
      show (4 + vs.length) % 4 = 0
      omega
    · show decodeFull vs ((decodeGroup (groupValues [a, b, c])).reverse ++ []) ++ last = _
      rw [decodeGroup_groupValues three, decodeFull_eq, List.append_assoc, back]
      rfl

/-- **Bytes are read back.** -/
theorem decode_encode (bs : Bytes) : decode (encode bs) = .ok bs := by
  cases bs with
  | nil => rfl
  | cons b rest =>
    obtain ⟨vs, last, group, text, small, full, back⟩ := exists_split (List.cons_ne_nil b rest)
    have four : (encodeGroup last).length = 4 := by cases group <;> rfl
    have whole : (encode (b :: rest)).length = vs.length + 4 := by
      rw [text, List.length_append, List.length_map, four]
    have cut : ((encode (b :: rest)).length - 1) / 4 * 4 = (vs.map symbol).length := by
      rw [whole, List.length_map]
      omega
    have complete : ¬ (encode (b :: rest)).length % 4 = 1 := by omega
    simp only [decode, cut, complete, false_and, if_false]
    rw [text, List.take_left, List.drop_left, values_symbols small, decodeLast_encodeGroup group]
    exact congrArg Except.ok back

/-! ## Fields of documents -/

section Symbols

variable {p : UInt8 → Prop} (symbols : ∀ n, n < 64 → p (symbol n)) (padding : p pad)
include symbols padding

theorem encodeGroup_forall {g : Bytes} (h : Group g) : ∀ b ∈ encodeGroup g, p b := by
  intro b hb
  rw [encodeGroup_eq h, List.mem_append] at hb
  rcases hb with hb | hb
  · obtain ⟨v, hv, rfl⟩ := List.mem_map.mp hb
    exact symbols v (groupValues_lt h v hv)
  · rw [List.eq_of_mem_replicate hb]
    exact padding

/-- What is said of all symbols and of the padding is said of all that is written. -/
theorem encode_forall (bs : Bytes) : ∀ b ∈ encode bs, p b := by
  cases bs with
  | nil => exact nofun
  | cons b rest =>
    obtain ⟨vs, last, group, text, small, -, -⟩ := exists_split (List.cons_ne_nil b rest)
    intro c hc
    rw [text, List.mem_append] at hc
    rcases hc with hc | hc
    · obtain ⟨v, hv, rfl⟩ := List.mem_map.mp hc
      exact symbols v (small v hv)
    · exact encodeGroup_forall symbols padding group c hc

end Symbols

theorem encode_plain (bs : Bytes) : ∀ b ∈ encode bs, Plain b :=
  encode_forall symbol_plain pad_plain bs

theorem utf8_ascii : ∀ n, n < 128 →
    String.utf8EncodeChar (Char.ofNat n) = [UInt8.ofNat n] := by decide

theorem utf8_plain {bs : Bytes} (h : ∀ b ∈ bs, Plain b) :
    Text.Utf8.encode (bs.map fun b => Char.ofNat b.toNat) = bs := by
  induction bs with
  | nil => rfl
  | cons b rest ih =>
    have others := ih fun c hc => h c (List.mem_cons_of_mem _ hc)
    rw [Text.Utf8.encode] at others ⊢
    rw [List.map_cons, List.flatMap_cons, others, utf8_ascii _ (h b List.mem_cons_self).1,
      UInt8.ofNat_toNat]
    rfl

/-- **Fields are read back.** -/
theorem decodeText_encodeText (bs : Bytes) : decodeText (encodeText bs) = .ok bs := by
  have plain := encode_plain bs
  have solid : ∀ c ∈ (encode bs).map fun b => Char.ofNat b.toNat, Text.isBlank c = false := by
    intro c hc
    obtain ⟨b, hb, rfl⟩ := List.mem_map.mp hc
    exact (plain b hb).2
  rw [decodeText, encodeText, String.toList_ofList, Text.trim_eq_self solid, utf8_plain plain,
    decode_encode]

end Rehoming.Base64
