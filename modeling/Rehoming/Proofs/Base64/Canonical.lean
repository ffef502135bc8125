import Mathlib.Algebra.Group.Nat.Defs
import Rehoming.Proofs.Base64
import Rehoming.Proofs.Sequences
import Rehoming.Proofs.Text.Utf8

/-! Nothing but what was written is read: reading is taken apart, step by step, and each step is the
reverse of one in writing. Main statement: base64 is read as some bytes exactly if it is what these
bytes are written as. -/

namespace Rehoming.Base64

/-! ## Symbols -/

theorem symbol_of_value? : ∀ n, n < 256 →
    ∀ v ∈ value? (UInt8.ofNat n), v < 64 ∧ symbol v = UInt8.ofNat n := by decide +kernel

theorem values_ok {offset : Nat} {symbols : Bytes} {vs : List Nat}
    (h : values offset symbols = .ok vs) : symbols = vs.map symbol ∧ ∀ v ∈ vs, v < 64 := by
  unfold values at h
  split at h
  · cases h
  · rename_i sound
    cases h
    rw [List.findIdx?_eq_none_iff] at sound
    induction symbols with
    | nil => exact ⟨rfl, nofun⟩
    | cons b rest ih =>
      obtain ⟨here, others⟩ := List.forall_mem_cons.mp sound
      obtain ⟨v, hv⟩ : ∃ v, value? b = some v := by
        cases found : value? b with
        | none => simp [found] at here
        | some v => exact ⟨v, rfl⟩
      obtain ⟨small, same⟩ : v < 64 ∧ symbol v = b := by
        have known := symbol_of_value? b.toNat b.toNat_lt v
        rw [UInt8.ofNat_toNat] at known
        exact known hv
      obtain ⟨texts, smalls⟩ := ih others
      rw [List.filterMap_cons, hv]
      refine ⟨?_, List.forall_mem_cons.mpr ⟨small, smalls⟩⟩
      rw [List.map_cons, same, ← texts]

/-! ## Groups -/

/-- Values of one group that leave no bits over. -/
structure Tight (vs : List Nat) : Prop where
  two : 2 ≤ vs.length
  four : vs.length ≤ 4
  small : ∀ v ∈ vs, v < 64
  clean : unusedBits vs = 0

/-- The bytes of a group are written as its values again. -/
theorem Tight.decoded {vs : List Nat} (tight : Tight vs) :
    Group (decodeGroup vs) ∧ groupValues (decodeGroup vs) = vs := by
  obtain ⟨two, four, small, clean⟩ := tight
  match vs with
  | [] | [_] => simp at two
  | [a, b] =>
    simp only [List.forall_mem_cons, List.not_mem_nil, false_implies, implies_true,
      and_true] at small
    simp only [unusedBits] at clean
    have first : (UInt8.ofNat (a * 4 + b / 16)).toNat = a * 4 + b / 16 :=
      Text.Utf8.toNat_byte (by omega)
    refine ⟨.one _, ?_⟩
    simp only [decodeGroup, groupValues, first, List.cons.injEq, and_true]
    omega
  | [a, b, c] =>
    simp only [List.forall_mem_cons, List.not_mem_nil, false_implies, implies_true,
      and_true] at small
    simp only [unusedBits] at clean
    have first : (UInt8.ofNat (a * 4 + b / 16)).toNat = a * 4 + b / 16 :=
      Text.Utf8.toNat_byte (by omega)
    have second : (UInt8.ofNat (b % 16 * 16 + c / 4)).toNat = b % 16 * 16 + c / 4 :=
      Text.Utf8.toNat_byte (by omega)
    refine ⟨.two _ _, ?_⟩
    simp only [decodeGroup, groupValues, first, second, List.cons.injEq, and_true]
    omega
  | [a, b, c, d] =>
    simp only [List.forall_mem_cons, List.not_mem_nil, false_implies, implies_true,
      and_true] at small
    have first : (UInt8.ofNat (a * 4 + b / 16)).toNat = a * 4 + b / 16 :=
      Text.Utf8.toNat_byte (by omega)
    have second : (UInt8.ofNat (b % 16 * 16 + c / 4)).toNat = b % 16 * 16 + c / 4 :=
      Text.Utf8.toNat_byte (by omega)
    have third : (UInt8.ofNat (c % 4 * 64 + d)).toNat = c % 4 * 64 + d :=
      Text.Utf8.toNat_byte (by omega)
    refine ⟨.three _ _ _, ?_⟩
    simp only [decodeGroup, groupValues, first, second, third, List.cons.injEq, and_true]
    omega
  | _ :: _ :: _ :: _ :: _ :: _ =>
    simp only [List.length_cons] at four
    omega

theorem Tight.encodeGroup_decodeGroup {vs : List Nat} (tight : Tight vs) :
    encodeGroup (decodeGroup vs) = vs.map symbol ++ List.replicate (4 - vs.length) pad := by
  obtain ⟨group, values⟩ := tight.decoded
  rw [encodeGroup_eq group, values]

/-- Four values in front of full groups are a full group. -/
theorem tight_of_four {a b c d : Nat} {rest : List Nat}
    (full : (a :: b :: c :: d :: rest).length % 4 = 0)
    (small : ∀ v ∈ a :: b :: c :: d :: rest, v < 64) :
    Tight [a, b, c, d] ∧ rest.length % 4 = 0 ∧ ∀ v ∈ rest, v < 64 := by
  obtain ⟨here, others⟩ := List.forall_mem_append.mp
    (show ∀ v ∈ [a, b, c, d] ++ rest, v < 64 from small)
  simp only [List.length_cons] at full
  exact ⟨⟨by simp, by simp, here, rfl⟩, by omega, others⟩

theorem encode_group {g : Bytes} (h : Group g) : encode g = encodeGroup g := by
  cases h <;> rfl

/-- A last group that is read is what its bytes are written as. -/
theorem decodeLast_ok {offset : Nat} {group bytes : Bytes} (few : group.length ≤ 4)
    (h : decodeLast offset group = .ok bytes) : group = encode bytes := by
  have whole : group.takeWhile (· != pad) ++ group.dropWhile (· != pad) = group :=
    List.takeWhile_append_dropWhile
  unfold decodeLast at h
  obtain ⟨vs, read, h⟩ := bind_ok_iff.mp h
  obtain ⟨padded, h⟩ := refusing_ok_iff.mp h
  obtain ⟨letters, small⟩ := values_ok read
  have counted : (group.takeWhile (· != pad)).length = vs.length := by
    rw [letters, List.length_map]
  dsimp only at h
  rw [counted] at h padded
  split at h
  · split at h
    · rename_i empty
      cases h
      rw [List.isEmpty_iff.mp empty]
      rfl
    · cases h
  · rename_i two
    obtain ⟨full, h⟩ := refusing_ok_iff.mp h
    obtain ⟨clean, h⟩ := refusing_ok_iff.mp h
    cases h
    have padding : ∀ b ∈ group.dropWhile (· != pad), b = pad := by
      intro b there
      by_contra other
      refine padded (Bool.and_eq_true_iff.mpr ⟨?_, Bool.or_eq_true_iff.mpr (.inr ?_)⟩)
      · simpa using List.ne_nil_of_mem there
      · exact List.any_eq_true.mpr ⟨b, there, bne_iff_ne.mpr other⟩
    have length := congrArg List.length whole
    rw [List.length_append, counted] at length
    have tight : Tight vs := ⟨by omega, by omega, small, not_not.mp clean⟩
    have rest : group.dropWhile (· != pad) = List.replicate (4 - vs.length) pad :=
      List.eq_replicate_iff.mpr ⟨by omega, padding⟩
    rw [encode_group tight.decoded.1, tight.encodeGroup_decodeGroup, ← letters, ← rest, whole]

/-! ## Whole texts -/

/-- The bytes of full groups are written as the values of these groups again. -/
theorem encode_decodeFull {vs : List Nat} (full : vs.length % 4 = 0) (small : ∀ v ∈ vs, v < 64)
    (bytes : Bytes) : encode (decodeFull vs [] ++ bytes) = vs.map symbol ++ encode bytes := by
  match vs with
  | [] => rfl
  | [_] | [_, _] | [_, _, _] => simp at full
  | a :: b :: c :: d :: rest =>
    obtain ⟨tight, full, small⟩ := tight_of_four full small
    have others := encode_decodeFull full small bytes
    have first : encodeGroup (decodeGroup [a, b, c, d]) = [a, b, c, d].map symbol :=
      tight.encodeGroup_decodeGroup
    rw [decodeFull, decodeFull_eq, List.append_nil, List.reverse_reverse, List.append_assoc,
      decodeGroup, List.cons_append, List.cons_append, List.cons_append, List.nil_append,
      encode_cons, others]
    exact congrArg (· ++ (rest.map symbol ++ encode bytes)) first

/-- **What is read was written.** -/
theorem decode_ok_iff {text bytes : Bytes} : decode text = .ok bytes ↔ text = encode bytes := by
  refine ⟨fun h => ?_, fun h => h ▸ decode_encode bytes⟩
  unfold decode at h
  obtain ⟨-, h⟩ := refusing_ok_iff.mp h
  obtain ⟨vs, front, h⟩ := bind_ok_iff.mp h
  obtain ⟨last, behind, h⟩ := bind_ok_iff.mp h
  cases h
  obtain ⟨symbols, small⟩ := values_ok front
  have counted := congrArg List.length symbols
  rw [List.length_take, List.length_map] at counted
  have group := decodeLast_ok (by rw [List.length_drop]; omega) behind
  rw [encode_decodeFull (by omega) small, ← symbols, ← group, List.take_append_drop]

/-! ## Layouts -/

/-- Values of symbols and a number of paddings, as they are in a text that was written: whole groups
of four, and no bits left over in front of the padding. -/
structure Layout (vs : List Nat) (pads : Nat) : Prop where
  small : ∀ v ∈ vs, v < 64
  few : pads ≤ 2
  whole : (vs.length + pads) % 4 = 0
  clean : ∀ v ∈ vs.getLast?, v % 4 ^ pads = 0

/-- The layout of a group is that of its values. -/
theorem Group.layout {g : Bytes} (h : Group g) : ∀ v ∈ (groupValues g).getLast?,
    v % 4 ^ (4 - (groupValues g).length) = 0 := by
  cases h with
  | one a =>
    simp only [groupValues, List.getLast?_cons_cons, List.getLast?_singleton, Option.mem_some_iff,
      forall_eq', List.length_cons, List.length_nil]
    omega
  | two a b =>
    simp only [groupValues, List.getLast?_cons_cons, List.getLast?_singleton, Option.mem_some_iff,
      forall_eq', List.length_cons, List.length_nil]
    omega
  | three a b c =>
    simp only [groupValues, List.length_cons, List.length_nil]
    omega

theorem exists_layout (bytes : Bytes) : ∃ vs pads, Layout vs pads ∧
    encode bytes = vs.map symbol ++ List.replicate pads pad := by
  cases bytes with
  | nil => exact ⟨[], 0, ⟨nofun, by decide, rfl, nofun⟩, rfl⟩
  | cons b rest =>
    obtain ⟨front, last, group, text, small, full, -⟩ := exists_split (List.cons_ne_nil b rest)
    obtain ⟨two, four⟩ := length_groupValues group
    refine ⟨front ++ groupValues last, 4 - (groupValues last).length, ⟨?_, by omega, ?_, ?_⟩, ?_⟩
    · intro v hv
      rcases List.mem_append.mp hv with hv | hv
      · exact small v hv
      · exact groupValues_lt group v hv
    · rw [List.length_append]
      omega
    · rw [List.getLast?_append_of_ne_nil _ (List.ne_nil_of_length_pos (by omega))]
      exact group.layout
    · rw [text, encodeGroup_eq group, List.map_append, List.append_assoc]

namespace Layout

variable {vs : List Nat} {pads : Nat}

/-- The last group of a layout, behind full ones. -/
theorem split (layout : Layout vs pads) (some : vs ≠ []) : ∃ front last, vs = front ++ last ∧
    front.length % 4 = 0 ∧ (∀ v ∈ front, v < 64) ∧ Tight last ∧ pads = 4 - last.length := by
  obtain ⟨small, few, whole, clean⟩ := layout
  have long : 0 < vs.length := List.length_pos_of_ne_nil some
  let cut := (vs.length - 1) / 4 * 4
  have length : (vs.drop cut).length = 4 - pads := by
    rw [List.length_drop]
    omega
  refine ⟨vs.take cut, vs.drop cut, (List.take_append_drop ..).symm, ?_, ?_, ?_, by omega⟩
  · rw [List.length_take]
    omega
  · exact fun v hv => small v (List.mem_of_mem_take hv)
  · refine ⟨by omega, by omega, fun v hv => small v (List.mem_of_mem_drop hv), ?_⟩
    have last : (vs.drop cut).getLast? = vs.getLast? := by
      rw [List.getLast?_drop, if_neg (by omega)]
    rw [← last] at clean
    generalize vs.drop cut = group at length clean
    match group, pads with
    | [_, b], 2 => exact clean b rfl
    | [_, _, c], 1 => exact clean c rfl
    | [_, _, _, _], 0 => rfl
    | [], _ | [_], _ => simp only [List.length_cons, List.length_nil] at length; omega
    | [_, _], 0 | [_, _], 1 | [_, _, _], 0 | [_, _, _], 2 => cases length
    | _ :: _ :: _ :: _ :: _ :: _, _ => simp only [List.length_cons] at length; omega
    | _, pads + 3 => omega

end Layout

/-! ## Bits -/

/-- The lowest bits of a number, so many of them, the highest one first. -/
def bits : (width n : Nat) → List Bool
  | 0, _ => []
  | width + 1, n => bits width (n / 2) ++ [n % 2 == 1]

theorem bits_append (width : Nat) {low : Nat} (high : Nat) {n : Nat} (h : n < 2 ^ low) :
    bits (width + low) (high * 2 ^ low + n) = bits width high ++ bits low n := by
  induction low generalizing n with
  | zero =>
    obtain rfl : n = 0 := by omega
    simp [bits]
  | succ low ih =>
    rw [Nat.pow_succ] at h
    have twice : high * 2 ^ (low + 1) + n = 2 * (high * 2 ^ low) + n := by
      rw [Nat.pow_succ, ← Nat.mul_assoc, Nat.mul_comm]
    have half : (2 * (high * 2 ^ low) + n) / 2 = high * 2 ^ low + n / 2 := by omega
    have odd : (2 * (high * 2 ^ low) + n) % 2 = n % 2 := by omega
    rw [twice, ← Nat.add_assoc, bits, half, odd, ih (by omega), List.append_assoc, bits]

/-- Bits in two parts. -/
theorem bits_parts (width low : Nat) {total n high rest : Nat} (all : total = width + low)
    (parts : n = high * 2 ^ low + rest) (small : rest < 2 ^ low) :
    bits total n = bits width high ++ bits low rest := by
  rw [all, parts, bits_append width high small]

theorem bits_zero (width : Nat) : bits width 0 = List.replicate width false := by
  induction width with
  | zero => rfl
  | succ width ih => rw [bits, Nat.zero_div, ih, List.replicate_succ']; rfl

/-- The bits of some bytes. -/
def bitsOf (bytes : Bytes) : List Bool := bytes.flatMap fun b => bits 8 b.toNat

/-- The values of a group hold the bits of its bytes, six in each. -/
theorem Group.bits {g : Bytes} (h : Group g) : (groupValues g).flatMap (Base64.bits 6) =
    bitsOf g ++ List.replicate (2 * (4 - (groupValues g).length)) false := by
  have byte (width low : Nat) (all : 8 = width + low) (b : UInt8) : Base64.bits 8 b.toNat =
      Base64.bits width (b.toNat / 2 ^ low) ++ Base64.bits low (b.toNat % 2 ^ low) :=
    bits_parts width low all (Nat.div_add_mod' ..).symm (Nat.mod_lt _ (Nat.two_pow_pos low))
  cases h with
  | one a =>
    have last : Base64.bits 6 (a.toNat % 4 * 16) =
        Base64.bits 2 (a.toNat % 4) ++ Base64.bits 4 0 :=
      bits_parts 2 4 rfl (by omega) (by decide)
    simp only [groupValues, bitsOf, List.flatMap_cons, List.flatMap_nil, byte 6 2 rfl a, last,
      bits_zero, List.append_nil, List.append_assoc]
    rfl
  | two a b =>
    have small := b.toNat_lt
    have middle : Base64.bits 6 (a.toNat % 4 * 16 + b.toNat / 16) =
        Base64.bits 2 (a.toNat % 4) ++ Base64.bits 4 (b.toNat / 16) :=
      bits_parts 2 4 rfl (by omega) (by omega)
    have last : Base64.bits 6 (b.toNat % 16 * 4) =
        Base64.bits 4 (b.toNat % 16) ++ Base64.bits 2 0 :=
      bits_parts 4 2 rfl (by omega) (by decide)
    simp only [groupValues, bitsOf, List.flatMap_cons, List.flatMap_nil, byte 6 2 rfl a,
      byte 4 4 rfl b, middle, last, bits_zero, List.append_nil, List.append_assoc]
    rfl
  | three a b c =>
    have small := b.toNat_lt
    have small' := c.toNat_lt
    have second : Base64.bits 6 (a.toNat % 4 * 16 + b.toNat / 16) =
        Base64.bits 2 (a.toNat % 4) ++ Base64.bits 4 (b.toNat / 16) :=
      bits_parts 2 4 rfl (by omega) (by omega)
    have third : Base64.bits 6 (b.toNat % 16 * 4 + c.toNat / 64) =
        Base64.bits 4 (b.toNat % 16) ++ Base64.bits 2 (c.toNat / 64) :=
      bits_parts 4 2 rfl (by omega) (by omega)
    simp only [groupValues, bitsOf, List.flatMap_cons, List.flatMap_nil, byte 6 2 rfl a,
      byte 4 4 rfl b, byte 2 6 rfl c, second, third, List.append_nil, List.append_assoc]
    rfl

theorem bitsOf_decodeFull {vs : List Nat} (full : vs.length % 4 = 0) (small : ∀ v ∈ vs, v < 64) :
    bitsOf (decodeFull vs []) = vs.flatMap (bits 6) := by
  match vs with
  | [] => rfl
  | [_] | [_, _] | [_, _, _] => simp at full
  | a :: b :: c :: d :: rest =>
    obtain ⟨tight, full, small⟩ := tight_of_four full small
    have others := bitsOf_decodeFull full small
    obtain ⟨group, values⟩ := tight.decoded
    have first := group.bits
    rw [values] at first
    rw [decodeFull, decodeFull_eq, List.append_nil, List.reverse_reverse, bitsOf,
      List.flatMap_append, ← bitsOf, ← bitsOf, others,
      show a :: b :: c :: d :: rest = [a, b, c, d] ++ rest from rfl, List.flatMap_append, first]
    simp

/-- **Layouts are written for some bytes.** The values hold the bits of these, six in each, and then
two zeros for each padding. -/
theorem Layout.exists_bytes {vs : List Nat} {pads : Nat} (layout : Layout vs pads) :
    ∃ bytes, encode bytes = vs.map symbol ++ List.replicate pads pad ∧
      vs.flatMap (bits 6) = bitsOf bytes ++ List.replicate (2 * pads) false := by
  by_cases none : vs = []
  · subst none
    obtain ⟨-, few, whole, -⟩ := layout
    obtain rfl : pads = 0 := by simp only [List.length_nil] at whole; omega
    exact ⟨[], rfl, rfl⟩
  · obtain ⟨front, last, rfl, full, small, tight, rfl⟩ := layout.split none
    obtain ⟨group, values⟩ := tight.decoded
    refine ⟨decodeFull front [] ++ decodeGroup last, ?_, ?_⟩
    · rw [encode_decodeFull full small, encode_group group, tight.encodeGroup_decodeGroup,
        List.map_append, List.append_assoc]
    · have held := group.bits
      rw [values] at held
      rw [List.flatMap_append, held, ← bitsOf_decodeFull full small, bitsOf, bitsOf, bitsOf,
        List.flatMap_append, List.append_assoc]

/-- **Bytes are written as the format has it.** -/
theorem encode_spelled (bytes : Bytes) : ∃ vs pads, Layout vs pads ∧
    encode bytes = vs.map symbol ++ List.replicate pads pad ∧
      vs.flatMap (bits 6) = bitsOf bytes ++ List.replicate (2 * pads) false := by
  obtain ⟨vs, pads, layout, text⟩ := exists_layout bytes
  obtain ⟨bytes', text', held⟩ := layout.exists_bytes
  have same : bytes' = bytes := by
    have read := decode_encode bytes'
    rw [text', ← text, decode_encode] at read
    exact (Except.ok.inj read).symm
  exact ⟨vs, pads, layout, text, same ▸ held⟩

end Rehoming.Base64
