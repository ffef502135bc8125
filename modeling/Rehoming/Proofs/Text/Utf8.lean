import Rehoming.Text.Utf8

/-! Characters survive UTF-8: what is written is read back as the same characters,
whatever follows it. -/

namespace Rehoming.Text.Utf8

/-- A byte written as a number below 256 is that number. -/
theorem toNat_byte {n : Nat} (h : n < 256) : (UInt8.ofNat n).toNat = n := by
  rw [UInt8.toNat_ofNat']
  exact Nat.mod_eq_of_lt h

theorem tail_byte (n : Nat) : tail (UInt8.ofNat (n % 64 + 0x80)) = n % 64 := by
  rw [tail, toNat_byte (by omega)]
  omega

theorem isTail_byte (n : Nat) : isTail (UInt8.ofNat (n % 64 + 0x80)) = true := by
  simp only [isTail, Bool.and_eq_true, decide_eq_true_eq, UInt8.le_iff_toNat_le]
  rw [toNat_byte (by omega)]
  constructor
  · show 128 ≤ n % 64 + 128
    omega
  · show n % 64 + 128 ≤ 191
    omega

theorem next?_one {v : Nat} (h : v ≤ 0x7f) (rest : Bytes) :
    next? (UInt8.ofNat v :: rest) = some (Char.ofNat v, rest) := by
  have low : UInt8.ofNat v < 0x80 := by
    rw [UInt8.lt_iff_toNat_lt, toNat_byte (by omega)]
    show v < 128
    omega
  simp only [next?, low, if_true, toNat_byte (show v < 256 by omega)]

/-- Which way a first byte is read, told from its number. -/
theorem next?_lead {n : Nat} (h : 0xC2 ≤ n) (h' : n ≤ 0xF4) :
    ¬ UInt8.ofNat n < 0x80 ∧
      ((0xC2 ≤ UInt8.ofNat n && UInt8.ofNat n ≤ 0xDF) = decide (n ≤ 0xDF)) ∧
      ((0xE0 ≤ UInt8.ofNat n && UInt8.ofNat n ≤ 0xEF) = decide (0xE0 ≤ n ∧ n ≤ 0xEF)) ∧
      ((0xF0 ≤ UInt8.ofNat n && UInt8.ofNat n ≤ 0xF4) = decide (0xF0 ≤ n)) := by
  have here : (UInt8.ofNat n).toNat = n := toNat_byte (by omega)
  simp only [UInt8.lt_iff_toNat_lt, UInt8.le_iff_toNat_le, here, ← Bool.decide_and]
  refine ⟨?_, ?_, ?_, ?_⟩
  · show ¬ n < 128
    omega
  · refine decide_eq_decide.mpr ?_
    show 194 ≤ n ∧ n ≤ 223 ↔ _
    omega
  · refine decide_eq_decide.mpr ?_
    show 224 ≤ n ∧ n ≤ 239 ↔ _
    omega
  · refine decide_eq_decide.mpr ?_
    show 240 ≤ n ∧ n ≤ 244 ↔ _
    omega

theorem next?_two {v : Nat} (h : 0x80 ≤ v) (h' : v ≤ 0x7ff) (rest : Bytes) :
    next? (UInt8.ofNat (v / 64 % 0x20 + 0xc0) :: UInt8.ofNat (v % 0x40 + 0x80) :: rest) =
      some (Char.ofNat v, rest) := by
  obtain ⟨high, two, -, -⟩ := next?_lead (n := v / 64 % 0x20 + 0xc0) (by omega) (by omega)
  have number : (v / 64 % 0x20 + 0xc0) % 32 * 64 + v % 0x40 = v := by omega
  simp only [next?, if_neg high, two, isTail_byte, tail_byte, if_true,
    toNat_byte (show v / 64 % 0x20 + 0xc0 < 256 by omega), number]
  rw [if_pos (by simp only [decide_eq_true_eq]; omega)]

theorem next?_three {v : Nat} (h : 0x800 ≤ v) (h' : v ≤ 0xffff)
    (scalar : ¬ (0xD800 ≤ v ∧ v ≤ 0xDFFF)) (rest : Bytes) :
    next? (UInt8.ofNat (v / 4096 % 0x10 + 0xe0) :: UInt8.ofNat (v / 64 % 0x40 + 0x80) ::
      UInt8.ofNat (v % 0x40 + 0x80) :: rest) = some (Char.ofNat v, rest) := by
  obtain ⟨high, two, three, -⟩ := next?_lead (n := v / 4096 % 0x10 + 0xe0) (by omega) (by omega)
  have number : (v / 4096 % 0x10 + 0xe0) % 16 * 4096 + v / 64 % 0x40 * 64 + v % 0x40 = v := by omega
  have kept : (!(decide (0xD800 ≤ v) && decide (v ≤ 0xDFFF))) = true := by
    simp only [Bool.not_eq_true', Bool.and_eq_false_iff, decide_eq_false_iff_not]
    omega
  simp only [next?, if_neg high, two, three, isTail_byte, tail_byte,
    toNat_byte (show v / 4096 % 0x10 + 0xe0 < 256 by omega), number, kept]
  rw [if_neg (by simp only [decide_eq_true_eq]; omega),
    if_pos (by simp only [decide_eq_true_eq]; omega), if_pos (by simpa using h)]

theorem next?_four {v : Nat} (h : 0x10000 ≤ v) (h' : v ≤ 0x10FFFF) (rest : Bytes) :
    next? (UInt8.ofNat (v / 262144 % 0x08 + 0xf0) :: UInt8.ofNat (v / 4096 % 0x40 + 0x80) ::
      UInt8.ofNat (v / 64 % 0x40 + 0x80) :: UInt8.ofNat (v % 0x40 + 0x80) :: rest) =
      some (Char.ofNat v, rest) := by
  obtain ⟨high, two, three, four⟩ :=
    next?_lead (n := v / 262144 % 0x08 + 0xf0) (by omega) (by omega)
  have number : (v / 262144 % 0x08 + 0xf0) % 8 * 262144 + v / 4096 % 0x40 * 4096
      + v / 64 % 0x40 * 64 + v % 0x40 = v := by omega
  simp only [next?, if_neg high, two, three, four, isTail_byte, tail_byte,
    toNat_byte (show v / 262144 % 0x08 + 0xf0 < 256 by omega), number]
  rw [if_neg (by simp only [decide_eq_true_eq]; omega),
    if_neg (by simp only [decide_eq_true_eq]; omega),
    if_pos (by simp only [decide_eq_true_eq]; omega), if_pos (by simp [h, h'])]

/-- A character is read off the front of the bytes that it was put before. -/
theorem next?_encode (c : Char) (rest : Bytes) :
    next? (String.utf8EncodeChar c ++ rest) = some (c, rest) := by
  have same : Char.ofNat c.val.toNat = c := Char.ofNat_toNat c
  have valid : c.val.toNat < 0xD800 ∨ 0xDFFF < c.val.toNat ∧ c.val.toNat < 0x110000 := c.valid
  unfold String.utf8EncodeChar
  dsimp only
  split
  · rename_i h
    exact (next?_one h rest).trans (by rw [same])
  · split
    · rename_i h h'
      exact (next?_two (by omega) h' rest).trans (by rw [same])
    · split
      · rename_i h h'
        exact (next?_three (by omega) h' (by omega) rest).trans (by rw [same])
      · exact (next?_four (by omega) (by omega) rest).trans (by rw [same])

theorem scan_encode {fuel : Nat} {cs : List Char} (done : List Symbol)
    (h : (encode cs).length ≤ fuel) : scan fuel (encode cs) done = done.reverse ++ cs.map some := by
  induction cs generalizing fuel done with
  | nil =>
    cases fuel <;> simp [encode, scan]
  | cons c cs ih =>
    have front : encode (c :: cs) = String.utf8EncodeChar c ++ encode cs := List.flatMap_cons
    have read := next?_encode c (encode cs)
    have nonempty := String.utf8EncodeChar_ne_nil (c := c)
    rw [front] at h ⊢
    -- one unit of fuel pays for all bytes of the character
    cases bytes : String.utf8EncodeChar c with
    | nil => exact absurd bytes nonempty
    | cons b more =>
      rw [bytes] at h read
      rw [List.cons_append] at h read ⊢
      rw [List.length_cons, List.length_append] at h
      obtain ⟨fuel, rfl⟩ : ∃ n, fuel = n + 1 := ⟨fuel - 1, by omega⟩
      rw [scan, read]
      dsimp only
      rw [ih _ (by omega), List.reverse_cons, List.append_assoc, List.map_cons]
      rfl

/-- **Characters are read back.** -/
theorem symbols_encode (cs : List Char) : symbols (encode cs) = cs.map some := by
  rw [symbols, scan_encode [] (Nat.le_refl _), List.reverse_nil, List.nil_append]

end Rehoming.Text.Utf8
