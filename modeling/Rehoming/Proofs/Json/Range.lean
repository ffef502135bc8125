import Rehoming.Json.Numeral
import Rehoming.Proofs.Json.Rounding
import Rehoming.Proofs.Text.Decimal

/-! Which numerals are in range. The reader drops the digits that 64 bits do not hold,
rounds what is left, and rounds once more for each power of ten: from a numeral somewhat
below the largest number this leads to a number. -/

namespace Rehoming.Json

open Text

namespace Numeral

/-! ## Digits -/

/-- The digits that are kept write no more than all of them do. -/
theorem fitting_le (start : Nat) (cs : List Char) :
    (fitting start cs).1 * 10 ^ (fitting start cs).2.length ≤
        start * 10 ^ cs.length + Decimal.toNat cs ∧
      (fitting start cs).2.length ≤ cs.length ∧
      (start < UInt64.size → (fitting start cs).1 < UInt64.size) := by
  induction cs generalizing start with
  | nil => exact ⟨by simp [fitting, Decimal.toNat], le_rfl, id⟩
  | cons c rest ih =>
    have whole : (10 * start + Decimal.value c) * 10 ^ rest.length + Decimal.toNat rest =
        start * 10 ^ (c :: rest).length + Decimal.toNat (c :: rest) := by
      rw [← Decimal.foldl_digits, ← Decimal.foldl_digits]
      rfl
    rw [fitting]
    split
    · rename_i fits
      obtain ⟨le, shorter, small⟩ := ih (10 * start + Decimal.value c)
      exact ⟨whole ▸ le, shorter.trans (Nat.le_succ _), fun _ => small fits⟩
    · exact ⟨Nat.le_add_right _ _, le_rfl, id⟩

/-- Digits that write a number of 64 bits are all kept. -/
theorem fitting_all (start : Nat) (cs : List Char)
    (small : start * 10 ^ cs.length + Decimal.toNat cs < UInt64.size) :
    fitting start cs = (start * 10 ^ cs.length + Decimal.toNat cs, []) := by
  induction cs generalizing start with
  | nil => simp [fitting, Decimal.toNat]
  | cons c rest ih =>
    have whole : (10 * start + Decimal.value c) * 10 ^ rest.length + Decimal.toNat rest =
        start * 10 ^ (c :: rest).length + Decimal.toNat (c :: rest) := by
      rw [← Decimal.foldl_digits, ← Decimal.foldl_digits]
      rfl
    have more : 10 * start + Decimal.value c ≤
        (10 * start + Decimal.value c) * 10 ^ rest.length :=
      Nat.le_mul_of_pos_right _ (Nat.pow_pos (by decide))
    rw [fitting, if_pos (by omega), ih _ (by omega), whole]

/-! ## Powers of ten -/

open Binary64 (lastStep lastStep_pos)

theorem cast_lastStep (n : Nat) : ((n * 2 ^ 971 : Nat) : ℚ) = n * lastStep := by
  rw [Nat.cast_mul, Nat.cast_pow, Nat.cast_ofNat, lastStep]
  rfl

theorem cast_ten (k : Nat) : ((Nat.pow 10 k : Nat) : ℚ) = 10 ^ k := Nat.cast_pow 10 k

/-- The largest power of ten in range, and the next one. -/
theorem ten_range : (10 : ℚ) ^ 308 ≤ (2 ^ 53 - 4) * lastStep ∧
    (2 ^ 53 - 4) * lastStep < (10 : ℚ) ^ 309 := by
  have last : (2 ^ 53 - 4) * lastStep = ((9007199254740988 * 2 ^ 971 : Nat) : ℚ) := by
    rw [cast_lastStep]
    norm_num
  rw [last, ← cast_ten, ← cast_ten, Nat.cast_le, Nat.cast_lt]
  decide +kernel

theorem ten?_spec {k : Nat} (small : k ≤ 308) : ∃ ten, Binary64.ofNat? (Nat.pow 10 k) = some ten ∧
    2 ^ 53 * ten.magnitude ≤ (2 ^ 53 + 1) * 10 ^ k ∧
    (2 ^ 53 - 1) * 10 ^ k ≤ 2 ^ 53 * ten.magnitude := by
  have rounds := Binary64.ofNat?_roundsTo (Nat.pow 10 k)
  rw [cast_ten] at rounds
  have within : (10 : ℚ) ^ k ≤ (2 ^ 53 - 1) * lastStep :=
    calc (10 : ℚ) ^ k ≤ 10 ^ 308 := pow_le_pow_right₀ (by norm_num) small
      _ ≤ (2 ^ 53 - 4) * lastStep := ten_range.1
      _ ≤ (2 ^ 53 - 1) * lastStep := mul_le_mul_of_nonneg_right (by norm_num) lastStep_pos.le
  obtain ⟨ten, made⟩ := Option.isSome_iff_exists.mp (rounds.isSome within)
  exact ⟨ten, made, rounds.relative_error (one_le_pow₀ (by norm_num)) ten made⟩

theorem ten?_large {k : Nat} (pos : 0 < k) (small : k ≤ 308) :
    ∃ ten, Binary64.ofNat? (Nat.pow 10 k) = some ten ∧ 4 ≤ ten.magnitude := by
  obtain ⟨ten, made, -, below⟩ := ten?_spec small
  have large : (10 : ℚ) ^ 1 ≤ 10 ^ k := pow_le_pow_right₀ (by norm_num) pos
  exact ⟨ten, made, by linarith⟩

/-- What divisions of 64 bits come to stays far below the largest number. -/
theorem two_pow_71_le_largest : (2 : ℚ) ^ 71 ≤ (2 ^ 53 - 1) * lastStep :=
  calc (2 : ℚ) ^ 71 ≤ 10 ^ 100 := by norm_num
    _ ≤ 10 ^ 308 := pow_le_pow_right₀ (by norm_num) (by decide)
    _ ≤ (2 ^ 53 - 4) * lastStep := ten_range.1
    _ ≤ (2 ^ 53 - 1) * lastStep := mul_le_mul_of_nonneg_right (by norm_num) lastStep_pos.le

/-- Multiplying and dividing by powers of ten stays in range where the product does, with
room for the rounding of each factor. -/
theorem scaled?_isSome {fuel : Nat} {x : Binary64} {power : Int} (small : x.magnitude ≤ 2 ^ 70)
    (fits : 0 ≤ power → x.magnitude * 10 ^ power ≤ (2 ^ 53 - 3) * lastStep)
    (zero : 308 < power → x.isZero = true) : (scaled? fuel x power).isSome := by
  induction fuel generalizing x power with
  | zero => rfl
  | succ fuel ih =>
    have nonneg := x.magnitude_nonneg
    rw [scaled?]
    split
    · rename_i near
      obtain ⟨ten, made, above, below⟩ := ten?_spec near
      rw [made, Option.bind_eq_bind, Option.bind_some]
      split
      · rename_i up
        obtain ⟨k, rfl⟩ := Int.eq_ofNat_of_zero_le up
        refine (Binary64.mul?_roundsTo x ten).isSome ?_
        have product := fits up
        have unit := lastStep_pos
        rw [zpow_natCast] at product
        rw [Int.natAbs_natCast] at above
        have rounded := mul_le_mul_of_nonneg_left above nonneg
        linarith
      · have one : (1 : ℚ) ≤ 10 ^ power.natAbs := one_le_pow₀ (by norm_num)
        have half : 1 / 2 ≤ ten.magnitude := by linarith
        refine (Binary64.div?_roundsTo x (by linarith)).isSome (le_trans ?_ two_pow_71_le_largest)
        rw [div_le_iff₀ (by linarith)]
        linarith
    · rename_i far
      split
      · rfl
      split
      · rename_i other up
        exact absurd (zero (by omega)) other
      · rename_i down
        generalize huge : (308 : Nat) = k
        obtain ⟨ten, made, large⟩ := ten?_large (k := k) (by omega) (by omega)
        have shrunk : x.magnitude / ten.magnitude ≤ 2 ^ 68 := by
          rw [div_le_iff₀ (by linarith)]
          linarith
        have rounds := Binary64.div?_roundsTo x (y := ten) (by linarith)
        obtain ⟨y, divided⟩ := Option.isSome_iff_exists.mp
          (rounds.isSome (shrunk.trans (le_trans (by norm_num) two_pow_71_le_largest)))
        have coarse := rounds.le_two_mul_add_one y divided
        rw [made, Option.bind_eq_bind, Option.bind_some, divided, Option.bind_some]
        exact ih (by linarith) (by omega) (by omega)

/-! ## Numerals -/

/-- The power of ten that the exponent of a numeral stands for. -/
def Parts.power (p : Parts) : Int :=
  let exponent : Int := Decimal.toNat (p.exponent.getD [])
  if p.negativeExponent then -exponent else exponent

/-- What a numeral writes, its sign aside. -/
def Parts.written (p : Parts) : ℚ :=
  Decimal.toNat (p.integer ++ p.fraction) * 10 ^ (p.power - p.fraction.length)

/-- The digits that count are worth no more than what is written. -/
theorem significand_le {p : Parts} (whole : Decimal.toNat p.integer < UInt64.size) :
    p.significand.1 < UInt64.size ∧
      (p.significand.1 : ℚ) * 10 ^ (p.significand.2 + p.power) ≤ p.written := by
  have front := fitting_all 0 p.integer (by simpa using whole)
  rw [Nat.zero_mul, Nat.zero_add] at front
  obtain ⟨le, shorter, small⟩ := fitting_le (Decimal.toNat p.integer) p.fraction
  rw [Parts.significand, front]
  dsimp only
  generalize fitting (Decimal.toNat p.integer) p.fraction = kept at le shorter small
  refine ⟨small whole, ?_⟩
  rw [← Decimal.toNat_append] at le
  have power : ((([] : List Char).length : Int) - (p.fraction.length - kept.2.length : Nat)
      + p.power) = kept.2.length + (p.power - p.fraction.length) := by
    rw [List.length_nil, Nat.cast_sub shorter]
    ring
  have le' : (kept.1 : ℚ) * 10 ^ kept.2.length ≤ Decimal.toNat (p.integer ++ p.fraction) := by
    exact_mod_cast le
  calc (kept.1 : ℚ) * 10 ^ ((([] : List Char).length : Int)
          - (p.fraction.length - kept.2.length : Nat) + p.power)
      = kept.1 * 10 ^ kept.2.length * 10 ^ (p.power - p.fraction.length) := by
        rw [power, zpow_add₀ (by norm_num), zpow_natCast, mul_assoc]
    _ ≤ p.written := mul_le_mul_of_nonneg_right le' (by positivity)

/-- Digits of 64 bits with a power of ten, rounded at each step, are in range if what they
write is somewhat below the largest number. -/
theorem digits_isSome {digits : Nat} {power : Int} (small : digits < UInt64.size)
    (fits : (digits : ℚ) * 10 ^ power ≤ (2 ^ 53 - 4) * lastStep) :
    ((Binary64.ofNat? digits).bind fun x => scaled? 4 x power).isSome := by
  have rounds := Binary64.ofNat?_roundsTo digits
  have bits : (digits : ℚ) ≤ 2 ^ 64 := by exact_mod_cast small.le
  obtain ⟨x, made⟩ := Option.isSome_iff_exists.mp
    (rounds.isSome (bits.trans (le_trans (by norm_num) two_pow_71_le_largest)))
  have coarse := rounds.le_two_mul_add_one x made
  have below : x.magnitude ≤ 2 ^ 70 := by linarith
  rw [made, Option.bind_some]
  rcases Nat.eq_zero_or_pos digits with rfl | pos
  · cases made
    have nothing : Binary64.zero.magnitude = 0 := by
      rw [Binary64.magnitude, Binary64.zero, Nat.cast_zero, zero_mul]
    refine scaled?_isSome below (fun _ => ?_) fun _ => rfl
    rw [nothing, zero_mul]
    have unit := lastStep_pos
    linarith
  · have one : (1 : ℚ) ≤ digits := by exact_mod_cast pos
    have ten : (0 : ℚ) < 10 ^ power := by positivity
    refine scaled?_isSome below (fun _ => ?_) fun large => ?_
    · have near := mul_le_mul_of_nonneg_right (rounds.relative_error one x made).1 ten.le
      have unit := lastStep_pos
      linarith
    · -- a power beyond the range would take even one digit out of it
      have beyond : (10 : ℚ) ^ (309 : Int) ≤ 10 ^ power :=
        zpow_le_zpow_right₀ (by norm_num) (by omega)
      have least := le_mul_of_one_le_left ten.le one
      exact absurd (beyond.trans (least.trans fits)) (not_le.mpr ten_range.2)

/-- **Numerals somewhat below the largest number are in range.** -/
theorem real?_isSome {p : Parts} (whole : Decimal.toNat p.integer < UInt64.size)
    (small : p.written ≤ (2 ^ 53 - 4) * lastStep) (exponent : p.power ≤ Int32.maxValue.toInt) :
    p.real?.isSome := by
  obtain ⟨digits, le⟩ := significand_le whole
  have found := digits_isSome digits (le.trans small)
  obtain ⟨result, found⟩ := Option.isSome_iff_exists.mp found
  obtain ⟨x, made, rest⟩ := Option.bind_eq_some_iff.mp found
  rw [Parts.real?]
  unfold Parts.power at rest exponent
  dsimp only at rest exponent ⊢
  split
  · rename_i beyond
    have negative : p.negativeExponent = true := by
      by_contra positive
      rw [if_neg positive] at exponent
      omega
    rw [negative, if_neg (by simp)]
    rfl
  · have same : (if p.negativeExponent = true
        then p.significand.2 - (Decimal.toNat (p.exponent.getD []) : Int)
        else p.significand.2 + (Decimal.toNat (p.exponent.getD []) : Int)) =
        p.significand.2 + if p.negativeExponent = true
          then -(Decimal.toNat (p.exponent.getD []) : Int)
          else Decimal.toNat (p.exponent.getD []) := by
      split <;> omega
    rw [same, made, Option.bind_eq_bind, Option.bind_some, rest]
    rfl

end Numeral
end Rehoming.Json
