import Mathlib.Algebra.Order.Field.Power
import Mathlib.Tactic.FieldSimp
import Mathlib.Tactic.Linarith
import Mathlib.Tactic.NormNum
import Mathlib.Tactic.Positivity
import Mathlib.Tactic.Ring
import Rehoming.Json.Binary64

/-! Rounding to binary floating-point numbers, as a statement about rational numbers. -/

namespace Rehoming.Json.Binary64

/-- The magnitude as a rational number. -/
def magnitude (x : Binary64) : ℚ := x.mantissa * 2 ^ x.exponent

theorem magnitude_nonneg (x : Binary64) : 0 ≤ x.magnitude := by
  unfold magnitude
  positivity

theorem scale_spec (n : Nat) {d : Nat} (hd : 0 < d) (power : Int) :
    0 < (scale n d power).2 ∧
      ((scale n d power).1 : ℚ) / (scale n d power).2 = n / d * 2 ^ power := by
  unfold scale
  split
  · rename_i up
    obtain ⟨k, rfl⟩ := Int.eq_ofNat_of_zero_le up
    refine ⟨hd, ?_⟩
    simp only [Int.toNat_natCast, Nat.shiftLeft_eq, Nat.cast_mul, Nat.cast_pow, Nat.cast_ofNat,
      zpow_natCast]
    ring
  · rename_i down
    obtain ⟨k, rfl⟩ : ∃ k : Nat, power = -k := ⟨(-power).toNat, by omega⟩
    refine ⟨?_, ?_⟩
    · rw [Nat.shiftLeft_eq]
      exact Nat.mul_pos hd (Nat.two_pow_pos _)
    · simp only [neg_neg, Int.toNat_natCast, Nat.shiftLeft_eq, Nat.cast_mul, Nat.cast_pow,
        Nat.cast_ofNat, zpow_neg, zpow_natCast]
      field_simp

/-- What a number is rounded to: `m` steps of `2 ^ e`, which are as fine as 53 bits allow. -/
structure Rounds (v : ℚ) (m : Nat) (e : Int) : Prop where
  least : -1074 ≤ e
  fits : v < 2 ^ 53 * 2 ^ e
  fine : e = -1074 ∨ 2 ^ 52 * 2 ^ e ≤ v
  above : 2 * (m * 2 ^ e) ≤ 2 * v + 2 ^ e
  below : 2 * v ≤ 2 * (m * 2 ^ e) + 2 ^ e

/-- The natural number nearest to a quotient is within one half of it. -/
theorem nearest_spec (n : Nat) {d : Nat} (hd : 0 < d) {m : Nat}
    (h : m = if d < 2 * (n % d) ∨ (2 * (n % d) = d ∧ n / d % 2 = 1) then n / d + 1 else n / d) :
    2 * (m : ℚ) ≤ 2 * (n / d) + 1 ∧ 2 * ((n : ℚ) / d) ≤ 2 * m + 1 := by
  have positive : (0 : ℚ) < d := by exact_mod_cast hd
  have parts : (n : ℚ) / d = (n / d : Nat) + (n % d : Nat) / d := by
    have whole : (n : ℚ) = d * (n / d : Nat) + (n % d : Nat) := by
      exact_mod_cast (Nat.div_add_mod n d).symm
    rw [whole, add_div, mul_div_cancel_left₀ _ positive.ne']
  have least : (0 : ℚ) ≤ (n % d : Nat) / d := by positivity
  have most : ((n % d : Nat) : ℚ) / d < 1 :=
    (div_lt_one positive).mpr (by exact_mod_cast Nat.mod_lt n hd)
  split at h
  · rename_i up
    have half : (1 : ℚ) / 2 ≤ (n % d : Nat) / d := by
      rw [div_le_div_iff₀ (by norm_num) positive]
      exact_mod_cast (by omega : 1 * d ≤ n % d * 2)
    rw [h, parts]
    push_cast
    constructor <;> linarith
  · rename_i down
    have half : ((n % d : Nat) : ℚ) / d ≤ 1 / 2 := by
      rw [div_le_div_iff₀ positive (by norm_num)]
      exact_mod_cast (by omega : n % d * 2 ≤ 1 * d)
    rw [h, parts]
    constructor <;> linarith

/-- The logarithms of a quotient's terms bound it within two binary places. -/
theorem log2_spec {n d : Nat} (hn : 0 < n) (hd : 0 < d) :
    (2 : ℚ) ^ ((n.log2 : Int) - d.log2 - 1) < n / d ∧
      (n : ℚ) / d < 2 ^ ((n.log2 : Int) - d.log2 + 1) := by
  have lowN : (2 ^ n.log2 : ℚ) ≤ n := by exact_mod_cast Nat.log2_self_le hn.ne'
  have highN : (n : ℚ) < 2 ^ (n.log2 + 1) := by exact_mod_cast Nat.lt_log2_self
  have lowD : (2 ^ d.log2 : ℚ) ≤ d := by exact_mod_cast Nat.log2_self_le hd.ne'
  have highD : (d : ℚ) < 2 ^ (d.log2 + 1) := by exact_mod_cast Nat.lt_log2_self
  have positive : (0 : ℚ) < d := by exact_mod_cast hd
  constructor
  · rw [lt_div_iff₀ positive]
    calc (2 : ℚ) ^ ((n.log2 : Int) - d.log2 - 1) * d
        < 2 ^ ((n.log2 : Int) - d.log2 - 1) * 2 ^ (d.log2 + 1) :=
          mul_lt_mul_of_pos_left highD (by positivity)
      _ = 2 ^ n.log2 := by
          rw [← zpow_natCast, ← zpow_natCast, ← zpow_add₀ (by norm_num)]
          congr 1
          push_cast
          ring
      _ ≤ n := lowN
  · rw [div_lt_iff₀ positive]
    calc (n : ℚ) < 2 ^ (n.log2 + 1) := highN
      _ = 2 ^ ((n.log2 : Int) - d.log2 + 1) * 2 ^ d.log2 := by
          rw [← zpow_natCast, ← zpow_natCast, ← zpow_add₀ (by norm_num)]
          congr 1
          push_cast
          ring
      _ ≤ 2 ^ ((n.log2 : Int) - d.log2 + 1) * d :=
          mul_le_mul_of_nonneg_left lowD (by positivity)

/-- Which power of two leaves 53 bits of a quotient before the point. -/
theorem binade_spec {n d : Nat} (hn : 0 < n) (hd : 0 < d) {guess fine : Int}
    (hg : guess = (n.log2 : Int) - d.log2 - 53)
    (hf : fine = if 1 <<< 53 ≤ (scale n d (-guess)).1 / (scale n d (-guess)).2
      then guess + 1 else guess) :
    2 ^ 52 * (2 : ℚ) ^ fine ≤ n / d ∧ (n : ℚ) / d < 2 ^ 53 * 2 ^ fine := by
  obtain ⟨low, high⟩ := log2_spec hn hd
  obtain ⟨positive, scaled⟩ := scale_spec n hd (-guess)
  have unit : (0 : ℚ) < 2 ^ guess := by positivity
  have back : (n : ℚ) / d = (scale n d (-guess)).1 / (scale n d (-guess)).2 * 2 ^ guess := by
    rw [scaled, mul_assoc, ← zpow_add₀ (by norm_num), neg_add_cancel, zpow_zero, mul_one]
  rw [show (n.log2 : Int) - d.log2 - 1 = 52 + guess by omega, zpow_add₀ (by norm_num)] at low
  rw [show (n.log2 : Int) - d.log2 + 1 = 54 + guess by omega, zpow_add₀ (by norm_num)] at high
  have positive' : (0 : ℚ) < (scale n d (-guess)).2 := by exact_mod_cast positive
  have fits : (1 <<< 53 : Nat) = 2 ^ 53 := by decide
  split at hf
  · rename_i large
    rw [hf, zpow_add_one₀ (by norm_num)]
    have : (2 ^ 53 : ℚ) ≤ (scale n d (-guess)).1 / (scale n d (-guess)).2 := by
      rw [le_div_iff₀ positive']
      rw [Nat.le_div_iff_mul_le positive, fits] at large
      exact_mod_cast large
    constructor
    · rw [back]
      nlinarith
    · norm_num at high ⊢
      linarith
  · rename_i small
    rw [hf]
    have : ((scale n d (-guess)).1 : ℚ) / (scale n d (-guess)).2 < 2 ^ 53 := by
      rw [div_lt_iff₀ positive']
      rw [Nat.le_div_iff_mul_le positive, fits] at small
      exact_mod_cast not_le.mp small
    constructor
    · norm_num at low ⊢
      linarith
    · rw [back]
      exact mul_lt_mul_of_pos_right this unit

/-- Numbers end at an exponent of 971. -/
def bounded (m : Nat) (e : Int) : Option Binary64 := if 971 < e then none else some ⟨false, m, e⟩

theorem ofRatio?_spec {n d : Nat} (hn : 0 < n) (hd : 0 < d) :
    ∃ m e, Rounds (n / d) m e ∧
      ofRatio? n d = if m = 2 ^ 53 then bounded (2 ^ 52) (e + 1) else bounded m e := by
  rw [ofRatio?, if_neg hn.ne']
  dsimp only
  generalize hg : (n.log2 : Int) - d.log2 - 53 = guess
  generalize hf : (if 1 <<< 53 ≤ (scale n d (-guess)).1 / (scale n d (-guess)).2
    then guess + 1 else guess) = fine
  generalize he : (if fine < -1074 then -1074 else fine) = e
  obtain ⟨low, high⟩ := binade_spec hn hd hg.symm hf.symm
  obtain ⟨positive, scaled⟩ := scale_spec n hd (-e)
  generalize hs : scale n d (-e) = s at positive scaled
  generalize hm : (if s.2 < 2 * (s.1 % s.2) ∨ (2 * (s.1 % s.2) = s.2 ∧ s.1 / s.2 % 2 = 1)
    then s.1 / s.2 + 1 else s.1 / s.2) = m
  obtain ⟨above, below⟩ := nearest_spec s.1 positive hm.symm
  have unit : (0 : ℚ) < 2 ^ e := by positivity
  have back : (n : ℚ) / d = s.1 / s.2 * 2 ^ e := by
    rw [scaled, mul_assoc, ← zpow_add₀ (by norm_num), neg_add_cancel, zpow_zero, mul_one]
  have coarser : (2 : ℚ) ^ fine ≤ 2 ^ e :=
    zpow_le_zpow_right₀ (by norm_num) (by rw [← he]; split <;> omega)
  refine ⟨m, e, ⟨?_, ?_, ?_, ?_, ?_⟩, ?_⟩
  · rw [← he]
    split <;> omega
  · linarith
  · rw [← he]
    split
    · exact .inl rfl
    · exact .inr low
  · rw [back]
    nlinarith
  · rw [back]
    nlinarith
  · rw [show (1 <<< 53 : Nat) = 2 ^ 53 by decide, show (1 <<< 52 : Nat) = 2 ^ 52 by decide]
    split
    · rfl
    · rfl

/-! ## What rounding does to a number -/

/-- The distance of the largest numbers from each other. -/
def lastStep : ℚ := 2 ^ (971 : Int)

theorem lastStep_pos : 0 < lastStep := zpow_pos (by norm_num) 971

namespace Rounds

variable {v : ℚ} {m : Nat} {e : Int}

/-- From one on, the error is in the 54th bit. -/
theorem relative_error (h : Rounds v m e) (one : 1 ≤ v) :
    2 ^ 53 * (m * 2 ^ e) ≤ (2 ^ 53 + 1) * v ∧ (2 ^ 53 - 1) * v ≤ 2 ^ 53 * (m * 2 ^ e) := by
  have step : 2 ^ 52 * 2 ^ e ≤ v := by
    rcases h.fine with rfl | fine
    · have small : (2 : ℚ) ^ (53 + -1074 : Int) ≤ 1 :=
        zpow_le_one_of_nonpos₀ (by norm_num) (by decide)
      rw [zpow_add₀ (by norm_num)] at small
      exact absurd h.fits (not_lt.mpr (small.trans one))
    · exact fine
  have above := h.above
  have below := h.below
  constructor <;> linarith

/-- Whatever the number, rounding does not blow it up. -/
theorem le_two_mul_add_one (h : Rounds v m e) (nonneg : 0 ≤ v) : m * 2 ^ e ≤ 2 * v + 1 := by
  have above := h.above
  rcases h.fine with rfl | fine
  · have small : (2 : ℚ) ^ (-1074 : Int) ≤ 1 :=
      zpow_le_one_of_nonpos₀ (by norm_num) (by decide)
    linarith
  · linarith

/-- What is at most the largest number stays within the exponents. -/
theorem exponent_le (h : Rounds v m e) (small : v ≤ (2 ^ 53 - 1) * lastStep) :
    e ≤ 971 ∧ (m = 2 ^ 53 → e ≤ 970) := by
  have grows {k : Int} (hk : k ≤ e) : (2 : ℚ) ^ k ≤ 2 ^ e := zpow_le_zpow_right₀ (by norm_num) hk
  have unit := lastStep_pos
  constructor
  · by_contra large
    have step : lastStep * 2 ≤ 2 ^ e := by
      rw [lastStep, ← zpow_add_one₀ (by norm_num)]
      exact grows (by omega)
    have fine := h.fine.resolve_left (by omega)
    linarith
  · rintro rfl
    by_contra large
    have step : lastStep ≤ 2 ^ e := grows (by omega)
    have above := h.above
    push_cast at above
    linarith

/-- A magnitude of at least the last 4 numbers is rounded within the last binade. -/
theorem last_binade (h : Rounds v m e) (large : (2 ^ 53 - 4) * lastStep ≤ v) (within : e ≤ 971) :
    e = 971 ∧ 2 ^ 53 - 4 ≤ m ∧ m ≤ 2 ^ 53 := by
  have unit := lastStep_pos
  have fits := h.fits
  have last : e = 971 := by
    by_contra other
    have step : 2 ^ e * 2 ≤ lastStep := by
      rw [lastStep, ← zpow_add_one₀ (by norm_num)]
      exact zpow_le_zpow_right₀ (by norm_num) (by omega)
    linarith
  have above := h.above
  have below := h.below
  rw [last, ← lastStep] at above below fits
  have low : (2 ^ 53 - 5 : ℚ) < m := lt_of_mul_lt_mul_right (by linarith) unit.le
  have high : (m : ℚ) < 2 ^ 53 + 1 := lt_of_mul_lt_mul_right (by linarith) unit.le
  refine ⟨last, ?_, ?_⟩
  · have : (2 ^ 53 : Nat) < m + 5 := by exact_mod_cast sub_lt_iff_lt_add.mp low
    omega
  · have : m < (2 ^ 53 + 1 : Nat) := by exact_mod_cast high
    omega

end Rounds

/-- What is known of the number `r` that a magnitude `v` is rounded to. The last 4 numbers
are told by the bits of their mantissas. -/
structure RoundsTo (v : ℚ) (r : Option Binary64) : Prop where
  isSome : v ≤ (2 ^ 53 - 1) * lastStep → r.isSome
  le_two_mul_add_one : ∀ x ∈ r, x.magnitude ≤ 2 * v + 1
  relative_error : 1 ≤ v → ∀ x ∈ r, 2 ^ 53 * x.magnitude ≤ (2 ^ 53 + 1) * v ∧
    (2 ^ 53 - 1) * v ≤ 2 ^ 53 * x.magnitude
  last_binade : (2 ^ 53 - 4) * lastStep ≤ v → ∀ x ∈ r, x.negative = false ∧ x.exponent = 971 ∧
    2 ^ 53 - 4 ≤ x.mantissa ∧ x.mantissa < 2 ^ 53

/-- A mantissa that is one bit too long is carried into the exponent. -/
theorem ofRatio?_eq_some {n d : Nat} (hn : 0 < n) (hd : 0 < d) {x : Binary64}
    (h : ofRatio? n d = some x) : ∃ m e, Rounds (n / d) m e ∧ x.magnitude = m * 2 ^ e ∧
      ((m = 2 ^ 53 ∧ e ≤ 970) ∨ (m ≠ 2 ^ 53 ∧ e ≤ 971 ∧ x = ⟨false, m, e⟩)) := by
  obtain ⟨m, e, rounds, made⟩ := ofRatio?_spec hn hd
  refine ⟨m, e, rounds, ?_⟩
  rw [h] at made
  split at made
  · rename_i full
    rw [bounded] at made
    split at made
    · cases made
    · cases made
      refine ⟨?_, .inl ⟨full, by omega⟩⟩
      rw [magnitude, full, zpow_add_one₀ (by norm_num)]
      push_cast
      ring
  · rename_i room
    rw [bounded] at made
    split at made
    · cases made
    · cases made
      exact ⟨rfl, .inr ⟨room, by omega, rfl⟩⟩

theorem ofRatio?_roundsTo (n : Nat) {d : Nat} (hd : 0 < d) :
    RoundsTo (n / d) (ofRatio? n d) := by
  rcases Nat.eq_zero_or_pos n with rfl | hn
  · have made : ofRatio? 0 d = some zero := rfl
    have nothing : zero.magnitude = 0 := by
      rw [magnitude, zero, Nat.cast_zero, zero_mul]
    rw [made, Nat.cast_zero, zero_div]
    refine ⟨fun _ => rfl, fun x hx => ?_, fun one => ?_, fun large => ?_⟩
    · cases hx
      rw [nothing]
      norm_num
    · norm_num at one
    · have unit := lastStep_pos
      linarith
  have nonneg : (0 : ℚ) ≤ n / d := by positivity
  refine ⟨fun small => ?_, fun x hx => ?_, fun one x hx => ?_, fun large x hx => ?_⟩
  · obtain ⟨m, e, rounds, made⟩ := ofRatio?_spec hn hd
    obtain ⟨fits, carried⟩ := rounds.exponent_le small
    rw [made]
    split
    · rename_i full
      have room := carried full
      rw [bounded, if_neg (by omega)]
      rfl
    · rw [bounded, if_neg (by omega)]
      rfl
  · obtain ⟨m, e, rounds, same, -⟩ := ofRatio?_eq_some hn hd hx
    rw [same]
    exact rounds.le_two_mul_add_one nonneg
  · obtain ⟨m, e, rounds, same, -⟩ := ofRatio?_eq_some hn hd hx
    rw [same]
    exact rounds.relative_error one
  · obtain ⟨m, e, rounds, -, ⟨full, within⟩ | ⟨room, within, rfl⟩⟩ := ofRatio?_eq_some hn hd hx
    · have last := (rounds.last_binade large (by omega)).1
      omega
    · obtain ⟨last, low, high⟩ := rounds.last_binade large within
      exact ⟨rfl, last, low, lt_of_le_of_ne high room⟩

/-! ## Arithmetic -/

theorem ofNat?_roundsTo (n : Nat) : RoundsTo n (ofNat? n) := by
  have rounds := ofRatio?_roundsTo n Nat.one_pos
  rwa [Nat.cast_one, div_one] at rounds

theorem ratio_spec (x : Binary64) :
    0 < x.ratio.2 ∧ (x.ratio.1 : ℚ) / x.ratio.2 = x.magnitude := by
  have spec := scale_spec x.mantissa Nat.one_pos x.exponent
  rwa [Nat.cast_one, div_one] at spec

theorem mul?_roundsTo (x y : Binary64) : RoundsTo (x.magnitude * y.magnitude) (x.mul? y) := by
  obtain ⟨hb, hx⟩ := x.ratio_spec
  obtain ⟨hd, hy⟩ := y.ratio_spec
  have rounds := ofRatio?_roundsTo (x.ratio.1 * y.ratio.1) (Nat.mul_pos hb hd)
  rwa [Nat.cast_mul, Nat.cast_mul, mul_div_mul_comm, hx, hy] at rounds

theorem div?_roundsTo (x : Binary64) {y : Binary64} (nonzero : 0 < y.magnitude) :
    RoundsTo (x.magnitude / y.magnitude) (x.div? y) := by
  obtain ⟨hb, hx⟩ := x.ratio_spec
  obtain ⟨hd, hy⟩ := y.ratio_spec
  have hc : 0 < y.ratio.1 := by
    refine Nat.pos_of_ne_zero fun zero => ?_
    rw [zero, Nat.cast_zero, zero_div] at hy
    exact nonzero.ne hy
  have rounds := ofRatio?_roundsTo (x.ratio.1 * y.ratio.2) (Nat.mul_pos hb hc)
  rwa [Nat.cast_mul, Nat.cast_mul, ← div_div_div_eq, hx, hy] at rounds

end Rehoming.Json.Binary64
