import Mathlib.Tactic.Ring
import Rehoming.Bytes

/-! Numbers as bytes, in both orders. Main statement: the shortest digits of a number are the ones
that give the number and do not begin with a zero. -/

namespace Rehoming.Bytes

theorem toNatBE_eq_reverse (bs : Bytes) : toNatBE bs = toNatLE bs.reverse := by
  rw [toNatBE, toNatLE, List.foldl_eq_foldr_reverse]
  simp only [Nat.add_comm]

theorem toNatLE_lt (bs : Bytes) : toNatLE bs < 256 ^ bs.length := by
  induction bs with
  | nil => exact Nat.one_pos
  | cons b bs ih =>
    have byte := b.toNat_lt
    rw [toNatLE_cons, List.length_cons, Nat.pow_succ]
    omega

theorem toNatLE_concat (bs : Bytes) (b : UInt8) :
    toNatLE (bs ++ [b]) = toNatLE bs + 256 ^ bs.length * b.toNat := by
  induction bs with
  | nil => simp [toNatLE]
  | cons c bs ih =>
    rw [List.cons_append, toNatLE_cons, ih, toNatLE_cons, List.length_cons, Nat.pow_succ]
    ring

theorem ofNatLE_toNatLE (bs : Bytes) : ofNatLE bs.length (toNatLE bs) = bs := by
  induction bs with
  | nil => rfl
  | cons b bs ih =>
    have byte := b.toNat_lt
    have low : UInt8.ofNat (b.toNat + 256 * toNatLE bs) = b := by
      apply UInt8.toNat.inj
      rw [UInt8.toNat_ofNat']
      omega
    have high : (b.toNat + 256 * toNatLE bs) / 256 = toNatLE bs := by omega
    rw [List.length_cons, toNatLE_cons, ofNatLE, low, high, ih]

theorem toNatLE_ofNatLE_of_lt {width n : Nat} (h : n < 256 ^ width) :
    toNatLE (ofNatLE width n) = n := by
  have digits : 1 <<< (8 * width) = 256 ^ width := by
    rw [Nat.shiftLeft_eq, Nat.one_mul, Nat.pow_mul]
  rw [toNatLE_ofNatLE, digits, Nat.mod_eq_of_lt h]

theorem ofNatBE_toNatBE (bs : Bytes) : ofNatBE bs.length (toNatBE bs) = bs := by
  rw [toNatBE_eq_reverse, ofNatBE, ← List.length_reverse, ofNatLE_toNatLE, List.reverse_reverse]

theorem toNatBE_ofNatBE {width n : Nat} (h : n < 256 ^ width) :
    toNatBE (ofNatBE width n) = n := by
  rw [toNatBE_eq_reverse, ofNatBE, List.reverse_reverse, toNatLE_ofNatLE_of_lt h]

theorem toNatBE_cons (b : UInt8) (bs : Bytes) :
    toNatBE (b :: bs) = toNatBE bs + 256 ^ bs.length * b.toNat := by
  rw [toNatBE_eq_reverse, List.reverse_cons, toNatLE_concat, ← toNatBE_eq_reverse,
    List.length_reverse]

theorem toNatBE_lt (bs : Bytes) : toNatBE bs < 256 ^ bs.length := by
  rw [toNatBE_eq_reverse, ← List.length_reverse]
  exact toNatLE_lt bs.reverse

/-! ## Shortest digits -/

theorem width_le_iff {n k : Nat} : width n ≤ k ↔ n < 256 ^ k := by
  have digits : 256 ^ k = 2 ^ (8 * k) := by rw [Nat.pow_mul]
  unfold width
  split
  · rename_i zero
    subst zero
    exact iff_of_true (Nat.zero_le k) (Nat.pow_pos (by decide))
  · rename_i some
    rw [digits, ← Nat.log2_lt some]
    omega

theorem toNatBE_ofNat (n : Nat) : toNatBE (ofNat n) = n :=
  toNatBE_ofNatBE (width_le_iff.mp le_rfl)

theorem length_ofNat_le_iff {n k : Nat} : (ofNat n).length ≤ k ↔ n < 256 ^ k := by
  rw [ofNat, length_ofNatBE, width_le_iff]

/-- Digits that do not begin with a zero are the shortest. -/
theorem ofNat_toNatBE {b : UInt8} (bs : Bytes) (h : b ≠ 0) :
    ofNat (toNatBE (b :: bs)) = b :: bs := by
  have size : width (toNatBE (b :: bs)) = (b :: bs).length := by
    refine Nat.le_antisymm (width_le_iff.mpr (toNatBE_lt _)) ?_
    have high : 256 ^ bs.length ≤ toNatBE (b :: bs) := by
      have digit : 0 < b.toNat := Nat.pos_of_ne_zero fun zero => h (UInt8.toNat.inj zero)
      rw [toNatBE_cons]
      exact Nat.le_add_left_of_le (Nat.le_mul_of_pos_right _ digit)
    exact Nat.lt_of_not_le fun less => Nat.not_lt.mpr high (width_le_iff.mp less)
  rw [ofNat, size, ofNatBE_toNatBE]

theorem head_ofNat {n : Nat} {b : UInt8} {bs : Bytes} (h : ofNat n = b :: bs) : b ≠ 0 := by
  rintro rfl
  have value : toNatBE bs = n := by
    rw [← toNatBE_ofNat n, h, toNatBE_cons]
    simp
  have size : (ofNat n).length ≤ bs.length :=
    length_ofNat_le_iff.mpr (value ▸ toNatBE_lt bs)
  rw [h, List.length_cons] at size
  omega

theorem ofNat_ne_nil {n : Nat} (h : n ≠ 0) : ofNat n ≠ [] := by
  intro none
  have value := toNatBE_ofNat n
  rw [none] at value
  exact h value.symm

end Rehoming.Bytes
