import Rehoming.Json.Printer
import Rehoming.Proofs.Json.Numerals
import Rehoming.Proofs.Json.Range

/-! Floating-point numbers as numerals: however a number is laid out, what is written for it
is a numeral and is in range when it is read. It need not be read as the same number. -/

namespace Rehoming.Json

open Text

/-! ## Digits that read back -/

namespace Binary64

theorem scaleTen_spec (n : Nat) (place : Int) : 0 < (scaleTen n 1 place).2 ∧
    ((scaleTen n 1 place).1 : ℚ) / (scaleTen n 1 place).2 = n * 10 ^ place := by
  have pow (k : Nat) : Nat.pow 10 k = 10 ^ k := rfl
  unfold scaleTen
  split
  · rename_i up
    obtain ⟨k, rfl⟩ := Int.eq_ofNat_of_zero_le up
    refine ⟨Nat.one_pos, ?_⟩
    simp only [Int.toNat_natCast, pow, Nat.cast_mul, Nat.cast_pow, Nat.cast_ofNat, Nat.cast_one,
      div_one, zpow_natCast]
  · rename_i down
    obtain ⟨k, rfl⟩ : ∃ k : Nat, place = -k := ⟨(-place).toNat, by omega⟩
    refine ⟨?_, ?_⟩
    · rw [pow, Nat.one_mul]
      exact Nat.pow_pos (by decide)
    · simp only [neg_neg, Int.toNat_natCast, pow, Nat.cast_pow, Nat.cast_ofNat, one_mul, zpow_neg,
        zpow_natCast, div_eq_mul_inv]

/-- The digits that are written are rounded to the number, if they are any. -/
theorem shortest_spec (x : Binary64) : x.shortest = (0, 0) ∨
    readsBack x x.shortest.1 x.shortest.2 = true := by
  unfold shortest
  dsimp only
  cases found : (List.range 18).findSome? _ with
  | none => exact .inl rfl
  | some made =>
    obtain ⟨k, -, hk⟩ := List.exists_of_findSome?_eq_some found
    obtain ⟨digits, hd, rfl⟩ := Option.map_eq_some_iff.mp hk
    have back := List.find?_some hd
    exact .inr back

theorem ofRatio?_of_readsBack {x : Binary64} {digits : Nat} {place : Int}
    (h : readsBack x digits place = true) :
    ofRatio? (scaleTen digits 1 place).1 (scaleTen digits 1 place).2 =
      some { x with negative := false } := beq_iff_eq.mp h

/-- The digit zero is read back as zero only. -/
theorem isZero_of_readsBack {x : Binary64} {place : Int} (h : readsBack x 0 place = true) :
    x.isZero = true := by
  have nothing : (scaleTen 0 1 place).1 = 0 := by
    unfold scaleTen
    split
    · exact Nat.zero_mul _
    · rfl
  have same := ofRatio?_of_readsBack h
  rw [nothing, ofRatio?, if_pos rfl] at same
  exact beq_iff_eq.mpr (congrArg mantissa (Option.some.inj same)).symm

theorem roundsTo_of_readsBack {x : Binary64} {digits : Nat} {place : Int}
    (h : readsBack x digits place = true) :
    RoundsTo (digits * 10 ^ place) (some { x with negative := false }) := by
  obtain ⟨positive, value⟩ := scaleTen_spec digits place
  have rounds := ofRatio?_roundsTo (scaleTen digits 1 place).1 positive
  rwa [value, ofRatio?_of_readsBack h] at rounds

end Binary64

namespace Numeral

open Binary64 (lastStep)

/-- The digits of a number and the place of the last one. -/
def writtenDigits (x : Binary64) : Nat × Int := if x.isZero then (0, 0) else x.shortest

/-- The parts of a floating-point number as it is written. -/
def realParts (x : Binary64) : Parts :=
  let place := (writtenDigits x).2
  let ds := Decimal.ofNat (writtenDigits x).1
  let exponent : Int := place + ds.length - 1
  if exponent < Number.smallestPlain ∨ Number.largestPlain ≤ exponent then
    ⟨x.negative, ds.take 1, ds.drop 1, !(ds.drop 1).isEmpty, decide (exponent < 0),
      some (Decimal.ofNat exponent.natAbs)⟩
  else if 0 ≤ place then
    ⟨x.negative, ds ++ List.replicate place.toNat '0', ['0'], true, false, none⟩
  else if exponent < 0 then
    ⟨x.negative, ['0'], List.replicate (exponent.natAbs - 1) '0' ++ ds, true, false, none⟩
  else
    ⟨x.negative, ds.take (exponent.toNat + 1), ds.drop (exponent.toNat + 1), true, false, none⟩

theorem chars_realParts (x : Binary64) : (realParts x).chars = Number.realChars x := by
  have pair : (if x.isZero then ((0, 0) : Nat × Int) else x.shortest) = writtenDigits x := rfl
  unfold realParts Number.realChars
  rw [pair]
  dsimp only
  generalize (writtenDigits x).2 = place
  generalize Decimal.ofNat (writtenDigits x).1 = ds
  split
  · simp only [Parts.chars, Parts.unsignedChars, Parts.fractionChars, Parts.exponentChars]
    cases ds.drop 1 <;> simp
  · split
    · simp [Parts.chars, Parts.unsignedChars, Parts.fractionChars, Parts.exponentChars]
    · split
      · simp [Parts.chars, Parts.unsignedChars, Parts.fractionChars, Parts.exponentChars]
      · simp [Parts.chars, Parts.unsignedChars, Parts.fractionChars, Parts.exponentChars]

/-- Only zero is written with the digit zero, and any other number with digits that are
rounded to it. -/
theorem writtenDigits_spec (x : Binary64) : writtenDigits x = (0, 0) ∨
    0 < (writtenDigits x).1 ∧ Binary64.RoundsTo
      ((writtenDigits x).1 * 10 ^ (writtenDigits x).2) (some { x with negative := false }) := by
  unfold writtenDigits
  split
  · exact .inl rfl
  · rename_i nonzero
    refine x.shortest_spec.imp_right fun back => ⟨?_, Binary64.roundsTo_of_readsBack back⟩
    refine Nat.pos_of_ne_zero fun none => nonzero ?_
    rw [none] at back
    exact Binary64.isZero_of_readsBack back

/-- Where the point of a numeral can be put that has these digits, the last of them at this
place: after the first digit and with an exponent, behind all of them, before all of them, or
between two of them. -/
inductive Layout (negative : Bool) (ds : List Char) (place : Int) : Parts → Prop
  | scientific : Layout negative ds place
      ⟨negative, ds.take 1, ds.drop 1, !(ds.drop 1).isEmpty, decide (place + ds.length - 1 < 0),
        some (Decimal.ofNat (place + ds.length - 1).natAbs)⟩
  | behind (up : 0 ≤ place) (near : place + ds.length ≤ 16) : Layout negative ds place
      ⟨negative, ds ++ List.replicate place.toNat '0', ['0'], true, false, none⟩
  | before (below : place + ds.length - 1 < 0) : Layout negative ds place
      ⟨negative, ['0'], List.replicate ((place + ds.length - 1).natAbs - 1) '0' ++ ds, true, false,
        none⟩
  | between (down : place < 0) (above : 0 ≤ place + ds.length - 1)
      (near : place + ds.length ≤ 16) : Layout negative ds place
      ⟨negative, ds.take ((place + ds.length - 1).toNat + 1),
        ds.drop ((place + ds.length - 1).toNat + 1), true, false, none⟩

theorem realParts_layout (x : Binary64) :
    Layout x.negative (Decimal.ofNat (writtenDigits x).1) (writtenDigits x).2 (realParts x) := by
  unfold realParts Number.largestPlain
  dsimp only
  split
  · exact .scientific
  rename_i near
  split
  · rename_i up
    exact .behind up (by omega)
  rename_i down
  split
  · rename_i below
    exact .before below
  · rename_i above
    exact .between (by omega) (by omega) (by omega)

namespace Layout

variable {negative : Bool} {ds : List Char} {place : Int} {p : Parts}

theorem wellFormed (h : Layout negative ds place p)
    (digits : ∀ c ∈ ds, Decimal.isDigit c = true) (given : ds ≠ [])
    (lead : ds.head? ≠ some '0') : p.WellFormed := by
  have zeros (n : Nat) : ∀ c ∈ List.replicate n '0', Decimal.isDigit c = true := by
    intro c hc
    rw [List.eq_of_mem_replicate hc]
    rfl
  obtain ⟨first, rest, rfl⟩ := List.exists_cons_of_ne_nil given
  cases h with
  | scientific => exact {
      integer := fun c hc => digits c (List.mem_of_mem_take hc)
      whole := nofun
      short := .inr lead
      fraction := fun c hc => digits c (List.mem_of_mem_drop hc)
      given := rfl
      exponent := by
        rintro exponent ⟨⟩
        exact ⟨Decimal.ofNat_ne_nil _, Decimal.isDigit_of_mem_ofNat _⟩
      sign := nofun }
  | behind up near => exact {
      integer := fun c hc => (List.mem_append.mp hc).elim (digits c) (zeros _ c)
      whole := nofun
      short := .inr lead
      fraction := zeros 1
      given := rfl
      exponent := nofun
      sign := fun _ => rfl }
  | before below => exact {
      integer := zeros 1
      whole := nofun
      short := .inl rfl
      fraction := fun c hc => (List.mem_append.mp hc).elim (zeros _ c) (digits c)
      given := by simp
      exponent := nofun
      sign := fun _ => rfl }
  | between down above near => exact {
      integer := fun c hc => digits c (List.mem_of_mem_take hc)
      whole := nofun
      short := .inr lead
      fraction := fun c hc => digits c (List.mem_of_mem_drop hc)
      given := by
        have left : (place + (first :: rest).length - 1).toNat + 1 < (first :: rest).length := by
          omega
        cases cut : (first :: rest).drop ((place + (first :: rest).length - 1).toNat + 1) with
        | nil => exact absurd (List.drop_eq_nil_iff.mp cut) (not_le.mpr left)
        | cons => rfl
      exponent := nofun
      sign := fun _ => rfl }

/-- Wherever the point is put, the numeral writes the digits at their place. -/
theorem written (h : Layout negative ds place p) (given : ds ≠ []) :
    p.written = Decimal.toNat ds * 10 ^ place := by
  have some : 0 < ds.length := List.length_pos_iff.mpr given
  cases h with
  | scientific =>
    have signed (e : Int) :
        (if decide (e < 0) = true then -(e.natAbs : Int) else e.natAbs) = e := by
      simp only [decide_eq_true_eq]
      split <;> omega
    rw [Parts.written, Parts.power]
    dsimp only
    rw [Option.getD_some, Decimal.toNat_ofNat, signed, List.take_append_drop, List.length_drop]
    congr 2
    omega
  | behind up near =>
    obtain ⟨k, rfl⟩ := Int.eq_ofNat_of_zero_le up
    have all : Decimal.toNat ((ds ++ List.replicate k '0') ++ ['0']) =
        Decimal.toNat ds * 10 ^ k * 10 := by
      rw [Decimal.toNat_append, Decimal.toNat_append, Decimal.toNat_zeros, List.length_replicate]
      rfl
    show (Decimal.toNat ((ds ++ List.replicate k '0') ++ ['0']) : ℚ) * 10 ^ (-1 : Int) = _
    rw [all]
    push_cast
    rw [zpow_natCast, mul_assoc, zpow_neg_one, mul_inv_cancel₀ (by norm_num), mul_one]
  | before below =>
    generalize zeros : (place + ds.length - 1).natAbs - 1 = n
    have all : Decimal.toNat (['0'] ++ (List.replicate n '0' ++ ds)) = Decimal.toNat ds := by
      rw [Decimal.toNat_append, Decimal.toNat_append, Decimal.toNat_zeros]
      simp [Decimal.toNat, Decimal.value]
    show (Decimal.toNat (['0'] ++ (List.replicate n '0' ++ ds)) : ℚ) *
      10 ^ (0 - ((List.replicate n '0' ++ ds).length : Int)) = _
    rw [all, List.length_append, List.length_replicate]
    congr 2
    omega
  | between down above near =>
    show (Decimal.toNat (ds.take _ ++ ds.drop _) : ℚ) * 10 ^ (0 - ((ds.drop _).length : Int)) = _
    rw [List.take_append_drop, List.length_drop]
    congr 2
    omega

theorem integer_length (h : Layout negative ds place p) (given : ds ≠ []) :
    p.integer.length ≤ 16 := by
  have some : 0 < ds.length := List.length_pos_iff.mpr given
  cases h with
  | scientific => exact (List.length_take_le 1 ds).trans (by decide)
  | behind up near =>
    show (ds ++ List.replicate place.toNat '0').length ≤ 16
    rw [List.length_append, List.length_replicate]
    omega
  | before below => exact (by decide : 1 ≤ 16)
  | between down above near => exact (List.length_take_le _ ds).trans (by omega)

end Layout

theorem realParts_wellFormed (x : Binary64) : (realParts x).WellFormed := by
  rcases writtenDigits_spec x with zero | ⟨pos, -⟩
  · have parts : realParts x = ⟨x.negative, ['0'], ['0'], true, false, none⟩ := by
      simp only [realParts, zero, Decimal.ofNat_zero]
      rfl
    have naught : ∀ c ∈ ['0'], Decimal.isDigit c = true := by
      intro c only
      rw [List.mem_singleton.mp only]
      rfl
    rw [parts]
    exact ⟨naught, nofun, .inl rfl, naught, rfl, nofun, fun _ => rfl⟩
  · exact (realParts_layout x).wellFormed (Decimal.isDigit_of_mem_ofNat _)
      (Decimal.ofNat_ne_nil _) (Decimal.head?_ofNat pos)

theorem written_realParts (x : Binary64) :
    (realParts x).written = (writtenDigits x).1 * 10 ^ (writtenDigits x).2 := by
  rw [(realParts_layout x).written (Decimal.ofNat_ne_nil _), Decimal.toNat_ofNat]

/-! ## Range -/

/-- What is written with a digit other than zero in front is worth the power of ten. -/
theorem Parts.WellFormed.power_le {p : Parts} (h : p.WellFormed)
    (lead : p.integer.head? ≠ some '0') : (10 : ℚ) ^ p.power ≤ p.written := by
  have digits : ∀ c ∈ p.integer ++ p.fraction, Decimal.isDigit c = true :=
    fun c hc => (List.mem_append.mp hc).elim (h.integer c) (h.fraction c)
  obtain ⟨first, rest, made⟩ := List.exists_cons_of_ne_nil h.whole
  have least : 10 ^ p.fraction.length ≤ Decimal.toNat (p.integer ++ p.fraction) := by
    have all := Decimal.le_toNat digits (by simp [h.whole]) (by simpa [made] using lead)
    refine (Nat.pow_le_pow_right (by decide) ?_).trans all
    rw [made, List.length_append, List.length_cons]
    omega
  have least' : (10 : ℚ) ^ p.fraction.length ≤ Decimal.toNat (p.integer ++ p.fraction) := by
    exact_mod_cast least
  calc (10 : ℚ) ^ p.power = 10 ^ p.fraction.length * 10 ^ (p.power - p.fraction.length) := by
        rw [← zpow_natCast, ← zpow_add₀ (by norm_num), add_sub_cancel]
    _ ≤ p.written := mul_le_mul_of_nonneg_right least' (by positivity)

/-- Exponents are written only of numbers that are worth them. -/
theorem Layout.power {negative : Bool} {ds : List Char} {place : Int} {p : Parts}
    (h : Layout negative ds place p) (wellFormed : p.WellFormed) (given : ds ≠ [])
    (lead : ds.head? ≠ some '0') : p.power = 0 ∨ (10 : ℚ) ^ p.power ≤ p.written := by
  obtain ⟨first, rest, rfl⟩ := List.exists_cons_of_ne_nil given
  cases h with
  | scientific => exact .inr (wellFormed.power_le lead)
  | behind => exact .inl rfl
  | before => exact .inl rfl
  | between => exact .inl rfl

theorem power_realParts (x : Binary64) : (realParts x).power = 0 ∨
    (10 : ℚ) ^ (realParts x).power ≤ (realParts x).written := by
  rcases writtenDigits_spec x with zero | ⟨pos, -⟩
  · left
    simp only [realParts, zero, Decimal.ofNat_zero]
    rfl
  · exact (realParts_layout x).power (realParts_wellFormed x) (Decimal.ofNat_ne_nil _)
      (Decimal.head?_ofNat pos)

theorem integer_realParts (x : Binary64) : Decimal.toNat (realParts x).integer < UInt64.size :=
  calc Decimal.toNat (realParts x).integer < 10 ^ (realParts x).integer.length :=
        Decimal.toNat_lt (realParts_wellFormed x).integer
    _ ≤ 10 ^ 16 := Nat.pow_le_pow_right (by decide)
        ((realParts_layout x).integer_length (Decimal.ofNat_ne_nil _))
    _ ≤ UInt64.size := by decide

/-- A sign makes no difference to the range. -/
theorem real?_unsigned (p : Parts) :
    p.real?.isSome = { p with negative := false }.real?.isSome := by
  have same : { p with negative := false }.significand = p.significand := rfl
  unfold Parts.real?
  rw [same]
  dsimp only
  split
  · split <;> rfl
  · cases Binary64.ofNat? p.significand.1 with
    | none => rfl
    | some x =>
      dsimp only [Option.bind_eq_bind, Option.bind_some]
      cases scaled? 4 x _ <;> rfl

theorem realParts_unsigned (x : Binary64) :
    { realParts x with negative := false } = realParts { x with negative := false } := by
  have same : writtenDigits { x with negative := false } = writtenDigits x := rfl
  unfold realParts
  rw [same]
  dsimp only
  split
  · rfl
  split
  · rfl
  split <;> rfl

/-- The last 4 numbers are read back one by one: their digits are too close to the end of the
range to tell from their size alone. -/
theorem real?_last : ∀ k < 4, (realParts ⟨false, 2 ^ 53 - 4 + k, 971⟩).real?.isSome = true := by
  decide +kernel

theorem real?_realParts (x : Binary64) : (realParts x).real?.isSome := by
  have unit := Binary64.lastStep_pos
  have written := written_realParts x
  -- exponents that are out of range in themselves are not worth what is written
  have exponent (small : (realParts x).written ≤ (2 ^ 53 - 4) * lastStep) :
      (realParts x).power ≤ Int32.maxValue.toInt := by
    rcases power_realParts x with none | worth
    · rw [none]
      decide
    · by_contra beyond
      have more : (10 : ℚ) ^ (309 : Int) ≤ 10 ^ (realParts x).power :=
        zpow_le_zpow_right₀ (by norm_num) ((by decide : 309 ≤ Int32.maxValue.toInt).trans
          (not_le.mp beyond).le)
      exact absurd (more.trans (worth.trans small)) (not_le.mpr ten_range.2)
  have within (small : (realParts x).written ≤ (2 ^ 53 - 4) * lastStep) :
      (realParts x).real?.isSome := real?_isSome (integer_realParts x) small (exponent small)
  rcases writtenDigits_spec x with zero | ⟨-, rounds⟩
  · refine within ?_
    rw [written, zero, Nat.cast_zero, zero_mul]
    exact mul_nonneg (by norm_num) unit.le
  · rw [← written] at rounds
    rcases le_total (realParts x).written ((2 ^ 53 - 4) * lastStep) with small | large
    · exact within small
    · obtain ⟨-, last, low, high⟩ := rounds.last_binade large _ rfl
      dsimp only at last low high
      have one : { x with negative := false } =
          ⟨false, 2 ^ 53 - 4 + (x.mantissa - (2 ^ 53 - 4)), 971⟩ := by
        rw [Nat.add_sub_cancel' low, ← last]
      rw [real?_unsigned, realParts_unsigned, one]
      exact real?_last _ (by omega)

/-- **What is written for a floating-point number is in range.** -/
theorem number?_realChars (x : Binary64) : (number? (Number.realChars x)).isSome := by
  have real := real?_realParts x
  rw [← chars_realParts, number?, (realParts_wellFormed x).parts_chars]
  split
  · rfl
  split
  · rfl
  · rwa [Option.isSome_map]

end Numeral

/-! ## Numbers -/

namespace Number

/-- The parts of a number as it is written. -/
def parts : Number → Numeral.Parts
  | .int i => Numeral.integerParts i
  | .real x => Numeral.realParts x

theorem parts_wellFormed : ∀ n : Number, n.parts.WellFormed
  | .int i => Numeral.integerParts_wellFormed i
  | .real x => Numeral.realParts_wellFormed x

theorem chars_parts : ∀ n : Number, n.parts.chars = n.chars
  | .int i => Numeral.chars_integerParts i
  | .real x => Numeral.chars_realParts x

/-- An integer of 64 bits, signed or not, or any floating-point number. -/
def Legible : Number → Prop
  | .int i => (Number.int i).Integral
  | .real _ => True

end Number

/-- What is read of a numeral can be written and read again. -/
theorem Numeral.number?_legible {cs : List Char} {n : Number} (h : number? cs = some n) :
    n.Legible := by
  unfold number? at h
  dsimp only at h
  split at h
  · rename_i unsigned
    simp only [Bool.and_eq_true, decide_eq_true_eq] at unsigned
    have small : (parts cs).magnitude < 18446744073709551616 := unsigned.2
    cases h
    exact ⟨by omega, by omega⟩
  split at h
  · rename_i signed
    simp only [Bool.and_eq_true, decide_eq_true_eq] at signed
    have small : (parts cs).magnitude ≤ 9223372036854775808 := signed.2
    cases h
    exact ⟨by omega, by omega⟩
  · obtain ⟨x, -, rfl⟩ := Option.map_eq_some_iff.mp h
    trivial

theorem Numeral.number?_chars {n : Number} (h : n.Legible) : (number? n.chars).isSome := by
  cases n with
  | int i => rw [Number.chars, number?_ofInt h]; rfl
  | real x => exact number?_realChars x

end Rehoming.Json
