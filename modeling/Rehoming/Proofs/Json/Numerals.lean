import Rehoming.Json.Numeral
import Rehoming.Json.Token
import Rehoming.Proofs.Text.Decimal

/-! Numerals by their parts: what is put together from a sign, digits, a fraction and an
exponent is a numeral, and is taken apart again. Integers survive as numerals: what is written
for one of 64 bits, signed or not, is read as the same integer. -/

namespace Rehoming.Json

open Text

theorem digits?_append {ds rest : List Char} (digits : ∀ c ∈ ds, Decimal.isDigit c = true)
    (nonempty : ds ≠ []) (stop : ∀ c ∈ rest.head?, Decimal.isDigit c = false) :
    Token.digits? (ds ++ rest) = some rest := by
  have longer : rest.length < (ds ++ rest).length := by
    have := List.length_pos_iff.mpr nonempty
    rw [List.length_append]
    omega
  simp only [Token.digits?, (Decimal.takeWhile_digits digits stop).2, longer, if_true]

namespace Numeral

namespace Parts

def fractionChars (p : Parts) : List Char := if p.hasFraction then '.' :: p.fraction else []

def exponentChars (p : Parts) : List Char :=
  match p.exponent with
  | some ds => 'e' :: (if p.negativeExponent then '-' else '+') :: ds
  | none => []

def unsignedChars (p : Parts) : List Char := p.integer ++ (p.fractionChars ++ p.exponentChars)

/-- The characters of a numeral that has these parts. -/
def chars (p : Parts) : List Char :=
  if p.negative then '-' :: p.unsignedChars else p.unsignedChars

/-- Digits where digits must be, and no superfluous zero before the point. -/
structure WellFormed (p : Parts) : Prop where
  integer : ∀ c ∈ p.integer, Decimal.isDigit c = true
  whole : p.integer ≠ []
  short : p.integer = ['0'] ∨ p.integer.head? ≠ some '0'
  fraction : ∀ c ∈ p.fraction, Decimal.isDigit c = true
  given : p.hasFraction = !p.fraction.isEmpty
  exponent : ∀ ds ∈ p.exponent, ds ≠ [] ∧ ∀ c ∈ ds, Decimal.isDigit c = true
  sign : p.exponent = none → p.negativeExponent = false

variable {p : Parts}

theorem exponentChars_head : ∀ c ∈ p.exponentChars.head?, Decimal.isDigit c = false := by
  unfold exponentChars
  intro c hc
  split at hc
  · cases hc
    rfl
  · cases hc

theorem fractionChars_head :
    ∀ c ∈ (p.fractionChars ++ p.exponentChars).head?, Decimal.isDigit c = false := by
  unfold fractionChars
  split
  · intro c hc
    cases hc
    rfl
  · exact exponentChars_head

namespace WellFormed

variable (h : p.WellFormed)

include h

/-- An unsigned numeral starts with a digit. -/
theorem unsigned_eq_cons : ∃ c rest, p.unsignedChars = c :: rest ∧ Decimal.isDigit c = true := by
  obtain ⟨c, rest, made⟩ := List.exists_cons_of_ne_nil h.whole
  refine ⟨c, rest ++ (p.fractionChars ++ p.exponentChars), ?_, h.integer c ?_⟩
  · rw [unsignedChars, made, List.cons_append]
  · rw [made]
    exact List.mem_cons_self

/-- A numeral starts where it can: with a sign or a digit. -/
theorem chars_eq_cons :
    ∃ c rest, p.chars = c :: rest ∧ (c = '-' ∨ Decimal.isDigit c = true) := by
  rw [chars]
  split
  · exact ⟨'-', _, rfl, .inl rfl⟩
  · obtain ⟨c, rest, made, digit⟩ := h.unsigned_eq_cons
    exact ⟨c, rest, made, .inr digit⟩

theorem isNumberChar_chars : ∀ c ∈ p.chars, Token.isNumberChar c = true := by
  have digit {c : Char} (hc : Decimal.isDigit c = true) : Token.isNumberChar c = true := by
    simp [Token.isNumberChar, hc]
  have fraction : ∀ c ∈ p.fractionChars, Token.isNumberChar c = true := by
    unfold fractionChars
    intro c hc
    split at hc
    · rcases List.mem_cons.mp hc with rfl | hc
      · decide
      · exact digit (h.fraction c hc)
    · cases hc
  have exponent : ∀ c ∈ p.exponentChars, Token.isNumberChar c = true := by
    unfold exponentChars
    intro c hc
    split at hc
    · rename_i ds given
      rcases List.mem_cons.mp hc with rfl | hc
      · decide
      rcases List.mem_cons.mp hc with rfl | hc
      · split <;> decide
      · exact digit ((h.exponent ds given).2 c hc)
    · cases hc
  have unsigned : ∀ c ∈ p.unsignedChars, Token.isNumberChar c = true := by
    intro c hc
    rcases List.mem_append.mp hc with hc | hc
    · exact digit (h.integer c hc)
    rcases List.mem_append.mp hc with hc | hc
    · exact fraction c hc
    · exact exponent c hc
  rw [chars]
  split
  · intro c hc
    rcases List.mem_cons.mp hc with rfl | hc
    · decide
    · exact unsigned c hc
  · exact unsigned

/-! ### Syntax -/

theorem endsWell_exponent : Token.endsWell p.exponentChars = true := by
  unfold exponentChars
  split
  · rename_i ds given
    obtain ⟨nonempty, digits⟩ := h.exponent ds given
    have all : Token.digits? (ds ++ []) = some [] := digits?_append digits nonempty (by simp)
    rw [List.append_nil] at all
    split <;> simp [Token.endsWell, all]
  · rfl

theorem endsInteger_tail :
    Token.endsInteger (p.fractionChars ++ p.exponentChars) = true := by
  have ends := h.endsWell_exponent
  have given := h.given
  unfold fractionChars
  cases point : p.hasFraction with
  | true =>
    have nonempty : p.fraction ≠ [] := by
      intro empty
      rw [point, empty] at given
      cases given
    have cut := digits?_append h.fraction nonempty (exponentChars_head (p := p))
    simp only [if_true, List.cons_append, Token.endsInteger, cut, ends]
  | false =>
    rw [if_neg Bool.false_ne_true, List.nil_append, Token.endsInteger.eq_def]
    split
    · rename_i ds made
      unfold exponentChars at made
      split at made <;> cases made
    · exact ends

theorem isUnsigned_chars : Token.isUnsigned p.unsignedChars = true := by
  have ends := h.endsInteger_tail
  rw [unsignedChars]
  rcases h.short with zero | nonzero
  · rw [zero]
    exact ends
  · rw [Token.isUnsigned.eq_def]
    split
    · rename_i rest made
      obtain ⟨c, others, first⟩ := List.exists_cons_of_ne_nil h.whole
      rw [first, List.cons_append] at made
      cases made
      exact absurd (congrArg List.head? first) nonzero
    · rw [digits?_append h.integer h.whole fractionChars_head]
      exact ends

theorem isNumeral_chars : Token.isNumeral p.chars = true := by
  obtain ⟨c, rest, made, digit⟩ := h.unsigned_eq_cons
  have unsigned := h.isUnsigned_chars
  rw [chars]
  split
  · exact unsigned
  · rw [Token.isNumeral.eq_def]
    split
    · rename_i other
      rw [made] at other
      cases other
      exact absurd digit (by decide)
    · exact unsigned

/-- A numeral is taken apart into the parts it was put together from. -/
theorem parts_chars : parts p.chars = p := by
  obtain ⟨c, rest, made, digit⟩ := h.unsigned_eq_cons
  have sign : takeSign p.chars = (p.negative, p.unsignedChars) := by
    unfold chars
    cases p.negative with
    | true => rfl
    | false =>
      rw [if_neg Bool.false_ne_true, made, takeSign.eq_def]
      split
      · rename_i other
        cases other
        exact absurd digit (by decide)
      · rfl
  have whole := Decimal.takeWhile_digits h.integer (fractionChars_head (p := p))
  have fraction : takeFraction (p.fractionChars ++ p.exponentChars) =
      (p.hasFraction, p.fraction, p.exponentChars) := by
    have given := h.given
    have cut := Decimal.takeWhile_digits h.fraction (exponentChars_head (p := p))
    unfold fractionChars
    cases point : p.hasFraction with
    | true => simp only [if_true, List.cons_append, takeFraction, cut]
    | false =>
      have none : p.fraction = [] := by
        rw [point] at given
        simpa using given
      rw [if_neg Bool.false_ne_true, List.nil_append, none, takeFraction.eq_def]
      split
      · rename_i made
        unfold exponentChars at made
        split at made <;> cases made
      · rfl
  have exponent : takeExponent p.exponentChars = (p.negativeExponent, p.exponent) := by
    have sign := h.sign
    unfold exponentChars
    cases given : p.exponent with
    | none => rw [sign given]; rfl
    | some ds => cases p.negativeExponent <;> rfl
  simp only [parts, sign, unsignedChars, whole, fraction, exponent]

end WellFormed
end Parts
end Numeral

/-! ## Integers -/

/-- An integer that fits 64 bits, signed or not. -/
def Number.Integral : Number → Prop
  | .int i => -9223372036854775808 ≤ i ∧ i < 18446744073709551616
  | .real _ => False

namespace Numeral

/-- The parts of an integer as it is written. -/
def integerParts (i : Int) : Parts :=
  ⟨decide (i < 0), Decimal.ofNat i.natAbs, [], false, false, none⟩

theorem short_ofNat (n : Nat) :
    Decimal.ofNat n = ['0'] ∨ (Decimal.ofNat n).head? ≠ some '0' := by
  rcases Nat.eq_zero_or_pos n with rfl | pos
  · exact .inl Decimal.ofNat_zero
  · exact .inr (Decimal.head?_ofNat pos)

theorem integerParts_wellFormed (i : Int) : (integerParts i).WellFormed :=
  ⟨Decimal.isDigit_of_mem_ofNat _, Decimal.ofNat_ne_nil _, short_ofNat _, nofun, rfl, nofun,
    fun _ => rfl⟩

theorem chars_integerParts (i : Int) : (integerParts i).chars = Decimal.ofInt i := by
  have unsigned : (integerParts i).unsignedChars = Decimal.ofNat i.natAbs := List.append_nil _
  rw [Parts.chars, unsigned, Decimal.ofInt, integerParts]
  simp

theorem parts_ofInt (i : Int) : parts (Decimal.ofInt i) = integerParts i := by
  rw [← chars_integerParts, (integerParts_wellFormed i).parts_chars]

theorem magnitude_integerParts (i : Int) : (integerParts i).magnitude = i.natAbs :=
  Decimal.toNat_ofNat _

/-- **Integers are read back.** -/
theorem number?_ofInt {i : Int} (h : (Number.int i).Integral) :
    number? (Decimal.ofInt i) = some (.int i) := by
  obtain ⟨low, high⟩ := h
  have plain : (integerParts i).isInteger = true := rfl
  have sign : (integerParts i).negative = decide (i < 0) := rfl
  rw [number?, parts_ofInt]
  simp only [plain, sign, magnitude_integerParts]
  by_cases negative : i < 0
  · have fits : i.natAbs ≤ 9223372036854775808 := by omega
    have same : -(i.natAbs : Int) = i := by omega
    have nonzero : 0 < i.natAbs := by omega
    generalize i.natAbs = m at fits same nonzero
    simp [negative, nonzero, fits, same]
  · have fits : i.natAbs < 18446744073709551616 := by omega
    have same : (i.natAbs : Int) = i := by omega
    generalize i.natAbs = m at fits same
    simp [negative, fits, same]

end Numeral
end Rehoming.Json
