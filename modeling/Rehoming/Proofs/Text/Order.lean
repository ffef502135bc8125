import Mathlib.Data.List.Lex
import Mathlib.Data.String.Basic
import Rehoming.Proofs.Text.Utf8

/-! UTF-8 keeps the order of texts. The bytes of a smaller character are smaller at the first
place where they differ from those of a larger one, so that nothing behind them counts. Main
statement: texts compare as their bytes do. -/

namespace Rehoming.Text.Utf8

/-- Byte strings that differ somewhere before either ends, the first with a smaller byte there. -/
inductive Before : Bytes → Bytes → Prop where
  | here {a b : UInt8} (less : a < b) (front back : Bytes) : Before (a :: front) (b :: back)
  | behind (a : UInt8) {front back : Bytes} (rest : Before front back) :
    Before (a :: front) (a :: back)

namespace Before

/-- What is added to the bytes does not count. -/
theorem append_lt {front back : Bytes} (h : Before front back) (more more' : Bytes) :
    front ++ more < back ++ more' := by
  induction h with
  | here less front back => exact List.Lex.rel less
  | behind a _ ih => exact List.Lex.cons ih

theorem byte_lt {n m : Nat} (h : n < m) (h' : m < 256) : UInt8.ofNat n < UInt8.ofNat m := by
  rw [UInt8.lt_iff_toNat_lt, toNat_byte (by omega), toNat_byte h']
  exact h

theorem singleton {n m : Nat} (h : n < m) (h' : m < 256) :
    Before [UInt8.ofNat n] [UInt8.ofNat m] := here (byte_lt h h') [] []

/-- Bytes behind a first one count only if that one is the same. -/
theorem cons {n m : Nat} {front back : Bytes} (h : n ≤ m) (h' : m < 256)
    (rest : n = m → Before front back) :
    Before (UInt8.ofNat n :: front) (UInt8.ofNat m :: back) := by
  rcases Nat.lt_or_eq_of_le h with less | same
  · exact here (byte_lt less h') front back
  · exact same ▸ behind _ (rest same)

end Before

/-- Characters of one width have their numbers in base 64 in their bytes, and a wider one begins
with a larger byte. -/
theorem before_utf8 {c d : Char} (h : c < d) :
    Before (String.utf8EncodeChar c) (String.utf8EncodeChar d) := by
  have less : c.val.toNat < d.val.toNat := h
  have bound : d.val.toNat < 0xD800 ∨ 0xDFFF < d.val.toNat ∧ d.val.toNat < 0x110000 := d.valid
  unfold String.utf8EncodeChar
  dsimp only
  split
  · split
    · exact .singleton less (by omega)
    · split
      · exact .here (Before.byte_lt (by omega) (by omega)) _ _
      · split <;> exact .here (Before.byte_lt (by omega) (by omega)) _ _
  · rw [if_neg (by omega : ¬ d.val.toNat ≤ 0x7f)]
    split
    · split
      · exact .cons (by omega) (by omega) fun _ => .singleton (by omega) (by omega)
      · split <;> exact .here (Before.byte_lt (by omega) (by omega)) _ _
    · rw [if_neg (by omega : ¬ d.val.toNat ≤ 0x7ff)]
      split
      · split
        · exact .cons (by omega) (by omega) fun _ => .cons (by omega) (by omega) fun _ =>
            .singleton (by omega) (by omega)
        · exact .here (Before.byte_lt (by omega) (by omega)) _ _
      · rw [if_neg (by omega : ¬ d.val.toNat ≤ 0xffff)]
        exact .cons (by omega) (by omega) fun _ => .cons (by omega) (by omega) fun _ =>
          .cons (by omega) (by omega) fun _ => .singleton (by omega) (by omega)

theorem encode_lt {cs ds : List Char} (h : cs < ds) : encode cs < encode ds := by
  induction h with
  | nil =>
    rename_i d ds
    rw [encode, encode, List.flatMap_cons, List.flatMap_nil]
    cases bytes : String.utf8EncodeChar d with
    | nil => exact absurd bytes String.utf8EncodeChar_ne_nil
    | cons b rest => exact List.Lex.nil
  | cons _ ih => exact List.append_left_lt ih
  | rel less => exact (before_utf8 less).append_lt _ _

/-- **Texts compare as their bytes.** -/
theorem ofString_lt_iff {s t : String} : ofString s < ofString t ↔ s < t := by
  rw [String.lt_iff_toList_lt]
  refine ⟨fun h => ?_, encode_lt⟩
  rcases lt_trichotomy s.toList t.toList with less | same | more
  · exact less
  · rw [ofString, ofString, same] at h
    exact absurd h (List.lt_irrefl _)
  · exact absurd (encode_lt more) (List.lt_asymm h)

end Rehoming.Text.Utf8
