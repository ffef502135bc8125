import Rehoming.Ipv4
import Rehoming.Proofs.Text.Decimal

/-! Addresses survive as text, and have only one. -/

namespace Rehoming.Ipv4

open Text

theorem octet?_ofNat (o : UInt8) : octet? (Decimal.ofNat o.toNat) = some o := by
  have small : o.toNat < 256 := o.toNat_lt
  have digits : (Decimal.ofNat o.toNat).all Decimal.isDigit = true :=
    List.all_eq_true.mpr (Decimal.isDigit_of_mem_ofNat o.toNat)
  have nonempty := List.length_pos_iff.mpr (Decimal.ofNat_ne_nil o.toNat)
  have few := Decimal.length_ofNat_le (show o.toNat < 10 ^ (2 + 1) by omega)
  have front : ((Decimal.ofNat o.toNat).length == 1 ||
      (Decimal.ofNat o.toNat).head? != some '0') = true := by
    rcases Nat.eq_zero_or_pos o.toNat with zero | pos
    · rw [zero, Decimal.ofNat_zero]
      rfl
    · obtain ⟨c, rest, hc, nonzero⟩ := Decimal.ofNat_eq_cons pos
      simp [hc, nonzero]
  simp only [octet?, Decimal.toNat_ofNat, digits, nonempty, few, front, decide_true, Bool.and_true,
    decide_eq_true (show o.toNat ≤ 255 by omega), if_true, UInt8.ofNat_toNat]

/-- **Addresses are read back.** -/
theorem ofText?_toText (ip : Ipv4) : ofText? ip.toText = some ip := by
  have dotless : ∀ cs ∈ ip.octets.map fun o => Decimal.ofNat o.toNat, '.' ∉ cs := by
    intro cs hcs dot
    obtain ⟨o, -, rfl⟩ := List.mem_map.mp hcs
    exact absurd (Decimal.isDigit_of_mem_ofNat _ _ dot) (by decide)
  rw [ofText?, toText, String.toList_ofList, ofChars?, chars,
    List.splitOn_intercalate '.' dotless (by simp [octets])]
  simp only [octets, List.map_cons, List.map_nil, octet?_ofNat]

theorem ofNat_octet? {cs : List Char} {o : UInt8} (h : octet? cs = some o) :
    Decimal.ofNat o.toNat = cs := by
  simp only [octet?, Bool.and_eq_true, Bool.or_eq_true, decide_eq_true_eq, beq_iff_eq,
    bne_iff_ne, List.all_eq_true, Option.ite_none_right_eq_some] at h
  obtain ⟨⟨⟨⟨⟨digits, nonempty⟩, -⟩, small⟩, short⟩, made⟩ := h
  rw [← Option.some.inj made, UInt8.toNat_ofNat', Nat.mod_eq_of_lt (by omega)]
  exact Decimal.ofNat_toNat digits (List.length_pos_iff.mp nonempty) short

/-- Addresses have one text. -/
theorem toText_ofText? {s : String} {ip : Ipv4} (h : ofText? s = some ip) : ip.toText = s := by
  unfold ofText? ofChars? at h
  split at h
  · rename_i a b c d pieces
    cases h
    simp only [List.map_eq_cons_iff, List.map_eq_nil_iff] at pieces
    obtain ⟨w, -, split, first, x, -, rfl, second, y, -, rfl, third, z, -, rfl, fourth, rfl⟩ :=
      pieces
    have texts : ([a, b, c, d].map fun o => Decimal.ofNat o.toNat) = s.toList.splitOn '.' := by
      rw [split, List.map_cons, List.map_cons, List.map_cons, List.map_singleton,
        ofNat_octet? first, ofNat_octet? second, ofNat_octet? third, ofNat_octet? fourth]
    rw [toText, chars, octets, texts, List.intercalate_splitOn, String.ofList_toList]
  · cases h

end Rehoming.Ipv4
