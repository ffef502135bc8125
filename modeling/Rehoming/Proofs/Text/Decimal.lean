import Mathlib.Data.List.Induction
import Mathlib.Tactic.Linarith
import Mathlib.Tactic.Ring
import Rehoming.Text.Decimal

/-! Decimal digits: they write the number they were made for, with no zero in front
that is not the whole number, and they are the only ones that do. -/

namespace Rehoming.Text.Decimal

theorem value_digit_all : ∀ d, d < 10 → value (Char.ofNat (48 + d)) = d := by decide

theorem isDigit_digit_all : ∀ d, d < 10 → isDigit (Char.ofNat (48 + d)) = true := by decide

theorem digit_ne_zero_all : ∀ d, d < 10 → 0 < d → Char.ofNat (48 + d) ≠ '0' := by decide

theorem value_digit (n : Nat) : value (digit n) = n % 10 :=
  value_digit_all _ (Nat.mod_lt _ (by decide))

theorem isDigit_digit (n : Nat) : isDigit (digit n) = true :=
  isDigit_digit_all _ (Nat.mod_lt _ (by decide))

theorem push_append (n : Nat) (front rest : List Char) :
    push n (front ++ rest) = push n front ++ rest := by
  rw [push.eq_def n (front ++ rest), push.eq_def n front]
  split
  · rfl
  · exact push_append (n / 10) (digit n :: front) rest
termination_by n

/-- The last digit comes off the end. -/
theorem ofNat_eq (n : Nat) :
    ofNat n = (if n < 10 then [] else ofNat (n / 10)) ++ [digit n] := by
  rw [ofNat, push]
  split
  · rfl
  · exact push_append (n / 10) [] [digit n]

theorem toNat_append_digit (ds : List Char) (c : Char) :
    toNat (ds ++ [c]) = 10 * toNat ds + value c := by
  rw [toNat, List.foldl_append]
  rfl

theorem toNat_ofNat (n : Nat) : toNat (ofNat n) = n := by
  rw [ofNat_eq, toNat_append_digit, value_digit]
  split
  · show 10 * 0 + n % 10 = n
    omega
  · rw [toNat_ofNat (n / 10)]
    omega
termination_by n

theorem isDigit_of_mem_ofNat (n : Nat) : ∀ c ∈ ofNat n, isDigit c = true := by
  intro c hc
  rw [ofNat_eq, List.mem_append, List.mem_singleton] at hc
  rcases hc with hc | rfl
  · split at hc
    · cases hc
    · exact isDigit_of_mem_ofNat (n / 10) c hc
  · exact isDigit_digit n
termination_by n

theorem ofNat_ne_nil (n : Nat) : ofNat n ≠ [] := by
  rw [ofNat_eq]
  simp

/-- Only zero is written with a zero in front. -/
theorem ofNat_eq_cons {n : Nat} (h : 0 < n) : ∃ c rest, ofNat n = c :: rest ∧ c ≠ '0' := by
  rw [ofNat_eq]
  split
  · rename_i small
    refine ⟨digit n, [], rfl, ?_⟩
    exact digit_ne_zero_all _ (Nat.mod_lt _ (by decide)) (by omega)
  · obtain ⟨c, rest, hc, nonzero⟩ := ofNat_eq_cons (n := n / 10) (by omega)
    exact ⟨c, rest ++ [digit n], by rw [hc, List.cons_append], nonzero⟩
termination_by n

theorem head?_ofNat {n : Nat} (h : 0 < n) : (ofNat n).head? ≠ some '0' := by
  obtain ⟨c, rest, made, nonzero⟩ := ofNat_eq_cons h
  rw [made]
  exact fun same => nonzero (Option.some.inj same)

theorem ofNat_zero : ofNat 0 = ['0'] := by
  rw [ofNat_eq]
  rfl

theorem length_ofNat_le {n width : Nat} (h : n < 10 ^ (width + 1)) :
    (ofNat n).length ≤ width + 1 := by
  induction width generalizing n with
  | zero =>
    rw [ofNat_eq, if_pos (by simpa using h)]
    rfl
  | succ width ih =>
    rw [ofNat_eq]
    split
    · simp
    · have fewer : n / 10 < 10 ^ (width + 1) := Nat.div_lt_of_lt_mul (by rwa [← Nat.pow_succ'])
      simpa using ih fewer

/-- All digits are taken at once when what follows is none. -/
theorem takeWhile_digits {ds rest : List Char} (digits : ∀ c ∈ ds, isDigit c = true)
    (h : ∀ c ∈ rest.head?, isDigit c = false) :
    (ds ++ rest).takeWhile isDigit = ds ∧ (ds ++ rest).dropWhile isDigit = rest := by
  rw [List.takeWhile_append_of_pos digits, List.dropWhile_append_of_pos digits]
  cases rest with
  | nil => simp
  | cons c rest =>
    have stop := h c rfl
    simp [stop]

theorem value_lt {c : Char} (h : isDigit c = true) : value c < 10 := by
  have bounds : '0' ≤ c ∧ c ≤ '9' := by simpa [isDigit] using h
  have high : c.toNat ≤ 57 := bounds.2
  rw [value]
  omega

theorem digit_value {c : Char} (h : isDigit c = true) : digit (value c) = c := by
  have bounds : '0' ≤ c ∧ c ≤ '9' := by simpa [isDigit] using h
  have low : 48 ≤ c.toNat := bounds.1
  have same : 48 + value c % 10 = c.toNat := by
    rw [Nat.mod_eq_of_lt (value_lt h), value]
    omega
  rw [digit, same, Char.ofNat_toNat]

/-- Digits with no superfluous zero in front are the shortest ones. -/
theorem ofNat_toNat {cs : List Char} (digits : ∀ c ∈ cs, isDigit c = true) (nonempty : cs ≠ [])
    (short : cs.length = 1 ∨ cs.head? ≠ some '0') : ofNat (toNat cs) = cs := by
  induction cs using List.reverseRecOn with
  | nil => exact absurd rfl nonempty
  | append_singleton front c ih =>
    have last : isDigit c = true := digits c (by simp)
    have small := value_lt last
    rw [toNat_append_digit, ofNat_eq]
    by_cases single : front = []
    · subst single
      rw [if_pos (by simpa [toNat] using small)]
      simp [toNat, digit_value last]
    · obtain ⟨first, rest, rfl⟩ := List.exists_cons_of_ne_nil single
      have nonzero : first ≠ '0' := by simpa using short
      have same : ofNat (toNat (first :: rest)) = first :: rest :=
        ih (fun c hc => digits c (List.mem_append_left _ hc)) single (.inr (by simpa using nonzero))
      have large : 0 < toNat (first :: rest) := by
        refine Nat.pos_of_ne_zero fun zero => nonzero ?_
        rw [zero, ofNat_zero] at same
        exact (List.cons.inj same).1.symm
      rw [if_neg (by omega), show (10 * toNat (first :: rest) + value c) / 10 =
        toNat (first :: rest) by omega, same]
      congr 2
      rw [digit, show (10 * toNat (first :: rest) + value c) % 10 = value c % 10 by omega]
      exact digit_value last

/-! ## Digits behind digits -/

theorem foldl_digits (start : Nat) (cs : List Char) :
    cs.foldl (fun n c => 10 * n + value c) start = start * 10 ^ cs.length + toNat cs := by
  induction cs generalizing start with
  | nil => simp [toNat]
  | cons c rest ih =>
    have alone : toNat (c :: rest) = (10 * 0 + value c) * 10 ^ rest.length + toNat rest := ih _
    rw [List.foldl_cons, ih, alone, List.length_cons, Nat.pow_succ]
    ring

theorem toNat_append (front back : List Char) :
    toNat (front ++ back) = toNat front * 10 ^ back.length + toNat back := by
  rw [toNat, List.foldl_append, foldl_digits]
  rfl

theorem toNat_cons (c : Char) (rest : List Char) :
    toNat (c :: rest) = value c * 10 ^ rest.length + toNat rest := by
  rw [toNat, List.foldl_cons, foldl_digits]
  simp

theorem toNat_lt {cs : List Char} (digits : ∀ c ∈ cs, isDigit c = true) :
    toNat cs < 10 ^ cs.length := by
  induction cs with
  | nil => exact Nat.one_pos
  | cons c rest ih =>
    have first := value_lt (digits c List.mem_cons_self)
    have others := ih fun d hd => digits d (List.mem_cons_of_mem _ hd)
    have scaled : (value c + 1) * 10 ^ rest.length ≤ 10 * 10 ^ rest.length :=
      Nat.mul_le_mul_right _ first
    rw [toNat_cons, List.length_cons, Nat.pow_succ]
    linarith

/-- Digits that do not start with a zero are worth a power of ten. -/
theorem le_toNat {cs : List Char} (digits : ∀ c ∈ cs, isDigit c = true) (nonempty : cs ≠ [])
    (lead : cs.head? ≠ some '0') : 10 ^ (cs.length - 1) ≤ toNat cs := by
  obtain ⟨c, rest, rfl⟩ := List.exists_cons_of_ne_nil nonempty
  have digit := digits c List.mem_cons_self
  have some : 0 < value c := by
    refine Nat.pos_of_ne_zero fun none => lead ?_
    rw [List.head?_cons, ← digit_value digit, none]
    rfl
  have scaled := Nat.le_mul_of_pos_left (10 ^ rest.length) some
  rw [toNat_cons, List.length_cons, Nat.add_sub_cancel]
  omega

theorem toNat_zeros (n : Nat) : toNat (List.replicate n '0') = 0 := by
  induction n with
  | zero => rfl
  | succ n ih =>
    rw [List.replicate_succ, toNat_cons, ih]
    exact Nat.zero_mul _

/-! ## Digits of a width -/

theorem length_padded (width : Nat) {n : Nat} (h : n < 10 ^ (width + 1)) :
    (padded (width + 1) n).length = width + 1 := by
  have short := length_ofNat_le h
  rw [padded, List.length_append, List.length_replicate]
  omega

theorem isDigit_of_mem_padded {width n : Nat} : ∀ c ∈ padded width n, isDigit c = true := by
  intro c hc
  rcases List.mem_append.mp hc with zero | own
  · rw [List.eq_of_mem_replicate zero]
    rfl
  · exact isDigit_of_mem_ofNat n c own

theorem padded_eq_cons (width n : Nat) :
    ∃ c rest, padded width n = c :: rest ∧ isDigit c = true := by
  have some : padded width n ≠ [] := by simp [padded, ofNat_ne_nil]
  obtain ⟨c, rest, made⟩ := List.exists_cons_of_ne_nil some
  exact ⟨c, rest, made, isDigit_of_mem_padded c (made ▸ List.mem_cons_self)⟩

theorem toNat_padded (width n : Nat) : toNat (padded width n) = n := by
  rw [padded, toNat_append, toNat_zeros, toNat_ofNat, Nat.zero_mul, Nat.zero_add]

end Rehoming.Text.Decimal
