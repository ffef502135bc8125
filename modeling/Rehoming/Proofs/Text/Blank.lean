import Rehoming.Text.Blank

/-! Texts that trimming does not change: those that have no blank at either end. -/

namespace Rehoming.Text

theorem trimStart_eq_self_iff {cs : List Char} :
    trimStart cs = cs ↔ ∀ c ∈ cs.head?, isBlank c = false := by
  cases cs with
  | nil => simp [trimStart]
  | cons c rest =>
    rw [trimStart, List.dropWhile_cons]
    constructor
    · intro same
      split at same
      · have shorter := (List.dropWhile_sublist isBlank (l := rest)).length_le
        rw [same] at shorter
        exact absurd shorter (Nat.not_succ_le_self _)
      · rename_i solid
        simpa using solid
    · intro solid
      rw [if_neg (by simpa using solid)]

theorem trimEnd_eq_self_iff {cs : List Char} :
    trimEnd cs = cs ↔ ∀ c ∈ cs.getLast?, isBlank c = false := by
  have turned : trimEnd cs = cs ↔ trimStart cs.reverse = cs.reverse :=
    List.reverse_eq_iff
  rw [turned, trimStart_eq_self_iff, List.head?_reverse]

theorem trim_eq_self_iff {cs : List Char} :
    trim cs = cs ↔ trimStart cs = cs ∧ trimEnd cs = cs := by
  constructor
  · intro same
    -- neither end can have lost anything if the whole has not
    have back : (trimEnd (trimStart cs)).length ≤ (trimStart cs).length := by
      have shorter := (List.dropWhile_sublist isBlank (l := (trimStart cs).reverse)).length_le
      rwa [List.length_reverse, ← List.length_reverse] at shorter
    have front : trimStart cs <:+ cs := List.dropWhile_suffix _
    have whole : trimStart cs = cs := by
      refine front.eq_of_length (Nat.le_antisymm front.length_le ?_)
      have kept := congrArg List.length same
      rw [trim] at kept
      omega
    refine ⟨whole, ?_⟩
    rwa [trim, whole] at same
  · intro ⟨start, stop⟩
    rw [trim, start, stop]

/-- A text without any blanks. -/
theorem trim_eq_self {cs : List Char} (h : ∀ c ∈ cs, isBlank c = false) : trim cs = cs := by
  refine trim_eq_self_iff.mpr ⟨trimStart_eq_self_iff.mpr ?_, trimEnd_eq_self_iff.mpr ?_⟩
  · exact fun c hc => h c (List.mem_of_head? hc)
  · exact fun c hc => h c (List.mem_of_getLast? hc)

/-- **Trimming takes the blanks off both ends,** and nothing else off a text without any. -/
theorem trim_eq_iff {cs solid : List Char} (h : ∀ c ∈ solid, isBlank c = false) :
    trim cs = solid ↔ ∃ front back, (∀ c ∈ front ++ back, isBlank c = true) ∧
      cs = front ++ solid ++ back := by
  constructor
  · rintro rfl
    refine ⟨cs.takeWhile isBlank, ((trimStart cs).reverse.takeWhile isBlank).reverse, ?_, ?_⟩
    · intro c hc
      rcases List.mem_append.mp hc with hc | hc
      · exact List.all_eq_true.mp List.all_takeWhile c hc
      · exact List.all_eq_true.mp List.all_takeWhile c (List.mem_reverse.mp hc)
    · rw [List.append_assoc, trim, trimEnd, ← List.reverse_append, List.takeWhile_append_dropWhile,
        List.reverse_reverse, trimStart, List.takeWhile_append_dropWhile]
  · rintro ⟨front, back, blank, rfl⟩
    obtain ⟨before, after⟩ := List.forall_mem_append.mp blank
    cases solid with
    | nil =>
      have gone : trimStart (front ++ back) = [] := by
        rw [trimStart, ← List.append_nil (front ++ back), List.dropWhile_append_of_pos blank,
          List.dropWhile_nil]
      rw [List.append_nil, trim, gone]
      rfl
    | cons c rest =>
      have start : trimStart (front ++ (c :: rest) ++ back) = (c :: rest) ++ back := by
        rw [List.append_assoc, trimStart, List.dropWhile_append_of_pos before]
        exact trimStart_eq_self_iff.mpr fun d hd => h d (by simp_all)
      have stop : trimEnd (c :: rest) = c :: rest :=
        trimEnd_eq_self_iff.mpr fun d hd => h d (List.mem_of_getLast? hd)
      have turned : ∀ d ∈ back.reverse, isBlank d = true := fun d hd =>
        after d (List.mem_reverse.mp hd)
      rw [trim, start, trimEnd, List.reverse_append, List.dropWhile_append_of_pos turned]
      exact stop

end Rehoming.Text
