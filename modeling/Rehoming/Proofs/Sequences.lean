import Mathlib.Data.List.Forall2

/-! Lists that are worked through one element after another, where each may fail: the
results stand beside what they came from. -/

namespace Rehoming

variable {α β ε : Type}

theorem bind_ok_iff {x : Except ε α} {f : α → Except ε β} {b : β} :
    (x >>= f) = .ok b ↔ ∃ a, x = .ok a ∧ f a = .ok b := by
  cases x with
  | error e =>
    constructor
    · intro h
      cases h
    · rintro ⟨a, h, -⟩
      cases h
  | ok a =>
    constructor
    · intro h
      exact ⟨a, rfl, h⟩
    · rintro ⟨a', h, there⟩
      cases h
      exact there

theorem bind_error_iff {x : Except ε α} {f : α → Except ε β} {e : ε} :
    (x >>= f) = .error e ↔ x = .error e ∨ ∃ a, x = .ok a ∧ f a = .error e := by
  cases x with
  | error e' =>
    constructor
    · intro h
      cases h
      exact .inl rfl
    · rintro (h | ⟨a, h, -⟩)
      · cases h
        rfl
      · cases h
  | ok a =>
    constructor
    · intro h
      exact .inr ⟨a, rfl, h⟩
    · rintro (h | ⟨a', h, there⟩)
      · cases h
      · cases h
        exact there

/-- What is refused in some case gives a value only in the other one. -/
theorem refusing_ok_iff {c : Prop} {_ : Decidable c} {e : ε} {f : α → Except ε β}
    {x : Except ε β} {b : β} : (if c then throw e >>= f else x) = .ok b ↔ ¬ c ∧ x = .ok b := by
  split
  · rename_i holds
    exact ⟨nofun, fun h => absurd holds h.1⟩
  · rename_i not
    exact ⟨fun h => ⟨not, h⟩, fun h => h.2⟩

theorem mapError_ok_iff {x : Except ε α} {f : ε → β} {a : α} :
    x.mapError f = .ok a ↔ x = .ok a := by
  cases x with
  | error e => simp [Except.mapError]
  | ok a' => simp [Except.mapError]

theorem toOption_eq_some_iff {x : Except ε α} {a : α} : x.toOption = some a ↔ x = .ok a := by
  cases x with
  | error e => simp [Except.toOption]
  | ok a' => simp [Except.toOption]

theorem mapError_error_iff {δ : Type} {x : Except ε α} {f : ε → δ} {e : δ} :
    x.mapError f = .error e ↔ ∃ cause, x = .error cause ∧ f cause = e := by
  cases x with
  | error cause => simp [Except.mapError]
  | ok a => simp [Except.mapError]

theorem exists_eq_map_ok {results : List (Except ε α)} (h : ∀ r ∈ results, ∃ a, r = .ok a) :
    ∃ xs : List α, results = xs.map .ok := by
  induction results with
  | nil => exact ⟨[], rfl⟩
  | cons r results ih =>
    obtain ⟨first, rest⟩ := List.forall_mem_cons.mp h
    obtain ⟨a, rfl⟩ := first
    obtain ⟨xs, rfl⟩ := ih rest
    exact ⟨a :: xs, rfl⟩

theorem mapM_some_iff {f : α → Option β} {xs : List α} {ys : List β} :
    xs.mapM f = some ys ↔ List.Forall₂ (fun x y => f x = some y) xs ys := by
  induction xs generalizing ys with
  | nil =>
    rw [List.mapM_nil]
    exact ⟨fun h => by cases h; exact .nil, fun h => by cases h; rfl⟩
  | cons x xs ih =>
    rw [List.mapM_cons]
    constructor
    · intro h
      cases here : f x with
      | none => rw [here] at h; cases h
      | some y =>
        cases there : xs.mapM f with
        | none => rw [here, there] at h; cases h
        | some rest =>
          rw [here, there] at h
          cases h
          exact .cons here (ih.mp there)
    · rintro (_ | ⟨here, rest⟩)
      rw [here, ih.mpr rest]
      rfl

theorem mapM_ok_iff {f : α → Except ε β} {xs : List α} {ys : List β} :
    xs.mapM f = .ok ys ↔ List.Forall₂ (fun x y => f x = .ok y) xs ys := by
  induction xs generalizing ys with
  | nil =>
    rw [List.mapM_nil]
    exact ⟨fun h => by cases h; exact .nil, fun h => by cases h; rfl⟩
  | cons x xs ih =>
    rw [List.mapM_cons]
    constructor
    · intro h
      cases here : f x with
      | error e => rw [here] at h; cases h
      | ok y =>
        cases there : xs.mapM f with
        | error e => rw [here, there] at h; cases h
        | ok rest =>
          rw [here, there] at h
          cases h
          exact .cons here (ih.mp there)
    · rintro (_ | ⟨here, rest⟩)
      rw [here, ih.mpr rest]
      rfl

/-- Work that fails has failed for one of the elements. -/
theorem exists_of_mapM_error {f : α → Except ε β} {xs : List α} {e : ε}
    (h : xs.mapM f = .error e) : ∃ x ∈ xs, f x = .error e := by
  induction xs with
  | nil =>
    rw [List.mapM_nil] at h
    cases h
  | cons x xs ih =>
    rw [List.mapM_cons] at h
    rcases bind_error_iff.mp h with here | ⟨y, -, h⟩
    · exact ⟨x, List.mem_cons_self, here⟩
    · rcases bind_error_iff.mp h with there | ⟨ys, -, h⟩
      · obtain ⟨z, hz, failed⟩ := ih there
        exact ⟨z, List.mem_cons_of_mem _ hz, failed⟩
      · cases h

/-- Work that undoes what was made of each element gives the elements back. -/
theorem mapM_map_some {f : β → Option α} {g : α → β} {xs : List α}
    (h : ∀ x ∈ xs, f (g x) = some x) : (xs.map g).mapM f = some xs := by
  rw [mapM_some_iff, List.forall₂_map_left_iff, List.forall₂_same]
  exact h

/-- Work in two passes is work in one. -/
theorem mapM_bind_some_iff {γ : Type} {f : α → Option β} {g : β → Option γ} {xs : List α}
    {zs : List γ} :
    (xs.mapM fun x => (f x).bind g) = some zs ↔
      ∃ ys, xs.mapM f = some ys ∧ ys.mapM g = some zs := by
  simp only [mapM_some_iff]
  constructor
  · intro h
    induction h with
    | nil => exact ⟨[], .nil, .nil⟩
    | cons both _ ih =>
      obtain ⟨y, here, there⟩ := Option.bind_eq_some_iff.mp both
      obtain ⟨ys, first, second⟩ := ih
      exact ⟨y :: ys, .cons here first, .cons there second⟩
  · rintro ⟨ys, first, second⟩
    induction first generalizing zs with
    | nil =>
      cases second
      exact .nil
    | cons here _ ih =>
      obtain _ | ⟨there, rest⟩ := second
      exact .cons (by rw [here, Option.bind_some, there]) (ih rest)

theorem exists_of_mem_right {r : α → β → Prop} {xs : List α} {ys : List β}
    (h : List.Forall₂ r xs ys) {y : β} (hy : y ∈ ys) : ∃ x ∈ xs, r x y := by
  induction h with
  | nil => cases hy
  | @cons x _ xs _ here _ ih =>
    rcases List.mem_cons.mp hy with rfl | hy
    · exact ⟨x, List.mem_cons_self, here⟩
    · obtain ⟨z, hz, there⟩ := ih hy
      exact ⟨z, List.mem_cons_of_mem _ hz, there⟩

theorem mem_of_mapM_some {f : α → Option β} {xs : List α} {ys : List β}
    (h : xs.mapM f = some ys) {y : β} (hy : y ∈ ys) : ∃ x ∈ xs, f x = some y :=
  exists_of_mem_right (mapM_some_iff.mp h) hy

theorem exists_of_mem_left {r : α → β → Prop} {xs : List α} {ys : List β}
    (h : List.Forall₂ r xs ys) {x : α} (hx : x ∈ xs) : ∃ y ∈ ys, r x y := by
  obtain ⟨y, hy, there⟩ := exists_of_mem_right h.flip hx
  exact ⟨y, hy, there⟩

theorem exists_mapM_some {f : α → Option β} {xs : List α} (h : ∀ x ∈ xs, ∃ y, f x = some y) :
    ∃ ys, xs.mapM f = some ys := by
  induction xs with
  | nil => exact ⟨[], rfl⟩
  | cons x xs ih =>
    obtain ⟨first, rest⟩ := List.forall_mem_cons.mp h
    obtain ⟨y, here⟩ := first
    obtain ⟨ys, there⟩ := ih rest
    exact ⟨y :: ys, mapM_some_iff.mpr (.cons here (mapM_some_iff.mp there))⟩

/-- Results that show whether their element is kept are kept with it. -/
theorem mapM_filter_some {f : α → Option β} {p : α → Bool} {q : β → Bool} {xs : List α}
    {ys : List β} (h : xs.mapM f = some ys) (shown : ∀ x y, f x = some y → q y = p x) :
    (xs.filter p).mapM f = some (ys.filter q) := by
  rw [mapM_some_iff] at *
  induction h with
  | nil => exact .nil
  | cons here _ ih =>
    rw [List.filter_cons, List.filter_cons, shown _ _ here]
    split
    · exact .cons here ih
    · exact ih

/-- Numbering the results. -/
theorem forall₂_zipIdx {r : α → β → Prop} {xs : List α} {ys : List β}
    (h : List.Forall₂ r xs ys) :
    List.Forall₂ (fun x y => r x y.1 ∧ ys[y.2]? = some y.1) xs ys.zipIdx := by
  obtain ⟨same, each⟩ := List.forall₂_iff_get.mp h
  refine List.forall₂_iff_get.mpr ⟨by rw [same, List.length_zipIdx], fun i hx hy => ?_⟩
  have here : i < ys.length := same ▸ hx
  simp only [List.get_eq_getElem, List.getElem_zipIdx, Nat.zero_add]
  exact ⟨each i hx here, List.getElem?_eq_getElem here⟩

/-- What goes with the elements that are kept, in order. -/
theorem forall₂_filter {r : α → β → Prop} {xs : List α} {ys : List β} (p : β → Bool)
    (h : List.Forall₂ r xs ys) : ∃ zs, zs.Sublist xs ∧ List.Forall₂ r zs (ys.filter p) := by
  induction h with
  | nil => exact ⟨[], .slnil, .nil⟩
  | cons here _ ih =>
    rename_i x y xs ys _
    obtain ⟨zs, sub, rest⟩ := ih
    rw [List.filter_cons]
    split
    · exact ⟨x :: zs, sub.cons_cons x, .cons here rest⟩
    · exact ⟨zs, sub.cons x, rest⟩

end Rehoming
