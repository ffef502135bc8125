import Rehoming.Restore
import Rehoming.Proofs.Sequences

/-! Decoding in any order. Envelopes are tasks that may end in whatever order they are run, and what
they give is gathered by place. Main statement: with brigades to show, a run that decodes side by
side has those that it would have had one after another. -/

namespace Rehoming

open Keys

theorem Logged.bind_ok_iff {α β : Type} {x : Logged α} {f : α → Logged β} {b : β} :
    (x >>= f).result = .ok b ↔ ∃ a, x.result = .ok a ∧ (f a).result = .ok b := by
  obtain ⟨result, events⟩ := x
  cases result with
  | error e => simp [Logged.bind]
  | ok a => simp [Logged.bind]

/-! ## Gathering -/

theorem gather_map_ok {α : Type} (order : List Nat) (out : List α) :
    gather order (out.map .ok) = .ok out := by
  have all : (out.map (Except.ok : α → Except Error α)).filterMap Except.toOption = out := by
    rw [List.filterMap_map]
    exact List.filterMap_some
  unfold gather
  dsimp only
  split
  · rename_i failed
    obtain ⟨i, -, found⟩ := List.exists_of_findSome?_eq_some failed
    rw [List.getElem?_map] at found
    cases there : out[i]? with
    | none => simp [there] at found
    | some a => simp [there] at found
  · rw [all]

/-- All tasks have ended, or one that has, has failed: then the others need not be waited for. -/
def Settled {α : Type} (results : List (Except Error α)) (order : List Nat) : Prop :=
  (∀ i < results.length, i ∈ order) ∨ ∃ i ∈ order, ∃ e, results[i]? = some (.error e)

/-- Results that are waited for are all there, unless one of them is an error. -/
theorem gather_ok_iff {α : Type} {results : List (Except Error α)} {order : List Nat}
    (settled : Settled results order) {out : List α} :
    gather order results = .ok out ↔ results = out.map .ok := by
  refine ⟨fun h => ?_, fun h => h ▸ gather_map_ok _ out⟩
  have passed (i : Nat) (hi : i ∈ order) (e : Error) : results[i]? ≠ some (.error e) := by
    intro failed
    unfold gather at h
    dsimp only at h
    split at h
    · cases h
    · rename_i fine
      have none := List.findSome?_eq_none_iff.mp fine i hi
      rw [failed] at none
      cases none
  have each (r : Except Error α) (hr : r ∈ results) : ∃ a, r = .ok a := by
    obtain ⟨i, there⟩ := List.mem_iff_getElem?.mp hr
    obtain ⟨inside, -⟩ := List.getElem?_eq_some_iff.mp there
    obtain ended | ⟨j, hj, e, failed⟩ := settled
    · cases r with
      | ok a => exact ⟨a, rfl⟩
      | error e => exact absurd there (passed i (ended i inside) e)
    · exact absurd failed (passed j hj e)
  obtain ⟨xs, rfl⟩ := exists_eq_map_ok each
  rw [gather_map_ok] at h
  cases h
  rfl

/-- Tasks that are done one after another all end. -/
theorem settled_range {α : Type} (results : List (Except Error α)) :
    Settled results (List.range results.length) :=
  .inl fun _ inside => List.mem_range.mpr inside

/-- Where nothing is found, there is no need to look. -/
theorem findSome?_without {α : Type} {f : Nat → Option α} {i : Nat} (nothing : f i = none)
    (order : List Nat) : (order.filter fun j => !j == i).findSome? f = order.findSome? f := by
  induction order with
  | nil => rfl
  | cons j rest ih =>
    by_cases same : j = i
    · subst same
      simp [nothing, ih]
    · simp [List.findSome?_cons, same, ih]

/-- To look where something was looked for already changes nothing. -/
theorem findSome?_eraseDups {α : Type} (f : Nat → Option α) (order : List Nat) :
    order.eraseDups.findSome? f = order.findSome? f := by
  match order with
  | [] => rfl
  | i :: rest =>
    rw [List.eraseDups_cons, List.findSome?_cons, List.findSome?_cons]
    cases found : f i with
    | some a => rfl
    | none => exact (findSome?_eraseDups f _).trans (findSome?_without found rest)
termination_by order.length
decreasing_by
  simpa only [List.length_cons] using
    Nat.lt_succ_of_le (List.length_filter_le (fun j => !j == i) rest)

theorem mem_completion {count i : Nat} (inside : i < count) (first : List Nat) :
    i ∈ completion count first := by
  rw [completion, List.mem_eraseDups, List.mem_append, List.mem_range]
  exact .inr inside

/-- When all is settled, the other tasks may end as they like. -/
theorem gather_completion {α : Type} {results : List (Except Error α)} {order : List Nat}
    (settled : Settled results order) :
    gather (completion results.length order) results = gather order results := by
  unfold gather
  dsimp only
  rw [completion, findSome?_eraseDups, List.findSome?_append]
  obtain ended | ⟨i, hi, e, failed⟩ := settled
  · cases found : order.findSome? _ with
    | some e => rfl
    | none =>
      rw [List.findSome?_eq_none_iff.mpr fun i inside =>
        List.findSome?_eq_none_iff.mp found i (ended i (List.mem_range.mp inside))]
      rfl
  · cases found : order.findSome? _ with
    | some e => rfl
    | none =>
      have fine := List.findSome?_eq_none_iff.mp found i hi
      rw [failed] at fine
      cases fine

/-! ## Envelopes -/

namespace Bundle

variable {suite : CipherSuite} {authority : AuthorityKey} {limit : Nat} {b : Bundle}

theorem length_brigades (shared : Bytes) :
    (b.brigades suite authority shared limit).length = b.envelopes.length := List.length_map _

/-- Behind the secret that envelopes share, decoding gathers what comes of each. -/
theorem decodeIn_result (order : List Nat) :
    (b.decodeIn suite authority limit order).result =
      b.shared suite authority >>= fun shared =>
        gather order (b.brigades suite authority shared limit) := by
  rw [decodeIn]
  cases b.shared suite authority with
  | error e => rfl
  | ok shared => rfl

/-- A bundle is decoded envelope by envelope, under the secret that they share. -/
theorem decodeIn_ok_iff {order : List Nat} {out : List Brigade}
    (settled : ∀ shared, b.shared suite authority = .ok shared →
      Settled (b.brigades suite authority shared limit) order) :
    (b.decodeIn suite authority limit order).result = .ok out ↔
      ∃ shared, b.shared suite authority = .ok shared ∧
        List.Forall₂ (fun e c => e.decode suite authority shared limit = .ok c)
          b.envelopes out := by
  rw [decodeIn_result]
  refine bind_ok_iff.trans (exists_congr fun shared => and_congr_right fun opened => ?_)
  rw [gather_ok_iff (settled shared opened), brigades, ← List.forall₂_eq_eq_eq,
    List.forall₂_map_left_iff, List.forall₂_map_right_iff]
  simp only [mapError_ok_iff]

theorem decode_ok_iff {out : List Brigade} :
    (b.decode suite authority limit).result = .ok out ↔
      ∃ shared, b.shared suite authority = .ok shared ∧
        List.Forall₂ (fun e c => e.decode suite authority shared limit = .ok c)
          b.envelopes out :=
  decodeIn_ok_iff fun shared _ => length_brigades shared ▸ settled_range _

/-- **Side by side or not**, a run has the same brigades to show, if it has any. -/
theorem decodeAll_ok_iff {options : RunOptions} {out : List Brigade} :
    (b.decodeAll suite authority options).result = .ok out ↔
      (b.decode suite authority options.limit).result = .ok out := by
  rw [decodeAll]
  split
  · rw [decode_ok_iff]
    refine decodeIn_ok_iff fun shared _ => .inl fun i inside => mem_completion ?_ _
    rwa [length_brigades] at inside
  · exact Iff.rfl

end Bundle
end Rehoming
