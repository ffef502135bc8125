import Mathlib.Data.List.Perm.Basic
import Rehoming.Proofs.Placement.DistinctSlots

/-! What a plan holds, all nodes together. Every place that a run gives out is a slot of its
topology, so nothing falls between the nodes: main statement, the snapshots of a plan are what
the successful calls of its run gave, each of them once. None of this depends on the pins. -/

namespace Rehoming

/-! ## Places are slots -/

theorem Topology.mem_slots_iff {t : Topology} {k : Nat} {address : Ipv4} :
    (k, address) ∈ t.slots ↔ ∃ n, t.nodes[k]? = some n ∧ address ∈ n.slots := by
  simp only [slots, List.mem_flatMap, List.mem_map, Prod.exists, Prod.mk.injEq,
    List.mem_zipIdx_iff_getElem?]
  constructor
  · rintro ⟨n, j, hn, slot, hs, rfl, rfl⟩
    exact ⟨n, hn, hs⟩
  · rintro ⟨n, hn, hs⟩
    exact ⟨n, k, hn, address, hs, rfl, rfl⟩

theorem Topology.FirstAt.mem_slots {t : Topology} {address : Ipv4} {k : Nat}
    (h : t.FirstAt address k) : (k, address) ∈ t.slots := by
  obtain ⟨n, hn, hs, -⟩ := h
  exact mem_slots_iff.mpr ⟨n, hn, hs⟩

namespace Assignment

variable {t : Topology} {pins : CheckedPins}

theorem place_mem {a : Assignment} {c : EncodeCall} (h : c ∈ a.calls t) :
    c.target ∈ a.steps.filterMap Step.place? := by
  rw [← calls_target]
  exact List.mem_map_of_mem h

theorem mirrored_places_first {policy : PlacementPolicy} (used : List (Nat × Ipv4))
    (brigades : List Brigade) :
    ∀ p ∈ (mirrored t pins policy used brigades).steps.filterMap Step.place?,
      t.FirstAt p.2 p.1 := by
  induction brigades generalizing used with
  | nil => simp [mirrored]
  | cons b rest ih =>
    intro p hp
    rw [mirrored] at hp
    split at hp
    · rename_i node found
      rw [push, List.filterMap_cons, Step.place?] at hp
      rcases List.mem_cons.mp hp with rfl | hp
      · exact (Mirrored.findFree_ok found).1
      · exact ih _ p hp
    · cases policy with
      | skip => exact ih used p hp
      | fatal => cases hp

theorem pinned_places_mem (brigades : List Brigade) :
    ∀ p ∈ (pinned t pins brigades).1.steps.filterMap Step.place?, p ∈ t.slots := by
  induction brigades with
  | nil => simp [pinned]
  | cons b rest ih =>
    intro p hp
    rw [pinned] at hp
    split at hp
    · cases hp
    · rename_i node located
      simp only [push, List.filterMap_cons, Step.place?] at hp
      rcases List.mem_cons.mp hp with rfl | hp
      · exact (Topology.locate_eq_some_iff.mp located).mem_slots
      · exact ih p hp

theorem fill_places_mem (used slots : List (Nat × Ipv4)) (queue : List Brigade) :
    ∀ p ∈ (fill used slots queue).1.filterMap Step.place?, p ∈ slots := by
  intro p hp
  rw [fill_eq] at hp
  obtain ⟨step, hs, here⟩ := List.mem_filterMap.mp hp
  obtain ⟨⟨slot, b⟩, hz, rfl⟩ := List.mem_map.mp hs
  cases here
  exact List.mem_eraseDups.mp (List.mem_filter.mp (List.of_mem_zip hz).1).1

/-- Whatever the pins are, places are slots of the topology. -/
theorem make_places_mem (mode : PlacementMode) (policy : PlacementPolicy)
    (brigades : List Brigade) :
    ∀ p ∈ (make t mode policy pins brigades).steps.filterMap Step.place?, p ∈ t.slots := by
  cases mode with
  | mirrored => exact fun p hp => (mirrored_places_first [] brigades p hp).mem_slots
  | sequential =>
    intro p hp
    simp only [make, sequential] at hp
    split at hp
    · exact pinned_places_mem _ p hp
    · rw [List.filterMap_append] at hp
      rcases List.mem_append.mp hp with hp | hp
      · exact pinned_places_mem _ p hp
      · exact fill_places_mem _ _ _ p hp

theorem call_target_mem {mode : PlacementMode} {policy : PlacementPolicy}
    {brigades : List Brigade} {c : EncodeCall}
    (h : c ∈ (make t mode policy pins brigades).calls t) : c.target ∈ t.slots :=
  make_places_mem mode policy brigades c.target (place_mem h)

end Assignment

/-! ## All nodes together -/

/-- Things with a number below some bound, put together by their number. -/
theorem flatMap_range_filter_perm {α : Type} (key : α → Nat) (xs : List α) (count : Nat) :
    ((List.range count).flatMap fun k => xs.filter fun x => key x = k).Perm
      (xs.filter fun x => key x < count) := by
  induction count with
  | zero => simp
  | succ count ih =>
    have below : (xs.filter fun x => key x < count + 1).filter (fun x => key x < count) =
        xs.filter fun x => key x < count := by
      rw [List.filter_filter]
      refine List.filter_congr fun x _ => ?_
      rw [Bool.eq_iff_iff]
      simp only [Bool.and_eq_true, decide_eq_true_eq]
      omega
    have last : (xs.filter fun x => key x < count + 1).filter (fun x => !decide (key x < count)) =
        xs.filter fun x => key x = count := by
      rw [List.filter_filter]
      refine List.filter_congr fun x _ => ?_
      rw [Bool.eq_iff_iff]
      simp only [Bool.and_eq_true, Bool.not_eq_true', decide_eq_false_iff_not, decide_eq_true_eq]
      omega
    have halves := List.filter_append_perm (fun x => decide (key x < count))
      (xs.filter fun x => key x < count + 1)
    rw [below, last] at halves
    rw [List.range_succ, List.flatMap_append, List.flatMap_singleton]
    exact (ih.append_right _).trans halves

theorem EncodeCall.gained_eq (encode : SlotEncoder) (node : Nat) (calls : List EncodeCall) :
    gained encode node calls =
      (calls.filter fun c => c.node = node).filterMap fun c => (encode c).toOption := by
  rw [gained, List.filterMap_filter]
  exact List.filterMap_congr fun c _ => by by_cases h : c.node = node <;> simp [h]

/-- What goes into all snapshots depends on the calls that succeed alone. -/
theorem EncodeCall.map_gained {α : Type} {encode : SlotEncoder} {f : PreparedSnapshot → α}
    {g : EncodeCall → α} (keeps : ∀ c s, encode c = .ok s → f s = g c) (calls : List EncodeCall) :
    (calls.filterMap fun c => (encode c).toOption).map f =
      (calls.filter fun c => (encode c).isOk).map g := by
  rw [List.map_filterMap, ← List.filterMap_eq_map, List.filterMap_filter]
  refine List.filterMap_congr fun c _ => ?_
  cases given : encode c with
  | error e => rfl
  | ok s => simp [keeps c s given, Except.toOption, Except.isOk, Except.toBool]

namespace RestorePlan

/-- The snapshots of all nodes. -/
def snapshots (p : RestorePlan) : List PreparedSnapshot := p.nodes.flatMap (·.snapshots)

theorem snapshots_serving (t : Topology) (realmFingerprint : String)
    (served : Nat → List PreparedSnapshot) :
    (serving t realmFingerprint fun k _ => served k).snapshots =
      (List.range t.nodes.length).flatMap served := by
  have drop (entries : List PlannedNode) :
      (entries.filter fun e => !e.snapshots.isEmpty).flatMap (·.snapshots) =
        entries.flatMap (·.snapshots) := by
    induction entries with
    | nil => rfl
    | cons e rest ih =>
      by_cases none : e.snapshots = [] <;> simp [none, ih]
  have numbers : t.nodes.zipIdx.map (·.2) = List.range t.nodes.length := by
    rw [List.zipIdx_map_snd, List.range_eq_range']
  rw [snapshots, serving, drop, List.flatMap_map, ← numbers, List.flatMap_map]

/-- A plan holds what the successful calls gave, each of them once. -/
theorem snapshots_perm {t : Topology} {realmFingerprint : String} {encode : SlotEncoder}
    {calls : List EncodeCall} (bound : ∀ c ∈ calls, c.node < t.nodes.length) :
    (serving t realmFingerprint fun k _ => EncodeCall.gained encode k calls).snapshots.Perm
      (calls.filterMap fun c => (encode c).toOption) := by
  have all : calls.filter (fun c => c.node < t.nodes.length) = calls :=
    List.filter_eq_self.mpr fun c hc => decide_eq_true (bound c hc)
  have grouped := flatMap_range_filter_perm (·.node) calls t.nodes.length
  rw [all] at grouped
  simp only [snapshots_serving, EncodeCall.gained_eq, ← List.filterMap_flatMap]
  exact grouped.filterMap _

end RestorePlan

/-- The snapshots of a plan are what the successful calls of its run gave. -/
theorem buildPlan_snapshots_perm {t : Topology} {realmFingerprint : String}
    {options : PlanOptions} {encode : SlotEncoder} {brigades : List Brigade} {plan : RestorePlan}
    (run : (buildPlan t realmFingerprint options encode brigades).result = .ok plan) :
    plan.snapshots.Perm
      (((Assignment.make t options.mode options.policy options.pins brigades).calls t).filterMap
        fun c => (encode c).toOption) := by
  obtain ⟨-, rfl⟩ := buildPlan_ok_iff.mp run
  exact RestorePlan.snapshots_perm fun c hc =>
    Sequential.mem_slots_lt (Assignment.call_target_mem hc)

end Rehoming
