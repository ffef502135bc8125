import Rehoming.Proofs.Placement.Addresses
import Rehoming.Proofs.Placement.Plans

/-! Filling slots in order, against its reference: pinned brigades stand at their pins,
and the others take the slots that are left, one after another. Main statement: a run
succeeds exactly if there are enough slots left, and its plan is the reference. -/

namespace Rehoming

/-! ## Slots that are left -/

theorem eraseDups_filter {α : Type} [BEq α] [LawfulBEq α] (p : α → Bool) (xs : List α) :
    (xs.filter p).eraseDups = xs.eraseDups.filter p := by
  match xs with
  | [] => simp
  | x :: xs =>
    have ih := eraseDups_filter p (xs.filter fun y => !y == x)
    rw [List.eraseDups_cons, List.filter_cons, List.filter_cons, ← ih]
    split
    · rw [List.eraseDups_cons, List.filter_filter, List.filter_filter]
      simp only [Bool.and_comm]
    · rename_i hx
      have skip : (xs.filter fun y => !y == x).filter p = xs.filter p := by
        rw [List.filter_filter]
        refine List.filter_congr fun y _ => ?_
        by_cases hy : y = x <;> simp_all
      rw [skip]
termination_by xs.length
decreasing_by exact Nat.lt_succ_of_le (List.length_filter_le _ _)

/-- The slots that are not used, each of them once. -/
def unused (used slots : List (Nat × Ipv4)) : List (Nat × Ipv4) :=
  slots.eraseDups.filter fun s => !used.contains s

theorem unused_cons_of_mem {used slots : List (Nat × Ipv4)} {slot : Nat × Ipv4}
    (h : slot ∈ used) : unused used (slot :: slots) = unused used slots := by
  have drop : (slots.filter fun s => !s == slot).eraseDups.filter (fun s => !used.contains s) =
      slots.eraseDups.filter fun s => !used.contains s := by
    rw [eraseDups_filter, List.filter_filter]
    refine List.filter_congr fun s _ => ?_
    by_cases hs : s = slot <;> simp_all
  simp only [unused, List.eraseDups_cons, List.filter_cons, List.contains_iff_mem.mpr h, drop]
  simp

theorem unused_cons_of_not_mem {used slots : List (Nat × Ipv4)} {slot : Nat × Ipv4}
    (h : slot ∉ used) :
    unused used (slot :: slots) = slot :: unused (slot :: used) slots := by
  have keep : (slots.filter fun s => !s == slot).eraseDups.filter (fun s => !used.contains s) =
      slots.eraseDups.filter fun s => !(slot :: used).contains s := by
    rw [eraseDups_filter, List.filter_filter]
    refine List.filter_congr fun s _ => ?_
    by_cases hs : s = slot <;> simp_all
  simp only [unused, List.eraseDups_cons, List.filter_cons, keep]
  simp [h]

namespace Assignment

/-- The queue and the unused slots are gone through in step. -/
theorem fill_eq (used slots : List (Nat × Ipv4)) (queue : List Brigade) :
    fill used slots queue = (((unused used slots).zip queue).map placeAt,
      queue.drop (unused used slots).length) := by
  induction slots generalizing used queue with
  | nil => simp [fill, unused]
  | cons slot slots ih =>
    cases queue with
    | nil => simp [fill]
    | cons b queue =>
      rw [fill]
      split
      · rename_i taken
        rw [ih, unused_cons_of_mem (List.contains_iff_mem.mp taken)]
      · rename_i free
        have fresh : slot ∉ used := by simpa using free
        rw [ih, unused_cons_of_not_mem fresh]
        simp [placeAt]

/-! ## Pinned brigades -/

/-- Brigades whose targets exist are all placed there, whatever else stands there. -/
theorem pinned_eq {t : Topology} {pins : CheckedPins} {brigades : List Brigade}
    (h : ∀ b ∈ brigades, t.Declares (pins.target b)) :
    pinned t pins brigades =
      (⟨(brigades.map fun b => (t.home (pins.target b), b)).map placeAt, none⟩,
        brigades.map fun b => t.home (pins.target b)) := by
  induction brigades with
  | nil => rfl
  | cons b rest ih =>
    obtain ⟨node, first⟩ := (h b List.mem_cons_self).firstAt
    rw [pinned]
    have behind := ih fun c hc => h c (List.mem_cons_of_mem _ hc)
    simp only [Topology.locate_eq_some_iff.mpr first, behind, push, List.map_cons,
      Topology.home_eq first, placeAt]

end Assignment

/-! ## The reference -/

namespace Sequential

variable (t : Topology) (pins : CheckedPins) (brigades : List Brigade)

/-- The brigades that have a pin. -/
def fixed : List Brigade := brigades.filter fun b => (pins.get? b.id).isSome

/-- The brigades that have none. -/
def queue : List Brigade := brigades.filter fun b => (pins.get? b.id).isNone

/-- All slots in order, each of a node's slots once, without those of pinned brigades. -/
def free : List (Nat × Ipv4) :=
  t.slots.eraseDups.filter fun s => !(fixed pins brigades).any fun b =>
    pins.get? b.id = some s.2 ∧ t.FirstAt s.2 s.1

/-- The calls for node `k`: pinned brigades whose pin this node is the first to have,
and then those of the queue that come to one of its slots. -/
def callsFor (k : Nat) (n : Node) : List EncodeCall :=
  ((fixed pins brigades).zipIdx.filterMap fun b => (pins.get? b.1.id).bind fun pin =>
      if t.FirstAt pin k then some ⟨b.2, k, b.1, pin, n.routerKey⟩ else none)
    ++ (((free t pins brigades).zip (queue pins brigades)).zipIdx
        (fixed pins brigades).length).filterMap fun q =>
      if q.1.1.1 = k then some ⟨q.2, k, q.1.2, q.1.1.2, n.routerKey⟩ else none

variable {t pins brigades}

theorem partition_eq : brigades.partition (fun b => (pins.get? b.id).isSome) =
    (fixed pins brigades, queue pins brigades) := by
  rw [List.partition_eq_filter_filter, fixed, queue, Prod.mk.injEq]
  exact ⟨rfl, List.filter_congr fun b _ => by simp⟩

theorem target_of_fixed {b : Brigade} (hb : b ∈ fixed pins brigades) :
    pins.get? b.id = some (pins.target b) := by
  have pinned := (List.mem_filter.mp hb).2
  obtain ⟨pin, hp⟩ := Option.isSome_iff_exists.mp pinned
  simp [CheckedPins.target, hp]

theorem length_fixed_add_queue :
    (fixed pins brigades).length + (queue pins brigades).length = brigades.length := by
  rw [List.length_eq_length_filter_add (l := brigades) fun b => (pins.get? b.id).isSome]
  simp [fixed, queue]

/-- What the pinned brigades take is what is not free. -/
theorem unused_fixed (fit : pins.Fit t) :
    unused ((fixed pins brigades).map fun b => t.home (pins.target b))
      t.slots = free t pins brigades := by
  refine List.filter_congr fun s _ => ?_
  refine congrArg _ (Bool.eq_iff_iff.mpr ?_)
  simp only [List.contains_iff_mem, List.mem_map, List.any_eq_true, decide_eq_true_eq]
  refine exists_congr fun b => and_congr_right fun hb => ?_
  have pin := target_of_fixed hb
  rw [Prod.ext_iff, Topology.home_fst_eq_iff (fit.declares pin), pin, Option.some_inj]
  constructor
  · rintro ⟨first, same⟩
    exact ⟨same, same ▸ first⟩
  · rintro ⟨same, first⟩
    exact ⟨same ▸ first, same⟩

/-- All places that are given out, in order. -/
def places (t : Topology) (pins : CheckedPins) (brigades : List Brigade) :
    List ((Nat × Ipv4) × Brigade) :=
  (fixed pins brigades).map (fun b => (t.home (pins.target b), b))
    ++ (free t pins brigades).zip (queue pins brigades)

theorem sequential_eq (fit : pins.Fit t) :
    Assignment.sequential t pins brigades = ⟨(places t pins brigades).map Assignment.placeAt,
      if (queue pins brigades).length ≤ (free t pins brigades).length then none
      else some (.reservationTooSmall brigades.length t.totalSlots)⟩ := by
  have declared : ∀ b ∈ fixed pins brigades, t.Declares (pins.target b) :=
    fun b hb => fit.declares (target_of_fixed hb)
  simp only [Assignment.sequential, partition_eq, Assignment.pinned_eq declared, Assignment.fill_eq,
    unused_fixed fit, length_fixed_add_queue, List.isEmpty_iff, List.drop_eq_nil_iff, places,
    List.map_append]

theorem brigade_mem (fit : pins.Fit t) {step : Step}
    (h : step ∈ (Assignment.sequential t pins brigades).steps) : step.brigade ∈ brigades := by
  rw [sequential_eq fit] at h
  obtain ⟨place, hp, rfl⟩ := List.mem_map.mp h
  rcases List.mem_append.mp hp with hp | hp
  · obtain ⟨b, hb, rfl⟩ := List.mem_map.mp hp
    exact (List.mem_filter.mp hb).1
  · exact (List.mem_filter.mp (List.of_mem_zip hp).2).1

/-! ## The plan of a run -/

/-- Among the calls of the whole run, those for a node are the ones of the reference. -/
theorem filter_calls (fit : pins.Fit t) {k : Nat} {n : Node} (hn : t.nodes[k]? = some n) :
    ((Assignment.sequential t pins brigades).calls t).filter (fun c => c.node = k) =
      callsFor t pins brigades k n := by
  have declared : ∀ b ∈ fixed pins brigades, t.Declares (pins.target b) :=
    fun b hb => fit.declares (target_of_fixed hb)
  rw [sequential_eq fit, Assignment.calls_placeAt, places, EncodeCall.atPlaces_append,
    List.filter_append, EncodeCall.filter_atPlaces_home hn declared, EncodeCall.filter_atPlaces hn,
    callsFor, List.length_map, Nat.zero_add]
  refine congrArg (· ++ _) (List.filterMap_congr fun b hb => ?_)
  rw [target_of_fixed (List.fst_mem_of_mem_zipIdx hb), Option.bind_some]

/-- **Slots are filled as in the reference.** With pins that the topology has accepted and
an encoder that never fails, a run succeeds exactly if as many slots are free as brigades
are queued. Its plan then serves, on each node, the calls of the reference; otherwise the
reservation is too small for all brigades. -/
theorem buildPlan_sequential {given : Pins} {ids : List String}
    (accepted : (t.checkPins given ids).result = .ok pins) (realmFingerprint : String)
    (policy : PlacementPolicy) (encoded : EncodeCall → PreparedSnapshot) :
    let result := (buildPlan t realmFingerprint ⟨.sequential, policy, pins⟩
      (fun c => .ok (encoded c)) brigades).result
    let queued := (queue pins brigades).length
    let slots := (free t pins brigades).length
    ((∃ plan, result = .ok plan) ↔ queued ≤ slots) ∧
      (queued ≤ slots → result = .ok (.serving t realmFingerprint fun k n =>
        (callsFor t pins brigades k n).map encoded)) ∧
      (slots < queued → result = .error (.reservationTooSmall brigades.length t.totalSlots)) := by
  intro result queued slots
  have fit : pins.Fit t := (Topology.checkPins_ok_iff.mp accepted).2
  have failure : (Assignment.sequential t pins brigades).failure =
      if queued ≤ slots then none
      else some (.reservationTooSmall brigades.length t.totalSlots) := by rw [sequential_eq fit]
  have run := buildPlan_result t realmFingerprint ⟨.sequential, policy, pins⟩
    (fun c => .ok (encoded c)) brigades
  simp only [Assignment.make, failure] at run
  have enough (h : queued ≤ slots) : result = .ok (.serving t realmFingerprint fun k n =>
      (callsFor t pins brigades k n).map encoded) := by
    simp only [result, run, if_pos h]
    refine congrArg Except.ok (RestorePlan.serving_congr fun k n hn => ?_)
    rw [EncodeCall.gained_ok, filter_calls fit hn]
  have short (h : slots < queued) :
      result = .error (.reservationTooSmall brigades.length t.totalSlots) := by
    simp only [result, run, if_neg (Nat.not_le.mpr h)]
  refine ⟨⟨?_, fun h => ⟨_, enough h⟩⟩, enough, short⟩
  rintro ⟨plan, hp⟩
  by_contra h
  rw [short (Nat.not_le.mp h)] at hp
  cases hp

/-- Slots that are declared twice, on one node and on two, with a pin on one of them. -/
theorem buildPlan_sequential_repeated :
    let a (d : UInt8) : Ipv4 := ⟨10, 0, 0, d⟩
    let t : Topology := ⟨"r", [⟨"n0", default, [a 5, a 5, a 6]⟩, ⟨"n1", default, [a 6, a 7]⟩]⟩
    let given : Pins := .ofList [("y", a 6)]
    let brigades : List Brigade := [.named "x" (a 9), .named "y" (a 5), .named "x" (a 9)]
    (t.checkPins given ["x", "y"]).result = .ok ⟨given⟩ ∧
      (buildPlan t "f" ⟨.sequential, .fatal, ⟨given⟩⟩ (fun c => .ok c.stub) brigades).result =
        .ok ⟨"r", "f", [⟨"n0", [⟨"y", a 6, [""], "", ""⟩, ⟨"x", a 5, [""], "", ""⟩]⟩,
          ⟨"n1", [⟨"x", a 6, [""], "", ""⟩]⟩]⟩ := by
  intro a t given brigades
  have accepted : (t.checkPins given ["x", "y"]).result = .ok ⟨given⟩ := by decide
  refine ⟨accepted, ((buildPlan_sequential accepted "f" .fatal EncodeCall.stub).2.1 ?_).trans ?_⟩
  · decide
  · decide

end Sequential
end Rehoming
