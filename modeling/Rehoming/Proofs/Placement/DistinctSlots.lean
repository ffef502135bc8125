import Rehoming.Proofs.Placement.Sequential
import Rehoming.Proofs.Placement.Mirrored

/-! Whether a run gives a slot out twice. Mirrored runs refuse to, and so does the queue
of a sequential one; pinned brigades are placed there whether or not the slot is taken.
Main statement: snapshots on one node have the same slot exactly if a sequential run has
encoded two brigades with one id for their pin. -/

namespace Rehoming

/-! ## Places -/

/-- The place that a call is for. -/
def EncodeCall.target (c : EncodeCall) : Nat × Ipv4 := (c.node, c.slot)

theorem Assignment.calls_target (t : Topology) (a : Assignment) :
    (a.calls t).map EncodeCall.target = a.steps.filterMap Step.place? := by
  have whole : a.steps.filterMap Step.place? = a.steps.zipIdx.filterMap fun s => s.1.place? := by
    conv_lhs => rw [← List.zipIdx_map_fst 0 a.steps, List.filterMap_map]
    rfl
  rw [calls, List.map_filterMap, whole]
  refine List.filterMap_congr fun s _ => ?_
  obtain ⟨step, ordinal⟩ := s
  cases step <;> rfl

theorem EncodeCall.atPlaces_target (t : Topology) (first : Nat)
    (places : List ((Nat × Ipv4) × Brigade)) :
    (atPlaces t first places).map target = places.map (·.1) := by
  rw [atPlaces, List.map_map]
  conv_rhs => rw [← List.zipIdx_map_fst first places, List.map_map]
  rfl

theorem Topology.FirstAt.lt_length {t : Topology} {address : Ipv4} {k : Nat}
    (h : t.FirstAt address k) : k < t.nodes.length := by
  obtain ⟨n, hn, -, -⟩ := h
  exact (List.getElem?_eq_some_iff.mp hn).1

/-! ## Mirrored runs -/

namespace Mirrored

variable {t : Topology} {pins : CheckedPins} {policy : PlacementPolicy}

/-- However a run deals with misfits, its places exist, differ, and were not used before. -/
theorem mirrored_places (used : List (Nat × Ipv4)) (brigades : List Brigade) :
    let places := (Assignment.mirrored t pins policy used brigades).steps.filterMap Step.place?
    places.Nodup ∧ ∀ p ∈ places, p ∉ used ∧ p.1 < t.nodes.length := by
  induction brigades generalizing used with
  | nil => simp [Assignment.mirrored]
  | cons b rest ih =>
    rw [Assignment.mirrored]
    dsimp only
    split
    · rename_i node found
      obtain ⟨first, fresh⟩ := findFree_ok found
      obtain ⟨distinct, unused⟩ := ih ((node, pins.target b) :: used)
      simp only [Assignment.push, List.filterMap_cons, Step.place?]
      refine ⟨List.nodup_cons.mpr ⟨fun again => ?_, distinct⟩, fun p hp => ?_⟩
      · exact (unused _ again).1 List.mem_cons_self
      · rcases List.mem_cons.mp hp with rfl | hp
        · exact ⟨fresh, first.lt_length⟩
        · exact ⟨mt (List.mem_cons_of_mem _) (unused p hp).1, (unused p hp).2⟩
    · cases policy with
      | skip => exact ih used
      | fatal => simp

end Mirrored

/-! ## Sequential runs -/

namespace Sequential

variable {t : Topology} {pins : CheckedPins} {brigades : List Brigade}

theorem mem_slots_lt {slot : Nat × Ipv4} (h : slot ∈ t.slots) : slot.1 < t.nodes.length := by
  obtain ⟨n, hn, hs⟩ := List.mem_flatMap.mp h
  obtain ⟨address, -, rfl⟩ := List.mem_map.mp hs
  have := List.snd_lt_of_mem_zipIdx hn
  omega

theorem nodup_eraseDups {α : Type} [BEq α] [LawfulBEq α] (xs : List α) : xs.eraseDups.Nodup := by
  match xs with
  | [] => simp
  | x :: xs =>
    have ih := nodup_eraseDups (xs.filter fun y => !y == x)
    rw [List.eraseDups_cons, List.nodup_cons]
    refine ⟨?_, ih⟩
    simp [List.mem_eraseDups]
termination_by xs.length
decreasing_by exact Nat.lt_succ_of_le (List.length_filter_le _ _)

theorem map_fst_zip_sublist {α β : Type} :
    ∀ (xs : List α) (ys : List β), ((xs.zip ys).map (·.1)).Sublist xs
  | [], _ => by simp
  | _ :: _, [] => by simp
  | x :: xs, _ :: ys => (map_fst_zip_sublist xs ys).cons_cons x

/-- The queue takes no slot twice, and none of a pinned brigade. -/
theorem queued_places (fit : pins.Fit t) :
    let places := ((free t pins brigades).zip (queue pins brigades)).map (·.1)
    places.Nodup ∧ (∀ p ∈ places, p.1 < t.nodes.length) ∧
      ∀ b ∈ fixed pins brigades, t.home (pins.target b) ∉ places := by
  intro places
  have front : places.Sublist (free t pins brigades) := map_fst_zip_sublist _ _
  have free_mem {p : Nat × Ipv4} (hp : p ∈ places) : p ∈ free t pins brigades := front.mem hp
  refine ⟨front.nodup ((nodup_eraseDups t.slots).filter _), fun p hp => ?_, fun b hb hp => ?_⟩
  · exact mem_slots_lt (List.mem_eraseDups.mp (List.mem_filter.mp (free_mem hp)).1)
  · have here := free_mem hp
    rw [← unused_fixed fit, unused, List.mem_filter] at here
    have taken := List.mem_map_of_mem (f := fun b => t.home (pins.target b)) hb
    rw [List.contains_iff_mem.mpr taken] at here
    exact absurd here.2 (by decide)

theorem get?_of_queued {b : Brigade} (hb : b ∈ queue pins brigades) : pins.get? b.id = none := by
  simpa using (List.mem_filter.mp hb).2

/-- Among brigades at their pins, two are at the same place exactly if they have one id. -/
theorem nodup_targets_iff_nodup_ids (fit : pins.Fit t) {calls : List EncodeCall}
    (atPins : ∀ c ∈ calls, c.brigade ∈ fixed pins brigades ∧
      c.target = t.home (pins.target c.brigade)) :
    (calls.map EncodeCall.target).Nodup ↔ (calls.map (·.brigade.id)).Nodup := by
  rw [List.Nodup, List.Nodup, List.pairwise_map, List.pairwise_map]
  refine List.Pairwise.iff_of_mem fun {c d} hc hd => not_congr ?_
  obtain ⟨fixed, atPin⟩ := atPins c hc
  obtain ⟨fixed', atPin'⟩ := atPins d hd
  have pin := target_of_fixed fixed
  have pin' := target_of_fixed fixed'
  rw [atPin, atPin']
  constructor
  · intro same
    have : pins.target c.brigade = pins.target d.brigade :=
      congrArg (·.2) same
    exact fit.get?_inj pin (this ▸ pin')
  · intro same
    rw [same, pin', Option.some_inj] at pin
    rw [pin]

end Sequential

/-! ## Snapshots on one node -/

/-- The calls of a run that the encoder answers with a snapshot. -/
def Assignment.encoded (t : Topology) (encode : SlotEncoder) (a : Assignment) : List EncodeCall :=
  (a.calls t).filter fun c => (encode c).isOk

/-- The ids of the pinned brigades that a run encodes, in order. -/
def Assignment.encodedPins (t : Topology) (pins : CheckedPins) (encode : SlotEncoder)
    (a : Assignment) : List String :=
  ((a.encoded t encode).filter fun c => (pins.get? c.brigade.id).isSome).map (·.brigade.id)

theorem EncodeCall.addresses_gained {encode : SlotEncoder}
    (keeps : ∀ c s, encode c = .ok s → s.address = c.slot) (node : Nat) (calls : List EncodeCall) :
    (gained encode node calls).map (·.address) =
      ((calls.filter fun c => (encode c).isOk).filter fun c => c.node = node).map (·.slot) := by
  rw [gained, List.map_filterMap, List.filter_filter, ← List.filterMap_eq_map,
    List.filterMap_filter]
  refine List.filterMap_congr fun c _ => ?_
  cases given : encode c with
  | error e =>
    by_cases here : c.node = node <;>
      simp [here, Except.toOption, Except.isOk, Except.toBool]
  | ok s =>
    have slot := keeps c s given
    by_cases here : c.node = node <;>
      simp [here, slot, Except.toOption, Except.isOk, Except.toBool]

/-- Calls are for different places exactly if they are for different slots on each node. -/
theorem EncodeCall.nodup_target_iff {calls : List EncodeCall} {count : Nat}
    (bound : ∀ c ∈ calls, c.node < count) : (calls.map target).Nodup ↔
      ∀ k < count, ((calls.filter fun c => c.node = k).map (·.slot)).Nodup := by
  simp only [List.Nodup, List.pairwise_map, List.pairwise_filter, decide_eq_true_eq]
  simp only [List.pairwise_iff_forall_sublist]
  constructor
  · intro apart k _ c d both hc hd same
    exact apart both (Prod.ext (hc.trans hd.symm) same)
  · intro apart c d both same
    obtain ⟨node, slot⟩ := Prod.ext_iff.mp same
    exact apart c.node (bound c (both.subset (by simp))) both rfl node.symm slot

theorem RestorePlan.mem_serving_iff {t : Topology} {realmFingerprint : String}
    {served : Nat → Node → List PreparedSnapshot} {entry : PlannedNode} :
    entry ∈ (serving t realmFingerprint served).nodes ↔ ∃ k n, t.nodes[k]? = some n ∧
      entry = ⟨n.controlIp, served k n⟩ ∧ served k n ≠ [] := by
  simp only [serving, List.mem_filter, List.mem_map, Prod.exists, List.mem_zipIdx_iff_getElem?]
  constructor
  · rintro ⟨⟨n, k, hn, rfl⟩, some⟩
    exact ⟨k, n, hn, rfl, by simpa using some⟩
  · rintro ⟨k, n, hn, rfl, some⟩
    exact ⟨⟨n, k, hn, rfl⟩, by simpa using some⟩

/-- Snapshots on each node have different slots exactly if the encoded calls are for
different places. -/
theorem RestorePlan.addresses_nodup_iff {t : Topology} {realmFingerprint : String}
    {encode : SlotEncoder} (keeps : ∀ c s, encode c = .ok s → s.address = c.slot) {a : Assignment}
    (bound : ∀ p ∈ a.steps.filterMap Step.place?, p.1 < t.nodes.length) :
    (∀ entry ∈ (serving t realmFingerprint fun k _ => EncodeCall.gained encode k (a.calls t)).nodes,
        (entry.snapshots.map (·.address)).Nodup) ↔
      ((a.encoded t encode).map EncodeCall.target).Nodup := by
  have called : ∀ c ∈ a.encoded t encode, c.node < t.nodes.length := by
    intro c hc
    refine bound c.target ?_
    rw [← Assignment.calls_target]
    exact List.mem_map_of_mem (List.mem_of_mem_filter hc)
  rw [EncodeCall.nodup_target_iff called]
  constructor
  · intro distinct k hk
    rw [Assignment.encoded, ← EncodeCall.addresses_gained keeps]
    by_cases none : EncodeCall.gained encode k (a.calls t) = []
    · simp [none]
    · exact distinct _ (mem_serving_iff.mpr ⟨k, _, List.getElem?_eq_getElem hk, rfl, none⟩)
  · intro distinct entry he
    obtain ⟨k, n, hn, rfl, -⟩ := mem_serving_iff.mp he
    rw [EncodeCall.addresses_gained keeps]
    exact distinct k (List.getElem?_eq_some_iff.mp hn).1

/-! ## All runs -/

section

variable {t : Topology} {pins : CheckedPins} {brigades : List Brigade}

theorem Sequential.steps_places (fit : pins.Fit t) :
    (Assignment.sequential t pins brigades).steps.filterMap Step.place? =
      ((fixed pins brigades).map fun b => t.home (pins.target b)) ++
        ((free t pins brigades).zip (queue pins brigades)).map (·.1) := by
  rw [sequential_eq fit, ← Assignment.calls_target t, Assignment.calls_placeAt,
    EncodeCall.atPlaces_target, places, List.map_append, List.map_map]
  rfl

/-- Every place of a run is on one of the nodes. -/
theorem Assignment.make_places_lt (fit : pins.Fit t) (mode : PlacementMode)
    (policy : PlacementPolicy) :
    ∀ p ∈ (make t mode policy pins brigades).steps.filterMap Step.place?, p.1 < t.nodes.length := by
  intro p hp
  cases mode with
  | mirrored => exact ((Mirrored.mirrored_places [] brigades).2 p hp).2
  | sequential =>
    rw [make, Sequential.steps_places fit] at hp
    rcases List.mem_append.mp hp with hp | hp
    · obtain ⟨b, hb, rfl⟩ := List.mem_map.mp hp
      obtain ⟨k, first⟩ := (fit.declares (Sequential.target_of_fixed hb)).firstAt
      rw [Topology.home_eq first]
      exact first.lt_length
    · exact (Sequential.queued_places fit).2.1 p hp

/-- Mirrored runs encode for different places. -/
theorem Mirrored.encoded_nodup (policy : PlacementPolicy) (encode : SlotEncoder) :
    (((Assignment.make t .mirrored policy pins brigades).encoded t encode).map
      EncodeCall.target).Nodup := by
  have places : ((Assignment.mirrored t pins policy [] brigades).steps.filterMap
      Step.place?).Nodup := (mirrored_places [] brigades).1
  rw [← Assignment.calls_target t] at places
  exact places.sublist (List.filter_sublist.map _)

namespace Sequential

/-- The calls for pinned brigades, which a run makes first. -/
def pinnedCalls (t : Topology) (pins : CheckedPins) (brigades : List Brigade) : List EncodeCall :=
  EncodeCall.atPlaces t 0
    ((fixed pins brigades).map fun b => (t.home (pins.target b), b))

/-- The calls for the queue. -/
def queuedCalls (t : Topology) (pins : CheckedPins) (brigades : List Brigade) : List EncodeCall :=
  EncodeCall.atPlaces t (fixed pins brigades).length
    ((free t pins brigades).zip (queue pins brigades))

theorem calls_eq (fit : pins.Fit t) : (Assignment.sequential t pins brigades).calls t =
    pinnedCalls t pins brigades ++ queuedCalls t pins brigades := by
  rw [sequential_eq fit, Assignment.calls_placeAt, places, EncodeCall.atPlaces_append,
    List.length_map, Nat.zero_add, pinnedCalls, queuedCalls]

theorem pinnedCalls_target {c : EncodeCall} (hc : c ∈ pinnedCalls t pins brigades) :
    c.brigade ∈ fixed pins brigades ∧ c.target = t.home (pins.target c.brigade) := by
  obtain ⟨⟨place, ordinal⟩, hp, rfl⟩ := List.mem_map.mp hc
  obtain ⟨b, hb, rfl⟩ := List.mem_map.mp (List.fst_mem_of_mem_zipIdx hp)
  exact ⟨hb, rfl⟩

theorem queuedCalls_unpinned {c : EncodeCall} (hc : c ∈ queuedCalls t pins brigades) :
    pins.get? c.brigade.id = none := by
  obtain ⟨p, hp, rfl⟩ := List.mem_map.mp hc
  exact get?_of_queued (List.of_mem_zip (List.fst_mem_of_mem_zipIdx hp)).2

theorem encodedPins_eq (fit : pins.Fit t) (encode : SlotEncoder) :
    (Assignment.sequential t pins brigades).encodedPins t pins encode =
      ((pinnedCalls t pins brigades).filter fun c => (encode c).isOk).map (·.brigade.id) := by
  have kept : ((pinnedCalls t pins brigades).filter fun c => (encode c).isOk).filter
      (fun c => (pins.get? c.brigade.id).isSome) =
        (pinnedCalls t pins brigades).filter fun c => (encode c).isOk := by
    refine List.filter_eq_self.mpr fun c hc => ?_
    rw [target_of_fixed (pinnedCalls_target (List.mem_of_mem_filter hc)).1, Option.isSome_some]
  have dropped : ((queuedCalls t pins brigades).filter fun c => (encode c).isOk).filter
      (fun c => (pins.get? c.brigade.id).isSome) = [] := by
    refine List.filter_eq_nil_iff.mpr fun c hc => ?_
    rw [queuedCalls_unpinned (List.mem_of_mem_filter hc)]
    simp
  rw [Assignment.encodedPins, Assignment.encoded, calls_eq fit, List.filter_append,
    List.filter_append, kept, dropped, List.append_nil]

/-- Sequential runs encode for different places exactly if the pinned brigades among those
that are encoded have different ids. -/
theorem encoded_nodup_iff (fit : pins.Fit t) (encode : SlotEncoder) :
    (((Assignment.sequential t pins brigades).encoded t encode).map EncodeCall.target).Nodup ↔
      ((Assignment.sequential t pins brigades).encodedPins t pins encode).Nodup := by
  obtain ⟨distinct, -, apart⟩ := queued_places fit
  have back : (((queuedCalls t pins brigades).filter fun c => (encode c).isOk).map
      EncodeCall.target).Sublist
        (((free t pins brigades).zip (queue pins brigades)).map (·.1)) := by
    rw [← EncodeCall.atPlaces_target t (fixed pins brigades).length]
    exact List.filter_sublist.map _
  have front {c : EncodeCall}
      (hc : c ∈ (pinnedCalls t pins brigades).filter fun c => (encode c).isOk) :=
    pinnedCalls_target (List.mem_of_mem_filter hc)
  rw [encodedPins_eq fit, ← nodup_targets_iff_nodup_ids fit fun c hc => front hc,
    Assignment.encoded, calls_eq fit, List.filter_append, List.map_append, List.nodup_append]
  refine ⟨fun h => h.1, fun h => ⟨h, distinct.sublist back, ?_⟩⟩
  rintro p hp q hq rfl
  obtain ⟨c, hc, rfl⟩ := List.mem_map.mp hp
  obtain ⟨fixed, atPin⟩ := front hc
  exact apart c.brigade fixed (atPin ▸ back.mem hq)

end Sequential

/-- **When slots are given out twice.** Take pins that the topology has accepted and an
encoder that keeps to the slot it is given. In the plan of a run, the snapshots of each node
have different addresses exactly if the run is mirrored, or the pinned brigades that it
encodes have different ids: nothing else lets two brigades have one slot. -/
theorem buildPlan_slots_nodup_iff {given : Pins} {ids : List String}
    (accepted : (t.checkPins given ids).result = .ok pins) (realmFingerprint : String)
    (mode : PlacementMode) (policy : PlacementPolicy) {encode : SlotEncoder}
    (keeps : ∀ c s, encode c = .ok s → s.address = c.slot) {plan : RestorePlan}
    (run : (buildPlan t realmFingerprint ⟨mode, policy, pins⟩ encode brigades).result = .ok plan) :
    (∀ entry ∈ plan.nodes, (entry.snapshots.map (·.address)).Nodup) ↔
      (mode = .sequential →
        ((Assignment.make t mode policy pins brigades).encodedPins t pins encode).Nodup) := by
  have fit : pins.Fit t := (Topology.checkPins_ok_iff.mp accepted).2
  have served : plan = .serving t realmFingerprint fun k _ =>
      EncodeCall.gained encode k ((Assignment.make t mode policy pins brigades).calls t) := by
    rw [buildPlan_result] at run
    dsimp only at run
    split at run
    · cases run
    · exact (Except.ok.inj run).symm
  rw [served, RestorePlan.addresses_nodup_iff keeps (Assignment.make_places_lt fit mode policy)]
  cases mode with
  | mirrored => exact iff_of_true (Mirrored.encoded_nodup policy encode) nofun
  | sequential =>
    exact (Sequential.encoded_nodup_iff fit encode).trans ⟨fun h _ => h, fun h => h rfl⟩

/-- Two brigades with one id and a pin, of which only the second can be encoded. -/
theorem buildPlan_slots_nodup_of_failed :
    let a (d : UInt8) : Ipv4 := ⟨10, 0, 0, d⟩
    let t : Topology := ⟨"r", [⟨"n0", default, [a 5, a 6]⟩]⟩
    let given : Pins := .ofList [("y", a 6)]
    let brigades : List Brigade := [.named "y" (a 5), .named "x" (a 9), .named "y" (a 6)]
    let encode : SlotEncoder := fun c => if c.ordinal = 0 then .error (.encoding "") else .ok c.stub
    let plan : RestorePlan :=
      ⟨"r", "f", [⟨"n0", [⟨"y", a 6, [""], "", ""⟩, ⟨"x", a 5, [""], "", ""⟩]⟩]⟩
    (t.checkPins given ["x", "y"]).result = .ok ⟨given⟩ ∧
      (∀ c s, encode c = .ok s → s.address = c.slot) ∧
      (buildPlan t "f" ⟨.sequential, .fatal, ⟨given⟩⟩ encode brigades).result = .ok plan ∧
      ∀ entry ∈ plan.nodes, (entry.snapshots.map (·.address)).Nodup := by
  intro a t given brigades encode plan
  have accepted : (t.checkPins given ["x", "y"]).result = .ok ⟨given⟩ := by decide
  have keeps : ∀ c s, encode c = .ok s → s.address = c.slot := by
    intro c s given
    simp only [encode] at given
    split at given
    · cases given
    · cases given
      rfl
  have run :
      (buildPlan t "f" ⟨.sequential, .fatal, ⟨given⟩⟩ encode brigades).result = .ok plan := by
    decide
  refine ⟨accepted, keeps, run, ?_⟩
  exact (buildPlan_slots_nodup_iff accepted "f" .sequential .fatal keeps run).mpr fun _ => by decide

/-- Two brigades with one id and a pin, both encoded for it: the slot is given out twice. -/
theorem buildPlan_slot_given_twice :
    let a (d : UInt8) : Ipv4 := ⟨10, 0, 0, d⟩
    let t : Topology := ⟨"r", [⟨"n0", default, [a 5, a 6]⟩]⟩
    let given : Pins := .ofList [("y", a 6)]
    let brigades : List Brigade := [.named "y" (a 5), .named "y" (a 6)]
    let plan : RestorePlan :=
      ⟨"r", "f", [⟨"n0", [⟨"y", a 6, [""], "", ""⟩, ⟨"y", a 6, [""], "", ""⟩]⟩]⟩
    (t.checkPins given ["y"]).result = .ok ⟨given⟩ ∧
      (buildPlan t "f" ⟨.sequential, .fatal, ⟨given⟩⟩ (fun c => .ok c.stub) brigades).result =
        .ok plan ∧
      ¬ ∀ entry ∈ plan.nodes, (entry.snapshots.map (·.address)).Nodup := by
  decide

end

end Rehoming
