import Rehoming.Proofs.Placement.Contents
import Rehoming.Proofs.Sequences

/-! Whether a whole plan serves an address twice. Slots belong to nodes: where two nodes declare
one address, each has a slot for it, and a sequential run fills both. Main statement: brigades
with different ids share an address only on different nodes that declare it, and never in a
mirrored run; and where a pinned brigade stands, nobody else gets its address. -/

namespace Rehoming

/-! ## Nodes and their addresses -/

/-- No address is declared by two nodes. -/
def Topology.Apart (t : Topology) : Prop :=
  t.nodes.Pairwise fun n m => ∀ address ∈ n.slots, address ∉ m.slots

theorem Topology.Apart.node_eq {t : Topology} (apart : t.Apart) {k j : Nat} {address : Ipv4}
    (hk : (k, address) ∈ t.slots) (hj : (j, address) ∈ t.slots) : k = j := by
  obtain ⟨n, hn, here⟩ := mem_slots_iff.mp hk
  obtain ⟨m, hm, there⟩ := mem_slots_iff.mp hj
  obtain ⟨ltk, rfl⟩ := List.getElem?_eq_some_iff.mp hn
  obtain ⟨ltj, rfl⟩ := List.getElem?_eq_some_iff.mp hm
  have differ := List.pairwise_iff_getElem.mp apart
  rcases Nat.lt_trichotomy k j with before | same | after
  · exact absurd there (differ k j ltk ltj before address here)
  · exact same
  · exact absurd here (differ j k ltj ltk after address there)

theorem Topology.FirstAt.node_eq {t : Topology} {address : Ipv4} {k j : Nat}
    (hk : t.FirstAt address k) (hj : t.FirstAt address j) : k = j := by
  rw [← locate_eq_some_iff] at hk hj
  exact Option.some.inj (hk.symm.trans hj)

/-- Calls for different places are for different slots, if a slot tells its node. -/
theorem EncodeCall.slots_nodup {calls : List EncodeCall} (distinct : (calls.map target).Nodup)
    (known : ∀ c ∈ calls, ∀ d ∈ calls, c.slot = d.slot → c.node = d.node) :
    (calls.map (·.slot)).Nodup := by
  rw [List.Nodup, List.pairwise_map] at distinct ⊢
  refine distinct.imp_of_mem fun {c d} hc hd apart same => ?_
  exact apart (Prod.ext (known c hc d hd same) same)

/-! ## Calls that are answered -/

variable {t : Topology} {pins : CheckedPins} {brigades : List Brigade} {encode : SlotEncoder}

theorem Assignment.mem_of_mem_encoded {a : Assignment} {c : EncodeCall}
    (h : c ∈ a.encoded t encode) : c ∈ a.calls t := List.mem_of_mem_filter h

theorem EncodeCall.atPlaces_brigade (t : Topology) (first : Nat)
    (places : List ((Nat × Ipv4) × Brigade)) :
    (atPlaces t first places).map (·.brigade) = places.map (·.2) := by
  rw [atPlaces, List.map_map]
  conv_rhs => rw [← List.zipIdx_map_fst first places, List.map_map]
  rfl

theorem Sequential.pinnedCalls_brigade (t : Topology) (pins : CheckedPins)
    (brigades : List Brigade) :
    (pinnedCalls t pins brigades).map (·.brigade) = fixed pins brigades := by
  rw [pinnedCalls, EncodeCall.atPlaces_brigade, List.map_map]
  exact List.map_id _

/-- Brigades with different ids are encoded for different places. -/
theorem Assignment.encoded_nodup (fit : pins.Fit t) (unique : (brigades.map (·.id)).Nodup)
    (mode : PlacementMode) (policy : PlacementPolicy) :
    (((make t mode policy pins brigades).encoded t encode).map EncodeCall.target).Nodup := by
  cases mode with
  | mirrored => exact Mirrored.encoded_nodup policy encode
  | sequential =>
    refine (Sequential.encoded_nodup_iff fit encode).mpr ?_
    rw [Sequential.encodedPins_eq fit]
    have pinned : ((Sequential.pinnedCalls t pins brigades).map (·.brigade.id)).Nodup := by
      have ids := congrArg (List.map (·.id)) (Sequential.pinnedCalls_brigade t pins brigades)
      rw [List.map_map] at ids
      exact ids ▸ unique.sublist (List.filter_sublist.map _)
    exact pinned.sublist (List.filter_sublist.map _)

/-- A slot tells its node in a mirrored run, and where no two nodes declare one address. -/
theorem Assignment.encoded_slots_nodup (fit : pins.Fit t) (unique : (brigades.map (·.id)).Nodup)
    {mode : PlacementMode} (policy : PlacementPolicy) (known : mode = .mirrored ∨ t.Apart) :
    (((make t mode policy pins brigades).encoded t encode).map (·.slot)).Nodup := by
  refine EncodeCall.slots_nodup (encoded_nodup fit unique mode policy) fun c hc d hd same => ?_
  have called := mem_of_mem_encoded hc
  have called' := mem_of_mem_encoded hd
  rcases known with rfl | apart
  · have first {c : EncodeCall} (h : c ∈ (make t .mirrored policy pins brigades).calls t) :
        t.FirstAt c.slot c.node := mirrored_places_first [] brigades c.target (place_mem h)
    exact (first called).node_eq (same ▸ first called')
  · have here : (c.node, c.slot) ∈ t.slots := call_target_mem called
    exact apart.node_eq here (same ▸ call_target_mem called')

/-! ## Whole plans -/

/-- The addresses that a plan serves, on all nodes. -/
def RestorePlan.addresses (p : RestorePlan) : List Ipv4 := p.snapshots.map (·.address)

/-- Each entry stands for a node of its own, and serves addresses of that node, none of
them twice. Entries stand in the order of the nodes. -/
def RestorePlan.ServesSlots (t : Topology) (p : RestorePlan) : Prop :=
  ∃ nodes, nodes.Sublist t.nodes ∧
    List.Forall₂ (fun (n : Node) (entry : PlannedNode) => entry.controlIp = n.controlIp ∧
      (∀ s ∈ entry.snapshots, s.address ∈ n.slots) ∧ (entry.snapshots.map (·.address)).Nodup)
      nodes p.nodes

theorem RestorePlan.servesSlots_serving {realmFingerprint : String}
    (keeps : ∀ c s, encode c = .ok s → s.address = c.slot) {a : Assignment}
    (declared : ∀ c ∈ a.calls t, c.target ∈ t.slots)
    (distinct : ((a.encoded t encode).map EncodeCall.target).Nodup) :
    (serving t realmFingerprint fun k _ => EncodeCall.gained encode k (a.calls t)).ServesSlots
      t := by
  have bound : ∀ c ∈ a.encoded t encode, c.node < t.nodes.length := fun c hc =>
    Sequential.mem_slots_lt (declared c (Assignment.mem_of_mem_encoded hc))
  have same : List.Forall₂ Eq t.nodes t.nodes := List.forall₂_same.mpr fun _ _ => rfl
  refine forall₂_filter _ ?_
  rw [List.forall₂_map_right_iff]
  refine (forall₂_zipIdx same).imp ?_
  rintro n ⟨_, k⟩ ⟨rfl, there⟩
  refine ⟨rfl, fun s hs => ?_, ?_⟩
  · obtain ⟨c, hc, rfl, encoded⟩ := EncodeCall.exists_of_mem_gained hs
    obtain ⟨m, hm, slot⟩ := Topology.mem_slots_iff.mp (declared c hc)
    obtain rfl : m = n := Option.some.inj (hm.symm.trans there)
    exact keeps c s encoded ▸ slot
  · rw [EncodeCall.addresses_gained keeps]
    exact (EncodeCall.nodup_target_iff bound).mp distinct k
      (List.getElem?_eq_some_iff.mp there).1

/-- Where a pinned brigade stands, its address is handed out for this brigade alone. -/
theorem Sequential.brigade_eq_of_pin (fit : pins.Fit t) (unique : (brigades.map (·.id)).Nodup)
    {c : EncodeCall} (hc : c ∈ (Assignment.sequential t pins brigades).calls t) {b : Brigade}
    (hb : b ∈ brigades) (pin : pins.get? b.id = some c.slot) (first : t.FirstAt c.slot c.node) :
    c.brigade = b := by
  rw [calls_eq fit] at hc
  rcases List.mem_append.mp hc with hc | hc
  · obtain ⟨fixed, atPin⟩ := pinnedCalls_target hc
    have slot : c.slot = pins.target c.brigade := congrArg (·.2) atPin
    have same : c.brigade.id = b.id := fit.get?_inj (slot ▸ target_of_fixed fixed) pin
    exact List.inj_on_of_nodup_map unique (List.mem_of_mem_filter fixed) hb same
  · have fixed : b ∈ fixed pins brigades := List.mem_filter.mpr ⟨hb, by rw [pin]; rfl⟩
    have slot : pins.target b = c.slot := by rw [CheckedPins.target, pin]; rfl
    have taken : c.target ∈ ((free t pins brigades).zip (queue pins brigades)).map (·.1) := by
      rw [← EncodeCall.atPlaces_target t (Sequential.fixed pins brigades).length]
      exact List.mem_map_of_mem hc
    refine absurd taken ?_
    rw [show c.target = t.home (pins.target b) by
      rw [slot, Topology.home_eq first, EncodeCall.target]]
    exact (queued_places fit).2.2 b fixed

/-- **Who serves an address.** Take brigades with different ids, pins that the topology has
accepted, and an encoder that keeps to the slot it is given. In the plan of a run each node
serves its own addresses, none of them twice; so an address that is served twice is declared by
both of the nodes that serve it. All addresses of the plan differ if the run is mirrored, or if
no two nodes declare one address. And a sequential run hands out the address of a pin, on the
first node that has it, to nobody but the pinned brigade. -/
theorem buildPlan_addresses_nodup {given : Pins} {ids : List String}
    (accepted : (t.checkPins given ids).result = .ok pins)
    (unique : (brigades.map (·.id)).Nodup) (realmFingerprint : String)
    (mode : PlacementMode) (policy : PlacementPolicy)
    (keeps : ∀ c s, encode c = .ok s → s.address = c.slot) {plan : RestorePlan}
    (run : (buildPlan t realmFingerprint ⟨mode, policy, pins⟩ encode brigades).result = .ok plan) :
    plan.ServesSlots t ∧ (mode = .mirrored ∨ t.Apart → plan.addresses.Nodup) ∧
      (mode = .sequential → ∀ c ∈ (Assignment.make t mode policy pins brigades).calls t,
        ∀ b ∈ brigades, pins.get? b.id = some c.slot → t.FirstAt c.slot c.node →
          c.brigade = b) := by
  have fit : pins.Fit t := (Topology.checkPins_ok_iff.mp accepted).2
  obtain ⟨-, served⟩ := buildPlan_ok_iff.mp run
  refine ⟨?_, fun known => ?_, ?_⟩
  · rw [served]
    exact RestorePlan.servesSlots_serving keeps (fun c hc => Assignment.call_target_mem hc)
      (Assignment.encoded_nodup fit unique mode policy)
  · have all := (buildPlan_snapshots_perm run).map PreparedSnapshot.address
    rw [EncodeCall.map_gained keeps] at all
    exact all.nodup_iff.mpr (Assignment.encoded_slots_nodup fit unique policy known)
  · rintro rfl c hc b hb
    exact Sequential.brigade_eq_of_pin fit unique hc hb

/-- Two nodes that have two addresses in common, and a pin on one of these. -/
theorem buildPlan_addresses_nodup_overlapping :
    let a (d : UInt8) : Ipv4 := ⟨10, 0, 0, d⟩
    let t : Topology := ⟨"r", [⟨"n0", default, [a 5, a 6]⟩, ⟨"n1", default, [a 6, a 5, a 7]⟩]⟩
    let given : Pins := .ofList [("y", a 6)]
    let brigades : List Brigade := [.named "x" (a 5), .named "y" (a 9), .named "z" (a 7)]
    let result (mode : PlacementMode) :=
      (buildPlan t "f" ⟨mode, .fatal, ⟨given⟩⟩ (fun c => .ok c.stub) brigades).result
    let filled : RestorePlan :=
      ⟨"r", "f", [⟨"n0", [⟨"y", a 6, [""], "", ""⟩, ⟨"x", a 5, [""], "", ""⟩]⟩,
        ⟨"n1", [⟨"z", a 6, [""], "", ""⟩]⟩]⟩
    let kept : RestorePlan :=
      ⟨"r", "f", [⟨"n0", [⟨"x", a 5, [""], "", ""⟩, ⟨"y", a 6, [""], "", ""⟩]⟩,
        ⟨"n1", [⟨"z", a 7, [""], "", ""⟩]⟩]⟩
    (t.checkPins given ["x", "y", "z"]).result = .ok ⟨given⟩ ∧ (brigades.map (·.id)).Nodup ∧
      result .sequential = .ok filled ∧ filled.ServesSlots t ∧
      result .mirrored = .ok kept ∧ kept.addresses.Nodup := by
  intro a t given brigades result filled kept
  have accepted : (t.checkPins given ["x", "y", "z"]).result = .ok ⟨given⟩ := by decide
  have unique : (brigades.map (·.id)).Nodup := by decide
  have keeps : ∀ c s, (Except.ok (EncodeCall.stub c) : Except Error _) = .ok s →
      s.address = c.slot := by
    rintro c s ⟨⟩
    rfl
  have filling : result .sequential = .ok filled := by decide
  have keeping : result .mirrored = .ok kept := by decide
  exact ⟨accepted, unique, filling,
    (buildPlan_addresses_nodup accepted unique "f" .sequential .fatal keeps filling).1, keeping,
    (buildPlan_addresses_nodup accepted unique "f" .mirrored .fatal keeps keeping).2.1 (.inl rfl)⟩

/-- Two nodes that declare one address: a sequential run serves it on both, although a brigade
is pinned to it and another slot is free. -/
theorem buildPlan_address_served_twice :
    let a (d : UInt8) : Ipv4 := ⟨10, 0, 0, d⟩
    let t : Topology := ⟨"r-1", [⟨"n0", default, [a 5]⟩, ⟨"n1", default, [a 5, a 6]⟩]⟩
    let given : Pins := .ofList [("b1", a 5)]
    let brigades : List Brigade := [.named "b1" (a 8), .named "b2" (a 9)]
    let plan : RestorePlan :=
      ⟨"r-1", "f", [⟨"n0", [⟨"b1", a 5, [""], "", ""⟩]⟩, ⟨"n1", [⟨"b2", a 5, [""], "", ""⟩]⟩]⟩
    (t.checkPins given ["b1", "b2"]).result = .ok ⟨given⟩ ∧ (brigades.map (·.id)).Nodup ∧
      (∀ c : EncodeCall, c.stub.address = c.slot) ∧
      (buildPlan t "f" ⟨.sequential, .fatal, ⟨given⟩⟩ (fun c => .ok c.stub) brigades).result =
        .ok plan ∧
      ¬ plan.addresses.Nodup :=
  ⟨by decide, by decide, fun _ => rfl, by decide, by decide⟩

end Rehoming
