import Rehoming.Proofs.Placement.Addresses
import Rehoming.Proofs.Placement.Assignments

/-! A plan in terms of the calls that a run makes of its encoder. Which calls are made,
and in what order, follows from the assignment alone; the plan then holds what the
successful ones gave, node by node. -/

namespace Rehoming

/-- The brigade that a decision is about. -/
def Step.brigade : Step → Brigade
  | .place _ _ b => b
  | .refuse b _ _ => b

/-- A place for a brigade as a decision. -/
def Assignment.placeAt (p : (Nat × Ipv4) × Brigade) : Step := .place p.1.1 p.1.2 p.2

/-- The calls for brigades at their places, numbered from `first` on. -/
def EncodeCall.atPlaces (t : Topology) (first : Nat) (places : List ((Nat × Ipv4) × Brigade)) :
    List EncodeCall :=
  (places.zipIdx first).map fun p =>
    ⟨p.2, p.1.1.1, p.1.2, p.1.1.2, (t.nodes.getD p.1.1.1 default).routerKey⟩

/-- Where every decision places its brigade, each of them is a call. -/
theorem Assignment.calls_placeAt (t : Topology) (places : List ((Nat × Ipv4) × Brigade))
    (failure : Option Error) :
    (⟨places.map placeAt, failure⟩ : Assignment).calls t = EncodeCall.atPlaces t 0 places := by
  rw [calls, List.zipIdx_map, List.filterMap_map, EncodeCall.atPlaces, ← List.filterMap_eq_map]
  rfl

theorem EncodeCall.atPlaces_append (t : Topology) (first : Nat)
    (front back : List ((Nat × Ipv4) × Brigade)) :
    atPlaces t first (front ++ back) =
      atPlaces t first front ++ atPlaces t (first + front.length) back := by
  simp only [atPlaces, List.zipIdx_append, List.map_append]

/-- The calls for one node have the router key of that node. -/
theorem EncodeCall.filter_atPlaces {t : Topology} {k : Nat} {n : Node} (hn : t.nodes[k]? = some n)
    (first : Nat) (places : List ((Nat × Ipv4) × Brigade)) :
    (atPlaces t first places).filter (fun c => c.node = k) =
      (places.zipIdx first).filterMap fun p =>
        if p.1.1.1 = k then some ⟨p.2, k, p.1.2, p.1.1.2, n.routerKey⟩ else none := by
  rw [atPlaces, ← List.filterMap_eq_map, ← List.filterMap_eq_filter, List.filterMap_filterMap]
  refine List.filterMap_congr fun p _ => ?_
  by_cases hp : p.1.1.1 = k
  · subst hp
    simp [Option.guard, hn]
  · simp [Option.guard, hp]

/-- Where each brigade goes to the home of its address, a node's calls are for those whose
address it is the first to have. -/
theorem EncodeCall.filter_atPlaces_home {t : Topology} {k : Nat} {n : Node}
    (hn : t.nodes[k]? = some n) {address : Brigade → Ipv4} {brigades : List Brigade}
    (declared : ∀ b ∈ brigades, t.Declares (address b)) :
    (atPlaces t 0 (brigades.map fun b => (t.home (address b), b))).filter (fun c => c.node = k) =
      brigades.zipIdx.filterMap fun b =>
        if t.FirstAt (address b.1) k then some ⟨b.2, k, b.1, address b.1, n.routerKey⟩
        else none := by
  rw [filter_atPlaces hn, List.zipIdx_map, List.filterMap_map]
  refine List.filterMap_congr fun b hb => ?_
  have there := declared b.1 (List.fst_mem_of_mem_zipIdx hb)
  by_cases first : t.FirstAt (address b.1) k
  · simp [first, Topology.home_eq first]
  · simp [first, mt (Topology.home_fst_eq_iff there).mp first]

theorem EncodeCall.exists_of_mem_gained {encode : SlotEncoder} {node : Nat}
    {calls : List EncodeCall} {s : PreparedSnapshot} (h : s ∈ gained encode node calls) :
    ∃ c ∈ calls, c.node = node ∧ encode c = .ok s := by
  obtain ⟨c, hc, given⟩ := List.mem_filterMap.mp h
  refine ⟨c, hc, ?_⟩
  split at given
  · rename_i here
    cases encoded : encode c with
    | error e =>
      rw [encoded] at given
      cases given
    | ok s' =>
      rw [encoded] at given
      cases given
      exact ⟨here, rfl⟩
  · cases given

/-- A run fails exactly where its assignment does; otherwise its plan holds what the
calls of the assignment gave. -/
theorem buildPlan_result (t : Topology) (realmFingerprint : String) (options : PlanOptions)
    (encode : SlotEncoder) (brigades : List Brigade) :
    (buildPlan t realmFingerprint options encode brigades).result =
      let a := Assignment.make t options.mode options.policy options.pins brigades
      match a.failure with
      | some e => .error e
      | none =>
        .ok (.serving t realmFingerprint fun k _ => EncodeCall.gained encode k (a.calls t)) := by
  rw [buildPlan, Progress.plan_eq]
  dsimp only
  cases (Assignment.make t options.mode options.policy options.pins brigades).failure <;> rfl

/-- A run makes a plan exactly if it places all its brigades. -/
theorem buildPlan_ok_iff {t : Topology} {realmFingerprint : String} {options : PlanOptions}
    {encode : SlotEncoder} {brigades : List Brigade} {plan : RestorePlan} :
    (buildPlan t realmFingerprint options encode brigades).result = .ok plan ↔
      (Assignment.make t options.mode options.policy options.pins brigades).failure = none ∧
        plan = .serving t realmFingerprint fun k _ => EncodeCall.gained encode k
          ((Assignment.make t options.mode options.policy options.pins brigades).calls t) := by
  rw [buildPlan_result]
  dsimp only
  split
  · rename_i e failed
    simp [failed]
  · rename_i done
    simp [done, eq_comm]

/-- A run fails exactly if its assignment does. -/
theorem buildPlan_error_iff {t : Topology} {realmFingerprint : String} {options : PlanOptions}
    {encode : SlotEncoder} {brigades : List Brigade} {e : Error} :
    (buildPlan t realmFingerprint options encode brigades).result = .error e ↔
      (Assignment.make t options.mode options.policy options.pins brigades).failure = some e := by
  rw [buildPlan_result]
  dsimp only
  split
  · rename_i e' failed
    simp [failed]
  · rename_i done
    simp [done]

/-- Two ways to serve the nodes give the same plan if they agree on each node. -/
theorem RestorePlan.serving_congr {t : Topology} {realmFingerprint : String}
    {served other : Nat → Node → List PreparedSnapshot}
    (h : ∀ k n, t.nodes[k]? = some n → served k n = other k n) :
    serving t realmFingerprint served = serving t realmFingerprint other := by
  have same : (t.nodes.zipIdx.map fun n => (⟨n.1.controlIp, served n.2 n.1⟩ : PlannedNode)) =
      t.nodes.zipIdx.map fun n => ⟨n.1.controlIp, other n.2 n.1⟩ := by
    refine List.map_congr_left fun n hn => ?_
    rw [h n.2 n.1 (List.mem_zipIdx_iff_getElem?.mp hn)]
  rw [serving, serving, same]

/-- With an encoder that never fails, a node gains what its calls are encoded to. -/
theorem EncodeCall.gained_ok (encoded : EncodeCall → PreparedSnapshot) (node : Nat)
    (calls : List EncodeCall) :
    gained (fun c => .ok (encoded c)) node calls =
      (calls.filter fun c => c.node = node).map encoded := by
  rw [gained, ← List.filterMap_eq_map, List.filterMap_filter]
  exact List.filterMap_congr fun c _ => by by_cases h : c.node = node <;> simp [h, Except.toOption]

/-! ## Small runs -/

/-- A brigade of which only the id and the address matter. -/
def Brigade.named (id : String) (address : Ipv4) : Brigade :=
  { (default : Brigade) with id, address }

/-- A snapshot that says no more than which brigade has come to which slot. -/
def EncodeCall.stub (c : EncodeCall) : PreparedSnapshot :=
  ⟨c.brigade.id, c.slot, c.brigade.domainNames, "", ""⟩

end Rehoming
