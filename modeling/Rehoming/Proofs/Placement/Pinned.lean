import Rehoming.Proofs.Placement.Accounting
import Rehoming.Proofs.Placement.AcrossNodes

/-! Whether accepted pins are honoured. Each pin's place is given out exactly once, and to the
pinned brigade. Main statement: the one exception is a mirrored run that skips misfits. It takes
brigades as they come, so one without a pin that is already at the address can come first; then
the pinned brigade is reported and left out. -/

namespace Rehoming

/-! ## Decisions and calls -/

/-- What is drawn from a list, one value from an element at most, keeps the order of the list. -/
theorem filterMap_map_sublist {α β γ : Type} {g : α → Option β} {f : β → γ} {h : α → γ}
    (agree : ∀ x y, g x = some y → f y = h x) (xs : List α) :
    ((xs.filterMap g).map f).Sublist (xs.map h) := by
  induction xs with
  | nil => exact .slnil
  | cons x xs ih =>
    cases drawn : g x with
    | none =>
      rw [List.filterMap_cons_none drawn, List.map_cons]
      exact ih.cons _
    | some y =>
      rw [List.filterMap_cons_some drawn, List.map_cons, List.map_cons, agree x y drawn]
      exact ih.cons_cons _

/-- Where all keys differ, an element is the only one with its key. -/
theorem filter_eq_singleton {α β : Type} [DecidableEq β] {key : α → β} {xs : List α}
    (distinct : (xs.map key).Nodup) {x : α} (hx : x ∈ xs) :
    xs.filter (fun y => key y = key x) = [x] := by
  induction xs with
  | nil => cases hx
  | cons y ys ih =>
    obtain ⟨fresh, distinct⟩ := List.nodup_cons.mp distinct
    rcases List.mem_cons.mp hx with rfl | hx
    · have none : ys.filter (fun y => key y = key x) = [] := by
        refine List.filter_eq_nil_iff.mpr fun z hz same => ?_
        exact fresh (of_decide_eq_true same ▸ List.mem_map_of_mem hz)
      rw [List.filter_cons, if_pos (decide_eq_true rfl), none]
    · have other : key y ≠ key x := fun same => fresh (same ▸ List.mem_map_of_mem hx)
      rw [List.filter_cons, if_neg (mt of_decide_eq_true other), ih distinct hx]

namespace Assignment

variable {t : Topology} {a : Assignment}

theorem exists_call {node : Nat} {slot : Ipv4} {b : Brigade}
    (h : .place node slot b ∈ a.steps) :
    ∃ c ∈ a.calls t, c.brigade = b ∧ c.node = node ∧ c.slot = slot := by
  obtain ⟨i, hi⟩ := List.mem_iff_getElem?.mp h
  have numbered : (Step.place node slot b, i) ∈ a.steps.zipIdx :=
    List.mem_zipIdx_iff_getElem?.mpr hi
  exact ⟨_, List.mem_filterMap.mpr ⟨_, numbered, rfl⟩, rfl, rfl, rfl⟩

theorem exists_step {c : EncodeCall} (h : c ∈ a.calls t) :
    .place c.node c.slot c.brigade ∈ a.steps := by
  obtain ⟨⟨step, ordinal⟩, there, called⟩ := List.mem_filterMap.mp h
  cases step with
  | refuse b address e => cases called
  | place node slot b =>
    cases called
    exact List.fst_mem_of_mem_zipIdx there

/-- A run calls its encoder once for a brigade at most. -/
theorem calls_ids_nodup (unique : (a.steps.map (·.brigade.id)).Nodup) :
    ((a.calls t).map (·.brigade.id)).Nodup := by
  have drawn : ((a.calls t).map (·.brigade.id)).Sublist
      (a.steps.zipIdx.map fun s => s.1.brigade.id) := by
    refine filterMap_map_sublist ?_ _
    rintro ⟨step, ordinal⟩ c called
    cases step with
    | refuse b address e => cases called
    | place node slot b =>
      cases called
      rfl
  have numbered : (a.steps.zipIdx.map fun s => s.1.brigade.id) = a.steps.map (·.brigade.id) := by
    conv_rhs => rw [← List.zipIdx_map_fst 0 a.steps, List.map_map]
    rfl
  exact unique.sublist (numbered ▸ drawn)

/-- The encoder is not called for a brigade that was refused. -/
theorem filter_calls_of_refused (unique : (a.steps.map (·.brigade.id)).Nodup) {b : Brigade}
    {address : Ipv4} {e : Error} (refused : .refuse b address e ∈ a.steps) :
    (a.calls t).filter (fun c => c.brigade.id = b.id) = [] := by
  refine List.filter_eq_nil_iff.mpr fun c hc same => ?_
  have other := List.inj_on_of_nodup_map unique (exists_step hc) refused (of_decide_eq_true same)
  cases other

end Assignment

/-! ## Mirrored runs, brigade by brigade -/

namespace Mirrored

variable {t : Topology} {pins : CheckedPins} {policy : PlacementPolicy}

/-- The places that a mirrored run has given out. -/
def taken (t : Topology) (pins : CheckedPins) (policy : PlacementPolicy)
    (used : List (Nat × Ipv4)) (brigades : List Brigade) : List (Nat × Ipv4) :=
  (Assignment.mirrored t pins policy used brigades).steps.filterMap Step.place?

/-- A run that completes has completed for the brigades in front, and goes on for the others
with the places taken. -/
theorem mirrored_append_of_complete {used : List (Nat × Ipv4)} {front rest : List Brigade}
    (done : (Assignment.mirrored t pins policy used (front ++ rest)).failure = none) :
    let more := Assignment.mirrored t pins policy
      ((taken t pins policy used front).reverse ++ used) rest
    (Assignment.mirrored t pins policy used front).failure = none ∧ more.failure = none ∧
      (Assignment.mirrored t pins policy used (front ++ rest)).steps =
        (Assignment.mirrored t pins policy used front).steps ++ more.steps := by
  induction front generalizing used with
  | nil => exact ⟨rfl, done, rfl⟩
  | cons b front ih =>
    simp only [taken, List.cons_append, Assignment.mirrored] at done ih ⊢
    cases found : t.findFree used b.id (pins.target b) with
    | ok node =>
      simp only [found, Assignment.push] at done ⊢
      obtain ⟨first, more, steps⟩ := ih done
      simp only [List.filterMap_cons, Step.place?, List.reverse_cons, List.append_assoc,
        List.cons_append, List.nil_append] at more ⊢
      exact ⟨first, more, congrArg (_ :: ·) steps⟩
    | error e =>
      cases policy with
      | fatal =>
        simp only [found] at done
        cases done
      | skip =>
        simp only [found, Assignment.push] at done ⊢
        obtain ⟨first, more, steps⟩ := ih done
        simp only [List.filterMap_cons, Step.place?] at more ⊢
        exact ⟨first, more, congrArg (_ :: ·) steps⟩

/-- Who has a place has it as the target. -/
theorem exists_taker {used : List (Nat × Ipv4)} {brigades : List Brigade} {p : Nat × Ipv4}
    (h : p ∈ taken t pins policy used brigades) : ∃ b ∈ brigades, pins.target b = p.2 := by
  induction brigades generalizing used with
  | nil => cases h
  | cons b rest ih =>
    have behind {used : List (Nat × Ipv4)} (h : p ∈ taken t pins policy used rest) :
        ∃ c ∈ b :: rest, pins.target c = p.2 := by
      obtain ⟨c, hc, same⟩ := ih h
      exact ⟨c, List.mem_cons_of_mem _ hc, same⟩
    rw [taken, Assignment.mirrored] at h
    split at h
    · rw [Assignment.push, List.filterMap_cons, Step.place?] at h
      rcases List.mem_cons.mp h with rfl | h
      · exact ⟨b, List.mem_cons_self, rfl⟩
      · exact behind h
    · cases policy with
      | skip => exact behind h
      | fatal => cases h

/-- What a run that completes has decided about a brigade: it has its target, unless that was
taken by then. -/
theorem decision {front back : List Brigade} {b : Brigade} {k : Nat}
    (done : (Assignment.mirrored t pins policy [] (front ++ b :: back)).failure = none)
    (first : t.FirstAt (pins.target b) k) :
    let steps := (Assignment.mirrored t pins policy [] (front ++ b :: back)).steps
    if (k, pins.target b) ∈ taken t pins policy [] front then
      policy = .skip ∧
        .refuse b (pins.target b) (.mirroredDuplicated (pins.target b) b.id) ∈ steps
    else .place k (pins.target b) b ∈ steps := by
  intro steps
  obtain ⟨-, more, split⟩ := mirrored_append_of_complete done
  rw [List.append_nil] at more split
  have own : steps = _ := split
  by_cases before : (k, pins.target b) ∈ taken t pins policy [] front
  · have refused : t.findFree (taken t pins policy [] front).reverse b.id
        (pins.target b) = .error (.mirroredDuplicated (pins.target b) b.id) := by
      simp only [Topology.findFree, Topology.locate_eq_some_iff.mpr first]
      rw [if_pos (List.contains_iff_mem.mpr (List.mem_reverse.mpr before))]
    rw [if_pos before, own]
    cases policy with
    | fatal =>
      simp only [Assignment.mirrored, refused] at more
      cases more
    | skip =>
      refine ⟨rfl, List.mem_append_right _ ?_⟩
      simp only [Assignment.mirrored, refused, Assignment.push]
      exact List.mem_cons_self
  · have free : t.findFree (taken t pins policy [] front).reverse b.id
        (pins.target b) = .ok k := by
      simp only [Topology.findFree, Topology.locate_eq_some_iff.mpr first]
      rw [if_neg (mt List.contains_iff_mem.mp (mt List.mem_reverse.mp before))]
    rw [if_neg before, own]
    refine List.mem_append_right _ ?_
    simp only [Assignment.mirrored, free, Assignment.push]
    exact List.mem_cons_self

end Mirrored

/-! ## Pinned brigades -/

/-- A brigade without a pin that is at the address already, and comes before the brigade that is
pinned to it. The run is one that takes brigades as they come and goes on without misfits. -/
structure Forestalls (mode : PlacementMode) (policy : PlacementPolicy) (pins : CheckedPins)
    (brigades : List Brigade) (b : Brigade) (pin : Ipv4) (other : Brigade) : Prop where
  mirrored : mode = .mirrored
  skip : policy = .skip
  unpinned : pins.get? other.id = none
  there : other.address = pin
  /-- It is the first such brigade. -/
  earlier : ∃ before between after, brigades = before ++ other :: (between ++ b :: after) ∧
    ∀ c ∈ before, pins.get? c.id = none → c.address ≠ pin

namespace Mirrored

variable {t : Topology} {pins : CheckedPins} {policy : PlacementPolicy} {brigades : List Brigade}
  {b : Brigade} {pin : Ipv4} {k : Nat}

theorem target_of_pin (pinned : pins.get? b.id = some pin) : pins.target b = pin := by
  rw [CheckedPins.target, pinned, Option.getD_some]

theorem target_of_unpinned (unpinned : pins.get? b.id = none) : pins.target b = b.address := by
  rw [CheckedPins.target, unpinned, Option.getD_none]

/-- In front of a pinned brigade, only brigades without a pin have its pin as their target. -/
theorem unpinned_of_target (fit : pins.Fit t) {front back : List Brigade}
    (unique : ((front ++ b :: back).map (·.id)).Nodup) (pinned : pins.get? b.id = some pin)
    {c : Brigade} (hc : c ∈ front) (same : pins.target c = pin) :
    pins.get? c.id = none ∧ c.address = pin := by
  cases own : pins.get? c.id with
  | none =>
    rw [target_of_unpinned own] at same
    exact ⟨rfl, same⟩
  | some other =>
    rw [target_of_pin own] at same
    subst same
    have ids : c.id = b.id := fit.get?_inj own pinned
    rw [List.map_append, List.nodup_append] at unique
    exact absurd ids (unique.2.2 _ (List.mem_map_of_mem hc) _ List.mem_cons_self)

/-- A brigade that is not forestalled has its pin. -/
theorem place_of_pin (fit : pins.Fit t) (unique : (brigades.map (·.id)).Nodup)
    (done : (Assignment.mirrored t pins policy [] brigades).failure = none) (hb : b ∈ brigades)
    (pinned : pins.get? b.id = some pin) (first : t.FirstAt pin k)
    (free : ∀ other, ¬ Forestalls .mirrored policy pins brigades b pin other) :
    .place k pin b ∈ (Assignment.mirrored t pins policy [] brigades).steps := by
  obtain ⟨front, back, rfl⟩ := List.append_of_mem hb
  have own := target_of_pin pinned
  have decided := decision done (own.symm ▸ first)
  rw [own] at decided
  by_cases gone : (k, pin) ∈ taken t pins policy [] front
  · rw [if_pos gone] at decided
    obtain ⟨c, hc, same⟩ := exists_taker gone
    obtain ⟨unpinned, there⟩ := unpinned_of_target fit unique pinned hc same
    -- of the brigades in front that are at the address, the first one forestalls
    let atPin (c : Brigade) : Bool := pins.get? c.id = none ∧ c.address = pin
    have found : (front.find? atPin).isSome = true :=
      List.find?_isSome.mpr ⟨c, hc, decide_eq_true ⟨unpinned, there⟩⟩
    obtain ⟨other, here⟩ := Option.isSome_iff_exists.mp found
    obtain ⟨holds, before, between, rfl, earlier⟩ := List.find?_eq_some_iff_append.mp here
    obtain ⟨unpinned, there⟩ := of_decide_eq_true holds
    refine absurd ⟨rfl, decided.1, unpinned, there, before, between, back, ?_, ?_⟩ (free other)
    · rw [List.append_assoc, List.cons_append]
    · intro d hd unpinned there
      have absent := earlier d hd
      simp [atPin, unpinned, there] at absent
  · rwa [if_neg gone] at decided

/-- A brigade that is forestalled is refused, and the other one is at the pin. -/
theorem refuse_of_forestalled (fit : pins.Fit t) (unique : (brigades.map (·.id)).Nodup)
    (done : (Assignment.mirrored t pins policy [] brigades).failure = none)
    (pinned : pins.get? b.id = some pin) (first : t.FirstAt pin k) {other : Brigade}
    (forestalls : Forestalls .mirrored policy pins brigades b pin other) :
    .place k pin other ∈ (Assignment.mirrored t pins policy [] brigades).steps ∧
      .refuse b pin (.mirroredDuplicated pin b.id) ∈
        (Assignment.mirrored t pins policy [] brigades).steps := by
  obtain ⟨-, -, unpinned, there, before, between, after, rfl, earlier⟩ := forestalls
  have own : pins.target other = pin := (target_of_unpinned unpinned).trans there
  have whole : before ++ other :: (between ++ b :: after) =
      (before ++ other :: between) ++ b :: after := by simp
  rw [whole] at unique done ⊢
  -- nobody before the other one is sent to the pin
  have free : (k, pin) ∉ taken t pins policy [] before := by
    intro taken
    obtain ⟨c, hc, same⟩ := exists_taker taken
    obtain ⟨none, here⟩ := unpinned_of_target fit unique pinned (List.mem_append_left _ hc) same
    exact earlier c hc none here
  obtain ⟨ahead, -, split⟩ := mirrored_append_of_complete done
  have placed := decision ahead (own.symm ▸ first)
  rw [own, if_neg free] at placed
  have gone : (k, pin) ∈ taken t pins policy [] (before ++ other :: between) :=
    List.mem_filterMap.mpr ⟨_, placed, rfl⟩
  have mine := target_of_pin pinned
  have refused := decision done (mine.symm ▸ first)
  rw [mine, if_pos gone] at refused
  refine ⟨?_, refused.2⟩
  rw [split]
  exact List.mem_append_left _ placed

end Mirrored

/-- In a sequential run pinned brigades have their pins. -/
theorem Sequential.place_of_pin {t : Topology} {pins : CheckedPins} {brigades : List Brigade}
    (fit : pins.Fit t) {b : Brigade} {pin : Ipv4} {k : Nat} (hb : b ∈ brigades)
    (pinned : pins.get? b.id = some pin) (first : t.FirstAt pin k) :
    .place k pin b ∈ (Assignment.sequential t pins brigades).steps := by
  have fixed : b ∈ fixed pins brigades := List.mem_filter.mpr ⟨hb, by rw [pinned]; rfl⟩
  have there : ((k, pin), b) ∈ places t pins brigades := by
    refine List.mem_append_left _ (List.mem_map.mpr ⟨b, fixed, ?_⟩)
    rw [Mirrored.target_of_pin pinned, Topology.home_eq first]
  rw [sequential_eq fit]
  exact List.mem_map_of_mem (f := Assignment.placeAt) there

/-! ## Whole plans -/

/-- What is reported of a brigade that is refused. -/
theorem buildPlan_reports {t : Topology} {realmFingerprint : String} {options : PlanOptions}
    {encode : SlotEncoder} {brigades : List Brigade} {plan : RestorePlan}
    (run : (buildPlan t realmFingerprint options encode brigades).result = .ok plan) {b : Brigade}
    {address : Ipv4} {e : Error} (refused : .refuse b address e ∈
      (Assignment.make t options.mode options.policy options.pins brigades).steps) :
    .notPlaced b.id address e ∈ (buildPlan t realmFingerprint options encode brigades).events := by
  obtain ⟨i, hi⟩ := List.mem_iff_getElem?.mp refused
  have numbered : (Step.refuse b address e, i) ∈ (Assignment.make t options.mode options.policy
      options.pins brigades).steps.zipIdx := List.mem_zipIdx_iff_getElem?.mpr hi
  rw [buildPlan_events run]
  refine List.mem_append_left _ (List.mem_map.mpr ⟨.refused b address e, ?_, rfl⟩)
  exact List.mem_map.mpr ⟨_, numbered, rfl⟩

variable {t : Topology} {pins : CheckedPins} {brigades : List Brigade}

/-- In a run that completes a pinned brigade has its pin, if nobody forestalls it. -/
theorem Assignment.place_of_pin (fit : pins.Fit t) (unique : (brigades.map (·.id)).Nodup)
    {mode : PlacementMode} {policy : PlacementPolicy}
    (done : (make t mode policy pins brigades).failure = none) {b : Brigade} (hb : b ∈ brigades)
    {pin : Ipv4} (pinned : pins.get? b.id = some pin) {k : Nat} (first : t.FirstAt pin k)
    (free : ∀ other, ¬ Forestalls mode policy pins brigades b pin other) :
    .place k pin b ∈ (make t mode policy pins brigades).steps := by
  cases mode with
  | mirrored => exact Mirrored.place_of_pin fit unique done hb pinned first free
  | sequential => exact Sequential.place_of_pin fit hb pinned first

/-- **Pins are honoured.** Take brigades with different ids, pins that the topology has accepted
and an encoder that never fails. In the plan of a run, the place of each pin, on the first node
that declares the address, is given out exactly once. It goes to the pinned brigade, which is
nowhere else in the plan. Only where another brigade forestalls it does that one have the place;
then the pinned brigade is reported as not placed and is not in the plan. -/
theorem buildPlan_honours_pins {given : Pins} {ids : List String}
    (accepted : (t.checkPins given ids).result = .ok pins)
    (unique : (brigades.map (·.id)).Nodup) (realmFingerprint : String) (mode : PlacementMode)
    (policy : PlacementPolicy) (encoded : EncodeCall → PreparedSnapshot) {plan : RestorePlan}
    (run : (buildPlan t realmFingerprint ⟨mode, policy, pins⟩ (fun c => .ok (encoded c))
      brigades).result = .ok plan) :
    let calls := (Assignment.make t mode policy pins brigades).calls t
    let events := (buildPlan t realmFingerprint ⟨mode, policy, pins⟩ (fun c => .ok (encoded c))
      brigades).events
    plan = .serving t realmFingerprint
        (fun k _ => (calls.filter fun c => c.node = k).map encoded) ∧
      ∀ b ∈ brigades, ∀ pin, pins.get? b.id = some pin →
        ∃ c, c.slot = pin ∧ t.FirstAt pin c.node ∧
          calls.filter (fun d => d.target = c.target) = [c] ∧
          ((∀ other, ¬ Forestalls mode policy pins brigades b pin other) →
            c.brigade = b ∧ calls.filter (fun d => d.brigade.id = b.id) = [c]) ∧
          ∀ other, Forestalls mode policy pins brigades b pin other →
            c.brigade = other ∧ calls.filter (fun d => d.brigade.id = b.id) = [] ∧
              .notPlaced b.id pin (.mirroredDuplicated pin b.id) ∈ events := by
  intro calls events
  have fit : pins.Fit t := (Topology.checkPins_ok_iff.mp accepted).2
  obtain ⟨done, served⟩ := buildPlan_ok_iff.mp run
  dsimp only at done
  -- every brigade is decided about once, and every place is given out once
  have decided : ((Assignment.make t mode policy pins brigades).steps.map
      (·.brigade.id)).Nodup := by
    have ids := (Assignment.make_brigades done).map (·.id)
    rw [List.map_map] at ids
    exact ids.nodup_iff.mpr unique
  have once : (calls.map (·.brigade.id)).Nodup := Assignment.calls_ids_nodup decided
  have apart : (calls.map EncodeCall.target).Nodup := by
    have all : (Assignment.make t mode policy pins brigades).encoded t
        (fun c => .ok (encoded c)) = calls := List.filter_true calls
    exact all ▸ Assignment.encoded_nodup fit unique mode policy
  refine ⟨?_, fun b hb pin pinned => ?_⟩
  · rw [served]
    exact RestorePlan.serving_congr fun k n _ => EncodeCall.gained_ok encoded k calls
  obtain ⟨k, first⟩ := (fit.declares pinned).firstAt
  by_cases free : ∀ other, ¬ Forestalls mode policy pins brigades b pin other
  · obtain ⟨c, hc, rfl, rfl, rfl⟩ := Assignment.exists_call (t := t)
      (Assignment.place_of_pin fit unique done hb pinned first free)
    refine ⟨c, rfl, first, filter_eq_singleton apart hc, fun _ => ⟨rfl, ?_⟩, fun other blocked => ?_⟩
    · exact filter_eq_singleton once hc
    · exact absurd blocked (free other)
  · obtain ⟨other, blocked⟩ := not_forall_not.mp free
    obtain rfl := blocked.mirrored
    obtain ⟨placed, refused⟩ := Mirrored.refuse_of_forestalled fit unique done pinned first blocked
    obtain ⟨c, hc, brigade, rfl, rfl⟩ := Assignment.exists_call (t := t) placed
    refine ⟨c, rfl, first, filter_eq_singleton apart hc, fun free => ?_, fun other' blocked' => ?_⟩
    · exact absurd blocked (free other)
    · -- who forestalls a brigade is the one who has the place
      obtain ⟨placed', -⟩ := Mirrored.refuse_of_forestalled fit unique done pinned first blocked'
      obtain ⟨c', hc', brigade', node, slot⟩ := Assignment.exists_call (t := t) placed'
      have same : c' = c := List.inj_on_of_nodup_map apart hc' hc (Prod.ext node slot)
      refine ⟨?_, Assignment.filter_calls_of_refused decided refused, buildPlan_reports run refused⟩
      rw [← brigade', same]

/-- Two nodes declare the address that a brigade is pinned to. One without a pin that is there
already comes too late for it. -/
theorem buildPlan_honours_pins_shared :
    let a (d : UInt8) : Ipv4 := ⟨10, 0, 0, d⟩
    let t : Topology := ⟨"r", [⟨"n0", default, [a 5, a 6]⟩, ⟨"n1", default, [a 6, a 7]⟩]⟩
    let given : Pins := .ofList [("y", a 6)]
    let brigades : List Brigade := [.named "x" (a 7), .named "y" (a 9), .named "z" (a 6)]
    let calls := (Assignment.make t .mirrored .skip ⟨given⟩ brigades).calls t
    (t.checkPins given ["x", "y", "z"]).result = .ok ⟨given⟩ ∧ (brigades.map (·.id)).Nodup ∧
      (buildPlan t "f" ⟨.mirrored, .skip, ⟨given⟩⟩ (fun c => .ok c.stub) brigades).result =
        .ok ⟨"r", "f", [⟨"n0", [⟨"y", a 6, [""], "", ""⟩]⟩, ⟨"n1", [⟨"x", a 7, [""], "", ""⟩]⟩]⟩ ∧
      ∃ c, c.slot = a 6 ∧ t.FirstAt (a 6) c.node ∧
        calls.filter (fun d => d.target = c.target) = [c] ∧
        c.brigade = .named "y" (a 9) ∧ calls.filter (fun d => d.brigade.id = "y") = [c] := by
  intro a t given brigades calls
  have accepted : (t.checkPins given ["x", "y", "z"]).result = .ok ⟨given⟩ := by decide
  have unique : (brigades.map (·.id)).Nodup := by decide
  have run : (buildPlan t "f" ⟨.mirrored, .skip, ⟨given⟩⟩ (fun c => .ok c.stub) brigades).result =
      .ok ⟨"r", "f", [⟨"n0", [⟨"y", a 6, [""], "", ""⟩]⟩, ⟨"n1", [⟨"x", a 7, [""], "", ""⟩]⟩]⟩ := by
    decide
  refine ⟨accepted, unique, run, ?_⟩
  obtain ⟨-, honoured⟩ := buildPlan_honours_pins accepted unique "f" .mirrored .skip
    EncodeCall.stub run
  obtain ⟨c, slot, first, alone, own, -⟩ := honoured (.named "y" (a 9)) (by decide) (a 6) (by decide)
  refine ⟨c, slot, first, alone, own ?_⟩
  rintro other ⟨-, -, unpinned, there, before, between, after, split, -⟩
  rcases before with _ | ⟨p, _ | ⟨q, rest⟩⟩
  · obtain ⟨rfl, -⟩ := List.cons.inj split
    exact absurd there (by decide)
  · obtain ⟨-, split⟩ := List.cons.inj split
    obtain ⟨rfl, -⟩ := List.cons.inj split
    exact absurd unpinned (by decide)
  · have sizes := congrArg List.length split
    simp only [brigades, List.length_append, List.length_cons, List.length_nil] at sizes
    omega

/-- A brigade without a pin comes first and keeps its address, to which the second one is
pinned: the plan does without the pinned brigade. -/
theorem buildPlan_pin_forestalled :
    let a (d : UInt8) : Ipv4 := ⟨10, 0, 0, d⟩
    let t : Topology := ⟨"r", [⟨"n0", default, [a 5, a 6]⟩]⟩
    let given : Pins := .ofList [("y", a 5)]
    let brigades : List Brigade := [.named "x" (a 5), .named "y" (a 6)]
    let plan : RestorePlan := ⟨"r", "f", [⟨"n0", [⟨"x", a 5, [""], "", ""⟩]⟩]⟩
    (t.checkPins given (brigades.map (·.id))).result = .ok ⟨given⟩ ∧
      (brigades.map (·.id)).Nodup ∧
      (buildPlan t "f" ⟨.mirrored, .skip, ⟨given⟩⟩ (fun c => .ok c.stub) brigades).result =
        .ok plan ∧
      (⟨given⟩ : CheckedPins).get? "y" = some (a 5) ∧
      ¬ ∃ entry ∈ plan.nodes, ∃ s ∈ entry.snapshots, s.brigadeId = "y" := by
  decide

end Rehoming
