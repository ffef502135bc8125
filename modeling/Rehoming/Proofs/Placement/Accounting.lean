import Mathlib.Data.Multiset.AddSub
import Rehoming.Proofs.Placement.Contents

/-! What becomes of each brigade of a run. An assignment that is complete decides about every
brigade once, and every decision leaves a trace: a snapshot in the plan, or a warning that
names the brigade. Main statement: ids of brigades, counted with repeats, are those of the
snapshots and of the two kinds of warnings together. -/

namespace Rehoming

/-! ## Decisions -/

namespace Assignment

variable {t : Topology} {pins : CheckedPins} {policy : PlacementPolicy}

theorem mirrored_brigades (used : List (Nat × Ipv4)) (brigades : List Brigade)
    (done : (mirrored t pins policy used brigades).failure = none) :
    (mirrored t pins policy used brigades).steps.map Step.brigade = brigades := by
  induction brigades generalizing used with
  | nil => rfl
  | cons b rest ih =>
    rw [mirrored] at done ⊢
    split at done
    · rename_i node found
      exact congrArg (b :: ·) (ih _ done)
    · cases policy with
      | skip => exact congrArg (b :: ·) (ih used done)
      | fatal => cases done

theorem pinned_brigades (brigades : List Brigade)
    (done : (pinned t pins brigades).1.failure = none) :
    (pinned t pins brigades).1.steps.map Step.brigade = brigades := by
  induction brigades with
  | nil => rfl
  | cons b rest ih =>
    cases located : t.locate (pins.target b) with
    | none =>
      simp only [pinned, located] at done
      cases done
    | some node =>
      simp only [pinned, located, push] at done ⊢
      exact congrArg (b :: ·) (ih done)

theorem fill_brigades (used slots : List (Nat × Ipv4)) (queue : List Brigade) :
    (fill used slots queue).1.map Step.brigade ++ (fill used slots queue).2 = queue := by
  induction slots generalizing used queue with
  | nil => rfl
  | cons slot slots ih =>
    cases queue with
    | nil => rfl
    | cons b queue =>
      rw [fill]
      split
      · exact ih used (b :: queue)
      · exact congrArg (b :: ·) (ih _ queue)

theorem sequential_brigades (brigades : List Brigade)
    (done : (sequential t pins brigades).failure = none) :
    ((sequential t pins brigades).steps.map Step.brigade).Perm brigades := by
  have parts := List.filter_append_perm (fun b => (pins.get? b.id).isSome) brigades
  simp only [sequential, Sequential.partition_eq] at done ⊢
  split at done
  · rename_i e failed
    rw [failed] at done
    cases done
  · rename_i placed
    have all := fill_brigades (pinned t pins (Sequential.fixed pins brigades)).2 t.slots
      (Sequential.queue pins brigades)
    have spare : (fill (pinned t pins (Sequential.fixed pins brigades)).2 t.slots
        (Sequential.queue pins brigades)).2 = [] := by simpa using done
    rw [spare, List.append_nil] at all
    simp only [List.map_append, pinned_brigades _ placed, all]
    simpa [Sequential.fixed, Sequential.queue] using parts

/-- An assignment that is complete decides about each brigade once. -/
theorem make_brigades {mode : PlacementMode} {brigades : List Brigade}
    (done : (make t mode policy pins brigades).failure = none) :
    ((make t mode policy pins brigades).steps.map Step.brigade).Perm brigades := by
  cases mode with
  | mirrored => exact .of_eq (mirrored_brigades [] brigades done)
  | sequential => exact sequential_brigades brigades done

theorem mirrored_fatal_place (used : List (Nat × Ipv4)) (brigades : List Brigade) :
    ∀ step ∈ (mirrored t pins .fatal used brigades).steps, step.place?.isSome = true := by
  induction brigades generalizing used with
  | nil => simp [mirrored]
  | cons b rest ih =>
    intro step hs
    rw [mirrored] at hs
    split at hs
    · rcases List.mem_cons.mp hs with rfl | hs
      · rfl
      · exact ih _ step hs
    · cases hs

theorem pinned_place (brigades : List Brigade) :
    ∀ step ∈ (pinned t pins brigades).1.steps, step.place?.isSome = true := by
  induction brigades with
  | nil => simp [pinned]
  | cons b rest ih =>
    intro step hs
    rw [pinned] at hs
    split at hs
    · cases hs
    · rcases List.mem_cons.mp hs with rfl | hs
      · rfl
      · exact ih step hs

theorem sequential_place (brigades : List Brigade) :
    ∀ step ∈ (sequential t pins brigades).steps, step.place?.isSome = true := by
  intro step hs
  simp only [sequential, fill_eq] at hs
  split at hs
  · exact pinned_place _ step hs
  · rcases List.mem_append.mp hs with hs | hs
    · exact pinned_place _ step hs
    · obtain ⟨place, -, rfl⟩ := List.mem_map.mp hs
      rfl

/-- Brigades are refused only in mirrored runs that skip misfits. -/
theorem refused_of_place?_eq_none {mode : PlacementMode} {brigades : List Brigade} {step : Step}
    (h : step ∈ (make t mode policy pins brigades).steps) (nowhere : step.place? = none) :
    mode = .mirrored ∧ policy = .skip := by
  cases mode with
  | mirrored =>
    cases policy with
    | skip => exact ⟨rfl, rfl⟩
    | fatal =>
      have := mirrored_fatal_place [] brigades step h
      rw [nowhere] at this
      cases this
  | sequential =>
    have := sequential_place brigades step h
    rw [nowhere] at this
    cases this

end Assignment

/-! ## Traces -/

/-- The brigade that an event names, if the event is a warning with this message. -/
def Event.warned? (message : String) (e : Event) : Option String :=
  if e.level = .warn ∧ e.message = message then
    match e.fields.lookup "brigade_id" with
    | some (.string id) => some id
    | _ => none
  else none

/-- The brigades that warnings with this message name, in order. -/
def Event.warnedOf (message : String) (events : List Event) : List String :=
  events.filterMap (warned? message)

namespace Outcome

/-- The brigade that an outcome is about. -/
def brigade : Outcome → Brigade
  | .placed call _ => call.brigade
  | .failed call _ => call.brigade
  | .refused b _ _ => b

/-- The id of a brigade that has come to its place. -/
def placedId? : Outcome → Option String
  | .placed call _ => some call.brigade.id
  | _ => none

theorem brigade_ofStep (t : Topology) (encode : SlotEncoder) (step : Step) (ordinal : Nat) :
    (ofStep t encode step ordinal).brigade = step.brigade := by
  cases step with
  | refuse b address e => rfl
  | place node slot b =>
    rw [ofStep]
    split <;> rfl

theorem placedId?_ofStep (t : Topology) (encode : SlotEncoder) (step : Step) (ordinal : Nat) :
    (ofStep t encode step ordinal).placedId? =
      (step.call? t ordinal).bind fun c =>
        if (encode c).isOk then some c.brigade.id else none := by
  cases step with
  | refuse b address e => rfl
  | place node slot b =>
    simp only [ofStep, Step.call?, Option.bind_some]
    cases encode ⟨ordinal, node, b, slot, (t.nodes.getD node default).routerKey⟩ <;> rfl

theorem notPlaced_event (t : Topology) (o : Outcome) :
    (o.event t).warned? "brigade not placed" =
      match o with
      | .refused b _ _ => some b.id
      | _ => none := by
  cases o <;> rfl

theorem skipped_event (t : Topology) (o : Outcome) :
    (o.event t).warned? "skipping brigade" =
      match o with
      | .failed call _ => some call.brigade.id
      | _ => none := by
  cases o <;> rfl

/-- Every outcome leaves one trace. -/
theorem ids_eq_add (t : Topology) (outcomes : List Outcome) :
    (↑(outcomes.map (·.brigade.id)) : Multiset String) =
      ↑(outcomes.filterMap placedId?) +
        ↑(Event.warnedOf "brigade not placed" (outcomes.map (event t))) +
        ↑(Event.warnedOf "skipping brigade" (outcomes.map (event t))) := by
  induction outcomes with
  | nil => rfl
  | cons o rest ih =>
    simp only [Event.warnedOf, List.map_cons, List.filterMap_cons, notPlaced_event,
      skipped_event, ← Multiset.cons_coe] at ih ⊢
    rw [ih]
    cases o with
    | placed call s => simp only [placedId?, brigade, ← Multiset.cons_coe, Multiset.cons_add]
    | failed call e => simp only [placedId?, brigade, ← Multiset.cons_coe, Multiset.add_cons]
    | refused b address e =>
      simp only [placedId?, brigade, ← Multiset.cons_coe, Multiset.cons_add, Multiset.add_cons]

end Outcome

variable {t : Topology} {encode : SlotEncoder}

theorem Assignment.outcomes_brigades (encode : SlotEncoder) (a : Assignment) :
    (a.outcomes t encode).map (·.brigade.id) = (a.steps.map Step.brigade).map (·.id) := by
  have whole : a.steps.map Step.brigade = a.steps.zipIdx.map fun s => s.1.brigade := by
    conv_lhs => rw [← List.zipIdx_map_fst 0 a.steps, List.map_map]
    rfl
  rw [outcomes, whole, List.map_map, List.map_map]
  refine List.map_congr_left fun s _ => ?_
  exact congrArg (·.id) (Outcome.brigade_ofStep t encode s.1 s.2)

theorem Assignment.outcomes_placedIds (a : Assignment) :
    (a.outcomes t encode).filterMap Outcome.placedId? =
      (a.encoded t encode).map (·.brigade.id) := by
  rw [outcomes, encoded, calls, List.filterMap_map, ← List.filterMap_eq_map,
    List.filterMap_filter, List.filterMap_filterMap]
  exact List.filterMap_congr fun s _ => Outcome.placedId?_ofStep t encode s.1 s.2

/-- Where brigades are reported as not placed, one of them was refused. -/
theorem Assignment.exists_refused {a : Assignment}
    (named : Event.warnedOf "brigade not placed"
      ((a.outcomes t encode).map (Outcome.event t)) ≠ []) :
    ∃ step ∈ a.steps, step.place? = none := by
  obtain ⟨id, hid⟩ := List.exists_mem_of_ne_nil _ named
  obtain ⟨e, he, warned⟩ := List.mem_filterMap.mp hid
  obtain ⟨o, ho, rfl⟩ := List.mem_map.mp he
  obtain ⟨⟨step, ordinal⟩, there, rfl⟩ := List.mem_map.mp ho
  refine ⟨step, List.fst_mem_of_mem_zipIdx there, ?_⟩
  cases step with
  | refuse b address e => rfl
  | place node slot b =>
    rw [Outcome.notPlaced_event, Outcome.ofStep] at warned
    split at warned
    · rename_i refused
      split at refused <;> cases refused
    · cases warned

/-- A run that makes a plan reports its outcomes, and then that it has the plan. -/
theorem buildPlan_events {realmFingerprint : String} {options : PlanOptions}
    {brigades : List Brigade} {plan : RestorePlan}
    (run : (buildPlan t realmFingerprint options encode brigades).result = .ok plan) :
    (buildPlan t realmFingerprint options encode brigades).events =
      ((Assignment.make t options.mode options.policy options.pins brigades).outcomes t
        encode).map (Outcome.event t) ++
      [.assembled plan.reservationId options.mode plan.nodes.length plan.size] := by
  obtain ⟨done, rfl⟩ := buildPlan_ok_iff.mp run
  simp only [buildPlan, Progress.plan_eq, done]

/-- **No brigade is lost silently.** Whatever the pins are, and with an encoder that keeps the
ids of brigades: if a run makes a plan, the ids of its brigades, counted with repeats, are those
of the snapshots in the plan, those that it warns are not placed, and those that it warns are
skipped. Only a mirrored run that skips misfits leaves brigades without a place. -/
theorem buildPlan_accounts {pins : CheckedPins} {brigades : List Brigade}
    (keeps : ∀ c s, encode c = .ok s → s.brigadeId = c.brigade.id) (realmFingerprint : String)
    (mode : PlacementMode) (policy : PlacementPolicy) {plan : RestorePlan}
    (run : (buildPlan t realmFingerprint ⟨mode, policy, pins⟩ encode brigades).result = .ok plan) :
    let events := (buildPlan t realmFingerprint ⟨mode, policy, pins⟩ encode brigades).events
    (↑(brigades.map (·.id)) : Multiset String) = ↑(plan.snapshots.map (·.brigadeId)) +
        ↑(Event.warnedOf "brigade not placed" events) +
        ↑(Event.warnedOf "skipping brigade" events) ∧
      (Event.warnedOf "brigade not placed" events ≠ [] → mode = .mirrored ∧ policy = .skip) := by
  intro events
  let a := Assignment.make t mode policy pins brigades
  have done : a.failure = none := (buildPlan_ok_iff.mp run).1
  have reported (message : String) : Event.warnedOf message events =
      Event.warnedOf message ((a.outcomes t encode).map (Outcome.event t)) := by
    have last : [Event.assembled plan.reservationId mode plan.nodes.length plan.size].filterMap
        (Event.warned? message) = [] := by simp [Event.warned?, Event.level]
    simp only [events, buildPlan_events run, Event.warnedOf, List.filterMap_append, last,
      List.append_nil]
    rfl
  refine ⟨?_, fun named => ?_⟩
  · have ids := (Assignment.make_brigades done).map (·.id)
    have held := (buildPlan_snapshots_perm run).map (·.brigadeId)
    rw [EncodeCall.map_gained keeps] at held
    rw [reported, reported, Multiset.coe_eq_coe.mpr held,
      ← Multiset.coe_eq_coe.mpr ids, ← Assignment.outcomes_brigades encode,
      Outcome.ids_eq_add t, Assignment.outcomes_placedIds]
    rfl
  · rw [reported] at named
    obtain ⟨step, there, nowhere⟩ := Assignment.exists_refused named
    exact Assignment.refused_of_place?_eq_none there nowhere

/-- Two brigades with one id and one address, of which the second finds it taken, and a brigade
that cannot be encoded. -/
theorem buildPlan_accounts_skip :
    let a (d : UInt8) : Ipv4 := ⟨10, 0, 0, d⟩
    let t : Topology := ⟨"r", [⟨"n0", default, [a 5, a 6]⟩]⟩
    let brigades : List Brigade := [.named "y" (a 5), .named "y" (a 5), .named "x" (a 6)]
    let encode : SlotEncoder := fun c => if c.ordinal = 2 then .error (.encoding "") else .ok c.stub
    let plan : RestorePlan := ⟨"r", "f", [⟨"n0", [⟨"y", a 5, [""], "", ""⟩]⟩]⟩
    let run := buildPlan t "f" ⟨.mirrored, .skip, .none⟩ encode brigades
    (∀ c s, encode c = .ok s → s.brigadeId = c.brigade.id) ∧ run.result = .ok plan ∧
      Event.warnedOf "brigade not placed" run.events = ["y"] ∧
      Event.warnedOf "skipping brigade" run.events = ["x"] ∧
      (↑(brigades.map (·.id)) : Multiset String) = ↑(plan.snapshots.map (·.brigadeId)) +
        ↑(Event.warnedOf "brigade not placed" run.events) +
        ↑(Event.warnedOf "skipping brigade" run.events) := by
  intro a t brigades encode plan run
  have keeps : ∀ c s, encode c = .ok s → s.brigadeId = c.brigade.id := by
    intro c s given
    simp only [encode] at given
    split at given
    · cases given
    · cases given
      rfl
  have planned : run.result = .ok plan := by decide
  exact ⟨keeps, planned, by decide, by decide,
    (buildPlan_accounts keeps "f" .mirrored .skip planned).1⟩

end Rehoming
