import Mathlib.Data.List.Basic
import Rehoming.Placement

/-! A run as two parts that have nothing to do with each other: an assignment decides about one
brigade after another, and the places that it gives out are those that the run encodes brigades
for. Main statement: what a run does as it goes on comes to the same as to decide about all
brigades first, and then to perform the decisions, one after another. -/

namespace Rehoming

/-! ## Decisions -/

/-- A decision about one brigade. -/
inductive Step where
  | place (node : Nat) (slot : Ipv4) (brigade : Brigade)
  | refuse (brigade : Brigade) (address : Ipv4) (error : Error)

/-- The call that a decision leads to, if it places its brigade. -/
def Step.call? (t : Topology) (ordinal : Nat) : Step → Option EncodeCall
  | .place node slot brigade =>
    some ⟨ordinal, node, brigade, slot, (t.nodes.getD node default).routerKey⟩
  | .refuse .. => none

/-- The place that a decision takes. -/
def Step.place? : Step → Option (Nat × Ipv4)
  | .place node slot _ => some (node, slot)
  | .refuse .. => none

/-- Decisions in the order they are made, and why no more were, if so. -/
structure Assignment where
  steps : List Step
  failure : Option Error

namespace Assignment

/-- The calls of a run, in order. -/
def calls (t : Topology) (a : Assignment) : List EncodeCall :=
  a.steps.zipIdx.filterMap fun s => s.1.call? t s.2

def push (step : Step) (a : Assignment) : Assignment := { a with steps := step :: a.steps }

/-- Each brigade at its target address. -/
def mirrored (t : Topology) (pins : CheckedPins) (policy : PlacementPolicy) :
    (used : List (Nat × Ipv4)) → List Brigade → Assignment
  | _, [] => ⟨[], none⟩
  | used, b :: rest =>
    let address := pins.target b
    match t.findFree used b.id address with
    | .ok node => (mirrored t pins policy ((node, address) :: used) rest).push
        (.place node address b)
    | .error e =>
      match policy with
      | .skip => (mirrored t pins policy used rest).push (.refuse b address e)
      | .fatal => ⟨[], some e⟩

/-- Pinned brigades at their pins, with the places that they take. -/
def pinned (t : Topology) (pins : CheckedPins) : List Brigade → Assignment × List (Nat × Ipv4)
  | [] => (⟨[], none⟩, [])
  | b :: rest =>
    let address := pins.target b
    match t.locate address with
    | none => (⟨[], some (.pinNotFound address b.id)⟩, [])
    | some node =>
      let (a, used) := pinned t pins rest
      (a.push (.place node address b), (node, address) :: used)

/-- Brigades from the front of the queue on the slots that are not used yet, with
the brigades that find none. -/
def fill : (used slots : List (Nat × Ipv4)) → (queue : List Brigade) → List Step × List Brigade
  | _, [], queue => ([], queue)
  | _, _, [] => ([], [])
  | used, slot :: slots, b :: queue =>
    if used.contains slot then fill used slots (b :: queue)
    else
      let (steps, rest) := fill (slot :: used) slots queue
      (.place slot.1 slot.2 b :: steps, rest)

/-- Pinned brigades first, and then the others on the slots that are left. -/
def sequential (t : Topology) (pins : CheckedPins) (brigades : List Brigade) : Assignment :=
  let (fixed, queue) := brigades.partition fun b => (pins.get? b.id).isSome
  let (first, used) := pinned t pins fixed
  match first.failure with
  | some _ => first
  | none =>
    let (steps, rest) := fill used t.slots queue
    ⟨first.steps ++ steps,
      if rest.isEmpty then none
      else some (.reservationTooSmall (fixed.length + queue.length) t.totalSlots)⟩

def make (t : Topology) (mode : PlacementMode) (policy : PlacementPolicy) (pins : CheckedPins)
    (brigades : List Brigade) : Assignment :=
  match mode with
  | .mirrored => mirrored t pins policy [] brigades
  | .sequential => sequential t pins brigades

variable {t : Topology} {pins : CheckedPins}

/-- Which slots are left does not depend on the order in which others were taken. -/
theorem fill_congr {used used' slots : List (Nat × Ipv4)} {queue : List Brigade}
    (same : ∀ s, s ∈ used ↔ s ∈ used') : fill used slots queue = fill used' slots queue := by
  induction slots generalizing used used' queue with
  | nil => rfl
  | cons slot slots ih =>
    cases queue with
    | nil => rfl
    | cons b queue =>
      have taken : used.contains slot = used'.contains slot := by
        rw [Bool.eq_iff_iff, List.contains_iff_mem, List.contains_iff_mem, same]
      have next : ∀ s, s ∈ slot :: used ↔ s ∈ slot :: used' := fun s => by
        rw [List.mem_cons, List.mem_cons, same]
      rw [fill, fill, taken, ih same, ih next]

theorem pinned_used (brigades : List Brigade) :
    (pinned t pins brigades).2 = (pinned t pins brigades).1.steps.filterMap Step.place? := by
  induction brigades with
  | nil => rfl
  | cons b rest ih =>
    cases located : t.locate (pins.target b) with
    | none => simp only [pinned, located, List.filterMap_nil]
    | some node => simp only [pinned, located, push, List.filterMap_cons, Step.place?, ih]

end Assignment

/-! ## Outcomes -/

/-- What came of a decision. -/
inductive Outcome where
  | placed (call : EncodeCall) (snapshot : PreparedSnapshot)
  | failed (call : EncodeCall) (error : Error)
  | refused (brigade : Brigade) (address : Ipv4) (error : Error)

namespace Outcome

def ofStep (t : Topology) (encode : SlotEncoder) (step : Step) (ordinal : Nat) : Outcome :=
  match step with
  | .place node slot brigade =>
    let call : EncodeCall := ⟨ordinal, node, brigade, slot, (t.nodes.getD node default).routerKey⟩
    match encode call with
    | .ok snapshot => .placed call snapshot
    | .error e => .failed call e
  | .refuse brigade address e => .refused brigade address e

def event (t : Topology) : Outcome → Event
  | .placed call _ =>
    .placed call.brigade.id call.slot (t.nodes.getD call.node default).controlIp
  | .failed call e => .skipped call.brigade.id call.slot e
  | .refused brigade address e => .notPlaced brigade.id address e

end Outcome

/-- What came of each decision of an assignment. -/
def Assignment.outcomes (t : Topology) (encode : SlotEncoder) (a : Assignment) : List Outcome :=
  a.steps.zipIdx.map fun s => Outcome.ofStep t encode s.1 s.2

/-- What the calls for one node have given. -/
def EncodeCall.gained (encode : SlotEncoder) (node : Nat) (calls : List EncodeCall) :
    List PreparedSnapshot :=
  calls.filterMap fun c => if c.node = node then (encode c).toOption else none

/-- The plan in which each node serves the given snapshots. Entries stand in the order
of the nodes, and nodes that serve nothing have none. -/
def RestorePlan.serving (t : Topology) (realmFingerprint : String)
    (served : Nat → Node → List PreparedSnapshot) : RestorePlan where
  reservationId := t.reservationId
  realmFingerprint := realmFingerprint
  nodes := (t.nodes.zipIdx.map fun n => ⟨n.1.controlIp, served n.2 n.1⟩).filter
    fun e => !e.snapshots.isEmpty

namespace Progress

variable {t : Topology} {encode : SlotEncoder} {pins : CheckedPins} {policy : PlacementPolicy}

/-! ## One decision -/

/-- Does what has been decided about one brigade. -/
def perform (t : Topology) (encode : SlotEncoder) (p : Progress) : Step → Progress
  | .place node slot b => p.encodeInto t encode node slot b
  | .refuse b address e => p.refuse b address e

@[simp] theorem used_encodeInto (node : Nat) (slot : Ipv4) (b : Brigade) (p : Progress) :
    (p.encodeInto t encode node slot b).used = (node, slot) :: p.used := by
  unfold encodeInto
  dsimp only
  split <;> rfl

theorem used_perform (p : Progress) (step : Step) :
    (p.perform t encode step).used = step.place?.toList ++ p.used := by
  cases step with
  | refuse b address e => rfl
  | place node slot b => exact used_encodeInto node slot b p

theorem decided_perform (p : Progress) (step : Step) :
    (p.perform t encode step).decided = p.decided + 1 := by
  cases step with
  | refuse b address e => rfl
  | place node slot b =>
    simp only [perform, encodeInto]
    split <;> rfl

theorem calls_perform (p : Progress) (step : Step) :
    (p.perform t encode step).calls = p.calls ++ (step.call? t p.decided).toList := by
  cases step with
  | refuse b address e => exact (List.append_nil _).symm
  | place node slot b =>
    simp only [perform, encodeInto]
    split <;> rfl

theorem placed_perform (p : Progress) (step : Step) :
    (p.perform t encode step).placed = p.placed ++ ((step.call? t p.decided).bind fun c =>
      (encode c).toOption.map fun s => (c.node, s)).toList := by
  cases step with
  | refuse b address e => exact (List.append_nil _).symm
  | place node slot b =>
    cases given : encode ⟨p.decided, node, b, slot, (t.nodes.getD node default).routerKey⟩ with
    | ok s =>
      simp only [perform, encodeInto, Step.call?, Option.bind_some, given]
      rfl
    | error e =>
      simp only [perform, encodeInto, Step.call?, Option.bind_some, given]
      exact (List.append_nil _).symm

theorem events_perform (p : Progress) (step : Step) :
    (p.perform t encode step).events =
      p.events ++ [(Outcome.ofStep t encode step p.decided).event t] := by
  cases step with
  | refuse b address e => rfl
  | place node slot b =>
    cases given : encode ⟨p.decided, node, b, slot, (t.nodes.getD node default).routerKey⟩ with
    | ok s =>
      simp only [perform, encodeInto, Outcome.ofStep, given]
      rfl
    | error e =>
      simp only [perform, encodeInto, Outcome.ofStep, given]
      rfl

/-! ## All decisions -/

/-- What each decision adds to the end of a list, a run of them adds in order. -/
theorem foldl_perform {α : Type} (field : Progress → List α) (added : Step → Nat → List α)
    (one : ∀ p step, field (perform t encode p step) = field p ++ added step p.decided)
    (steps : List Step) (p : Progress) :
    field (steps.foldl (perform t encode) p) =
      field p ++ (steps.zipIdx p.decided).flatMap fun s => added s.1 s.2 := by
  induction steps generalizing p with
  | nil => simp
  | cons step steps ih =>
    rw [List.foldl_cons, ih, one, decided_perform, List.zipIdx_cons, List.flatMap_cons,
      List.append_assoc]

theorem used_foldl (steps : List Step) (p : Progress) :
    (steps.foldl (perform t encode) p).used =
      (steps.filterMap Step.place?).reverse ++ p.used := by
  induction steps generalizing p with
  | nil => rfl
  | cons step steps ih =>
    rw [List.foldl_cons, ih, used_perform]
    cases step <;> simp [Step.place?, List.filterMap_cons]

theorem calls_foldl (a : Assignment) :
    (a.steps.foldl (perform t encode) start).calls = a.calls t := by
  rw [foldl_perform calls (fun s i => (s.call? t i).toList) calls_perform, Assignment.calls,
    List.filterMap_eq_flatMap_toList]
  rfl

theorem events_foldl (a : Assignment) :
    (a.steps.foldl (perform t encode) start).events =
      (a.outcomes t encode).map (Outcome.event t) := by
  rw [foldl_perform events (fun s i => [(Outcome.ofStep t encode s i).event t]) events_perform,
    Assignment.outcomes, List.map_map, List.map_eq_flatMap]
  rfl

theorem finish_foldl (realmFingerprint : String) (a : Assignment) :
    (a.steps.foldl (perform t encode) start).finish t realmFingerprint =
      .serving t realmFingerprint fun k _ => EncodeCall.gained encode k (a.calls t) := by
  have given : (a.steps.foldl (perform t encode) start).placed =
      (a.calls t).filterMap fun c => (encode c).toOption.map fun s => (c.node, s) := by
    rw [foldl_perform placed (fun s i => ((s.call? t i).bind fun c =>
      (encode c).toOption.map fun s => (c.node, s)).toList) placed_perform, Assignment.calls,
      List.filterMap_filterMap, List.filterMap_eq_flatMap_toList]
    rfl
  have own (k : Nat) : (a.steps.foldl (perform t encode) start).placed.filterMap
      (fun s => if s.1 = k then some s.2 else none) = EncodeCall.gained encode k (a.calls t) := by
    rw [given, List.filterMap_filterMap, EncodeCall.gained]
    refine List.filterMap_congr fun c _ => ?_
    cases encode c with
    | error e => simp [Except.toOption]
    | ok s => simp [Except.toOption]
  simp only [finish, own, RestorePlan.serving, RestorePlan.mk.injEq, true_and]
  rw [← List.filterMap_eq_map, List.filter_filterMap]
  refine List.filterMap_congr fun n _ => ?_
  cases idle : (EncodeCall.gained encode n.2 (a.calls t)).isEmpty with
  | true => simp [Option.filter, idle]
  | false => simp [Option.filter, idle]

/-! ## Loops perform assignments -/

theorem mirrored_eq (brigades : List Brigade) (p : Progress) :
    mirrored t encode pins policy p brigades =
      let a := Assignment.mirrored t pins policy p.used brigades
      (a.steps.foldl (perform t encode) p, a.failure) := by
  induction brigades generalizing p with
  | nil => rfl
  | cons b rest ih =>
    cases found : t.findFree p.used b.id (pins.target b) with
    | ok node =>
      simp only [mirrored, Assignment.mirrored, found]
      rw [ih, used_encodeInto]
      rfl
    | error e =>
      cases policy with
      | fatal => simp only [mirrored, Assignment.mirrored, found, List.foldl_nil]
      | skip =>
        simp only [mirrored, Assignment.mirrored, found]
        exact ih (p.refuse b (pins.target b) e)

theorem pinned_eq (brigades : List Brigade) (p : Progress) :
    pinned t encode pins p brigades =
      let a := (Assignment.pinned t pins brigades).1
      (a.steps.foldl (perform t encode) p, a.failure) := by
  induction brigades generalizing p with
  | nil => rfl
  | cons b rest ih =>
    cases located : t.locate (pins.target b) with
    | none => simp only [pinned, Assignment.pinned, located, List.foldl_nil]
    | some node =>
      simp only [pinned, Assignment.pinned, located]
      exact ih (p.encodeInto t encode node (pins.target b) b)

theorem fill_eq (slots : List (Nat × Ipv4)) (queue : List Brigade) (p : Progress) :
    fill t encode p slots queue =
      ((Assignment.fill p.used slots queue).1.foldl (perform t encode) p,
        (Assignment.fill p.used slots queue).2) := by
  induction slots generalizing p queue with
  | nil => rfl
  | cons slot slots ih =>
    cases queue with
    | nil => rfl
    | cons b queue =>
      rw [fill, Assignment.fill]
      split
      · exact ih (b :: queue) p
      · rw [ih, used_encodeInto]
        rfl

theorem sequential_eq (brigades : List Brigade) :
    sequential t encode pins start brigades =
      let a := Assignment.sequential t pins brigades
      (a.steps.foldl (perform t encode) start, a.failure) := by
  simp only [sequential, Assignment.sequential, pinned_eq]
  generalize brigades.partition (fun b => (pins.get? b.id).isSome) = parts
  obtain ⟨fixed, queue⟩ := parts
  cases failure : (Assignment.pinned t pins fixed).1.failure with
  | some e => simp only [failure]
  | none =>
    have taken (s : Nat × Ipv4) :
        s ∈ ((Assignment.pinned t pins fixed).1.steps.foldl (perform t encode) start).used ↔
          s ∈ (Assignment.pinned t pins fixed).2 := by
      rw [used_foldl, Assignment.pinned_used, start, List.append_nil, List.mem_reverse]
    simp only [fill_eq, Assignment.fill_congr taken, List.foldl_append]

theorem place_eq (mode : PlacementMode) (brigades : List Brigade) :
    place t encode pins policy mode brigades =
      let a := Assignment.make t mode policy pins brigades
      (a.steps.foldl (perform t encode) start, a.failure) := by
  cases mode with
  | mirrored => exact mirrored_eq brigades start
  | sequential => exact sequential_eq brigades

/-- **Deciding first comes to the same.** A run makes the calls of its assignment. It fails exactly
where that does, and otherwise its plan holds what the calls gave; its events are those of the
decisions, in order. -/
theorem plan_eq (t : Topology) (encode : SlotEncoder) (realmFingerprint : String)
    (options : PlanOptions) (brigades : List Brigade) :
    plan t encode realmFingerprint options brigades =
      let a := Assignment.make t options.mode options.policy options.pins brigades
      let events := (a.outcomes t encode).map (Outcome.event t)
      (a.calls t,
        match a.failure with
        | some e => ⟨.error e, events⟩
        | none =>
          let plan := .serving t realmFingerprint fun k _ => EncodeCall.gained encode k (a.calls t)
          ⟨.ok plan, events ++
            [.assembled plan.reservationId options.mode plan.nodes.length plan.size]⟩) := by
  rw [plan, place_eq]
  dsimp only
  cases (Assignment.make t options.mode options.policy options.pins brigades).failure with
  | some e => simp only [calls_foldl, events_foldl]
  | none => simp only [calls_foldl, events_foldl, finish_foldl]

end Progress
end Rehoming
