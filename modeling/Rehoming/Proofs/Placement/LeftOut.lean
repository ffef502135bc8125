import Rehoming.Proofs.Placement.Accounting
import Rehoming.Proofs.Placement.Settled

/-! Mirrored runs that go on without misfits, against runs in which misfits are fatal. Who is left
out is said without a run: a brigade whose target does not exist, or is the target of one that was
kept before it. Main statement: the run goes on as if those had never been asked for, and its plan
is that of a strict run of the others. -/

namespace Rehoming

/-! ## Calls apart from their numbers -/

/-- A call as the encoder sees it that does not count its calls. -/
def EncodeCall.unnumbered (c : EncodeCall) : EncodeCall := { c with ordinal := 0 }

/-- The place and the brigade of a decision, if it places its brigade. -/
def Step.placing? : Step → Option ((Nat × Ipv4) × Brigade)
  | .place node slot b => some ((node, slot), b)
  | .refuse .. => none

/-- What is reported of a brigade that is left out. -/
def Step.notPlaced? : Step → Option Event
  | .place .. => none
  | .refuse b address e => some (.notPlaced b.id address e)

/-- But for their numbers, the calls of a run follow from the places that it gives. -/
theorem Assignment.calls_unnumbered (t : Topology) (a : Assignment) :
    (a.calls t).map EncodeCall.unnumbered = (a.steps.filterMap Step.placing?).map fun p =>
      ⟨0, p.1.1, p.2, p.1.2, (t.nodes.getD p.1.1 default).routerKey⟩ := by
  have whole : a.steps.filterMap Step.placing? =
      a.steps.zipIdx.filterMap fun s => s.1.placing? := by
    conv_lhs => rw [← List.zipIdx_map_fst 0 a.steps, List.filterMap_map]
    rfl
  rw [calls, whole, List.map_filterMap, List.map_filterMap]
  refine List.filterMap_congr fun s _ => ?_
  cases s.1 <;> rfl

/-- Calls for the same places that are answered alike give each node the same. -/
theorem EncodeCall.gained_of_alike {encode encode' : SlotEncoder} {calls calls' : List EncodeCall}
    (places : calls'.map unnumbered = calls.map unnumbered)
    (answers : calls'.map encode' = calls.map encode) (node : Nat) :
    gained encode' node calls' = gained encode node calls := by
  induction calls generalizing calls' with
  | nil => rw [List.map_eq_nil_iff.mp places]; rfl
  | cons c rest ih =>
    obtain ⟨c', rest', rfl⟩ : ∃ c' rest', calls' = c' :: rest' := by
      cases calls' with
      | nil => cases places
      | cons c' rest' => exact ⟨c', rest', rfl⟩
    obtain ⟨place, places⟩ := List.cons.inj places
    obtain ⟨answer, answers⟩ := List.cons.inj answers
    have there : c'.node = c.node := (congrArg (·.node) place : c'.unnumbered.node = _)
    have rest := ih places answers
    simp only [gained, List.filterMap_cons, there, answer] at rest ⊢
    rw [rest]

/-- Among the reports on outcomes, those on brigades that are left out. -/
theorem Assignment.filter_notPlaced (t : Topology) (encode : SlotEncoder) (a : Assignment) :
    ((a.outcomes t encode).map (Outcome.event t)).filter
        (fun e => e.message = "brigade not placed") = a.steps.filterMap Step.notPlaced? := by
  have whole : a.steps.filterMap Step.notPlaced? =
      a.steps.zipIdx.filterMap fun s => s.1.notPlaced? := by
    conv_lhs => rw [← List.zipIdx_map_fst 0 a.steps, List.filterMap_map]
    rfl
  rw [outcomes, whole, List.map_map, ← List.filterMap_eq_filter, List.filterMap_map]
  refine List.filterMap_congr fun s _ => ?_
  cases hs : s.1 with
  | refuse b address e => simp [hs, Outcome.ofStep, Outcome.event, Event.message, Step.notPlaced?]
  | place node slot b =>
    simp only [Function.comp_apply, hs, Outcome.ofStep, Step.notPlaced?]
    split <;> rfl

namespace Mirrored

variable {t : Topology} {pins : CheckedPins}

/-! ## Who is left out -/

instance (t : Topology) (address : Ipv4) : Decidable (t.Declares address) :=
  decidable_of_iff _ Topology.locate_isSome_iff

instance (t : Topology) (pins : CheckedPins) (before : List Brigade) (b : Brigade) :
    Decidable (Misfit t pins before b) :=
  inferInstanceAs (Decidable (_ ∨ _))

/-- The brigades that can be kept behind these others: each that is no misfit behind those and the
ones kept before it. -/
def fitting (t : Topology) (pins : CheckedPins) : (before : List Brigade) → List Brigade →
    List Brigade
  | _, [] => []
  | before, b :: rest =>
    if Misfit t pins before b then fitting t pins before rest
    else b :: fitting t pins (before ++ [b]) rest

/-- The other brigades. -/
def misfits (t : Topology) (pins : CheckedPins) : (before : List Brigade) → List Brigade →
    List Brigade
  | _, [] => []
  | before, b :: rest =>
    if Misfit t pins before b then b :: misfits t pins before rest
    else misfits t pins (before ++ [b]) rest

/-- Why a brigade is a misfit. -/
def objection (t : Topology) (pins : CheckedPins) (b : Brigade) : Error :=
  if t.Declares (pins.target b) then .mirroredDuplicated (pins.target b) b.id
  else .mirroredNotFound (pins.target b) b.id

theorem fitting_append_misfits (before brigades : List Brigade) :
    (fitting t pins before brigades ++ misfits t pins before brigades).Perm brigades := by
  induction brigades generalizing before with
  | nil => exact .nil
  | cons b rest ih =>
    rw [fitting, misfits]
    split
    · exact List.perm_middle.trans ((ih before).cons b)
    · exact (ih (before ++ [b])).cons b

theorem fitting_sublist (before brigades : List Brigade) :
    (fitting t pins before brigades).Sublist brigades := by
  induction brigades generalizing before with
  | nil => exact .slnil
  | cons b rest ih =>
    rw [fitting]
    split
    · exact (ih before).cons b
    · exact (ih (before ++ [b])).cons_cons b

theorem placeable_nil : Placeable t pins [] := ⟨nofun, .nil⟩

theorem placeable_fitting {before : List Brigade} (fits : Placeable t pins before)
    (brigades : List Brigade) : Placeable t pins (before ++ fitting t pins before brigades) := by
  induction brigades generalizing before with
  | nil => rwa [fitting, List.append_nil]
  | cons b rest ih =>
    rw [fitting]
    split
    · exact ih fits
    · rename_i fitsToo
      have more := ih (placeable_concat_iff.mpr ⟨fits, fitsToo⟩)
      rwa [List.append_assoc, List.singleton_append] at more

/-! ## The two runs -/

/-- Where the targets of these brigades are taken, a brigade is refused for being a misfit. -/
theorem findFree_behind (before : List Brigade) (b : Brigade) :
    t.findFree ((before.map pins.target).reverse.map t.home) b.id (pins.target b) =
      if Misfit t pins before b then .error (objection t pins b)
      else .ok (t.home (pins.target b)).1 := by
  by_cases there : t.Declares (pins.target b)
  · rw [objection, if_pos there]
    by_cases taken : pins.target b ∈ before.map pins.target
    · rw [if_pos (.inr taken), findFree_taken b.id there (List.mem_reverse.mpr taken)]
    · have fits : ¬ Misfit t pins before b := not_or.mpr ⟨not_not_intro there, taken⟩
      rw [if_neg fits, findFree_fresh b.id there (mt List.mem_reverse.mp taken)]
  · rw [if_pos (.inl there), objection, if_neg there, findFree_nowhere b.id there]

/-- A run that goes on without misfits decides about all brigades: it gives places to those that
fit, and reports the others. -/
theorem mirrored_skip (t : Topology) (pins : CheckedPins) (before brigades : List Brigade) :
    let a := Assignment.mirrored t pins .skip ((before.map pins.target).reverse.map t.home)
      brigades
    a.failure = none ∧
      a.steps.filterMap Step.placing? = places t pins (fitting t pins before brigades) ∧
      a.steps.filterMap Step.notPlaced? = (misfits t pins before brigades).map fun b =>
        .notPlaced b.id (pins.target b) (objection t pins b) := by
  induction brigades generalizing before with
  | nil => exact ⟨rfl, rfl, rfl⟩
  | cons b rest ih =>
    simp only [Assignment.mirrored, findFree_behind before b, fitting, misfits]
    by_cases misfit : Misfit t pins before b
    · obtain ⟨done, given, reported⟩ := ih before
      simp only [if_pos misfit]
      exact ⟨done, given, congrArg (_ :: ·) reported⟩
    · have later := ih (before ++ [b])
      rw [List.map_append, List.reverse_append] at later
      obtain ⟨done, given, reported⟩ := later
      simp only [if_neg misfit]
      exact ⟨done, congrArg (_ :: ·) given, reported⟩

/-- A strict run of the brigades that fit gives them the same places. -/
theorem mirrored_fitting (t : Topology) (pins : CheckedPins) (brigades : List Brigade) :
    let a := Assignment.mirrored t pins .fatal [] (fitting t pins [] brigades)
    a.failure = none ∧
      a.steps.filterMap Step.placing? = places t pins (fitting t pins [] brigades) := by
  have fits : Placeable t pins (fitting t pins [] brigades) :=
    placeable_fitting placeable_nil brigades
  rw [mirrored_of_placeable fits]
  refine ⟨rfl, ?_⟩
  rw [List.filterMap_map]
  exact List.filterMap_some

end Mirrored

open Mirrored in
/-- **Going on without misfits drops exactly those.** Whatever the topology, the pins and the
encoder are, a mirrored run that is to go on without misfits makes a plan. Its encoder is called
for the brigades that fit, as in a strict run of only those, and if the calls are answered alike,
the strict run makes the same plan; whether a brigade could be encoded does not matter for who fits.
The brigades that are reported as not placed are the others, in order. Where a strict run of all
brigades makes a plan, it is the same as well. -/
theorem buildPlan_skip_eq_fatal (t : Topology) (realmFingerprint : String) (pins : CheckedPins)
    (encode : SlotEncoder) (brigades : List Brigade) :
    let run (policy : PlacementPolicy) := buildPlan t realmFingerprint ⟨.mirrored, policy, pins⟩
    let calls (policy : PlacementPolicy) (bs : List Brigade) :=
      (Assignment.make t .mirrored policy pins bs).calls t
    let kept := fitting t pins [] brigades
    let dropped := misfits t pins [] brigades
    kept.Sublist brigades ∧ (kept ++ dropped).Perm brigades ∧
      (calls .fatal kept).map EncodeCall.unnumbered =
        (calls .skip brigades).map EncodeCall.unnumbered ∧
      ∃ plan, (run .skip encode brigades).result = .ok plan ∧
        (∀ encode', (calls .fatal kept).map encode' = (calls .skip brigades).map encode →
          (run .fatal encode' kept).result = .ok plan) ∧
        ((∀ c, encode c = encode c.unnumbered) → (run .fatal encode kept).result = .ok plan) ∧
        (run .skip encode brigades).events.filter (fun e => e.message = "brigade not placed") =
          dropped.map (fun b =>
            .notPlaced b.id (pins.target b) (objection t pins b)) ∧
        ∀ strict, (run .fatal encode brigades).result = .ok strict → strict = plan := by
  intro run calls kept dropped
  obtain ⟨done, given, reported⟩ := mirrored_skip t pins [] brigades
  obtain ⟨strictDone, strictGiven⟩ := mirrored_fitting t pins brigades
  have same : (calls .fatal kept).map EncodeCall.unnumbered =
      (calls .skip brigades).map EncodeCall.unnumbered := by
    rw [Assignment.calls_unnumbered, Assignment.calls_unnumbered]
    exact congrArg (List.map _) (strictGiven.trans given.symm)
  obtain ⟨plan, planned⟩ : ∃ plan, (run .skip encode brigades).result = .ok plan :=
    ⟨_, buildPlan_ok_iff.mpr ⟨done, rfl⟩⟩
  have strictly (encode' : SlotEncoder)
      (answers : (calls .fatal kept).map encode' = (calls .skip brigades).map encode) :
      (run .fatal encode' kept).result = .ok plan := by
    refine buildPlan_ok_iff.mpr ⟨strictDone, (buildPlan_ok_iff.mp planned).2.trans ?_⟩
    exact RestorePlan.serving_congr fun k n _ => (EncodeCall.gained_of_alike same answers k).symm
  refine ⟨fitting_sublist [] brigades, fitting_append_misfits [] brigades, same, plan, planned,
    strictly, fun blind => strictly encode ?_, ?_, fun strict whole => ?_⟩
  · have seen (cs : List EncodeCall) :
        cs.map encode = (cs.map EncodeCall.unnumbered).map encode := by
      rw [List.map_map]
      exact List.map_congr_left fun c _ => blind c
    rw [seen, same, ← seen]
  · rw [buildPlan_events planned, List.filter_append, Assignment.filter_notPlaced]
    exact (List.append_nil _).trans reported
  · -- Without misfits both policies decide the same.
    have fits := placeable_of_complete (buildPlan_ok_iff.mp whole).1
    have policies : (run .fatal encode brigades).result = (run .skip encode brigades).result := by
      simp only [run, buildPlan_result, Assignment.make, mirrored_of_placeable fits]
    exact Except.ok.inj (whole.symm.trans (policies.trans planned))

/-- A brigade that cannot be encoded holds its address all the same, against the one behind it;
a third one has an address that is not there. -/
theorem buildPlan_skip_eq_fatal_held :
    let a (d : UInt8) : Ipv4 := ⟨10, 0, 0, d⟩
    let t : Topology := ⟨"r", [⟨"n0", default, [a 5, a 6]⟩]⟩
    let x : Brigade := .named "x" (a 5)
    let w : Brigade := .named "w" (a 6)
    let brigades : List Brigade := [x, .named "y" (a 5), .named "z" (a 9), w]
    let encode : SlotEncoder := fun c =>
      if c.brigade.id = "x" then .error (.encoding "") else .ok c.stub
    let plan : RestorePlan := ⟨"r", "f", [⟨"n0", [⟨"w", a 6, [""], "", ""⟩]⟩]⟩
    let run (policy : PlacementPolicy) (bs : List Brigade) :=
      buildPlan t "f" ⟨.mirrored, policy, .none⟩ encode bs
    (∀ c, encode c = encode c.unnumbered) ∧ (run .skip brigades).result = .ok plan ∧
      (run .fatal [x, w]).result = .ok plan ∧
      (run .skip brigades).events.filter (fun e => e.message = "brigade not placed") =
        [.notPlaced "y" (a 5) (.mirroredDuplicated (a 5) "y"),
          .notPlaced "z" (a 9) (.mirroredNotFound (a 9) "z")] := by
  intro a t x w brigades encode plan run
  have blind : ∀ c, encode c = encode c.unnumbered := fun _ => rfl
  have planned : (run .skip brigades).result = .ok plan := by decide
  obtain ⟨-, -, -, plan', skipped, -, strictly, reported, -⟩ :=
    buildPlan_skip_eq_fatal t "f" .none encode brigades
  cases Except.ok.inj (planned.symm.trans skipped)
  have kept : Mirrored.fitting t .none [] brigades = [x, w] := by decide
  have dropped : Mirrored.misfits t .none [] brigades =
      [.named "y" (a 5), .named "z" (a 9)] := by decide
  rw [kept] at strictly
  rw [dropped] at reported
  exact ⟨blind, planned, strictly blind, reported.trans (by decide)⟩

end Rehoming
