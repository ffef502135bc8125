import Mathlib.Data.List.Induction
import Rehoming.Proofs.Placement.Plans

/-! Placing brigades at their targets, against its reference: each goes to the first node
that has its target. Main statement: where misfits are fatal, a run succeeds exactly if
all targets exist and no two are the same; otherwise the first misfit says why. -/

namespace Rehoming.Mirrored

open Assignment (placeAt)

variable {t : Topology} {pins : CheckedPins} {brigades : List Brigade}

/-- A list of brigades that can all be placed: their targets exist and differ. -/
structure Placeable (t : Topology) (pins : CheckedPins) (brigades : List Brigade) : Prop where
  declared : ∀ b ∈ brigades, t.Declares (pins.target b)
  distinct : (brigades.map pins.target).Nodup

/-- A brigade without a place behind these others: its target does not exist, or is
the target of one of them. -/
def Misfit (t : Topology) (pins : CheckedPins) (before : List Brigade) (b : Brigade) : Prop :=
  ¬ t.Declares (pins.target b) ∨ pins.target b ∈ before.map pins.target

theorem placeable_concat_iff {before : List Brigade} {b : Brigade} :
    Placeable t pins (before ++ [b]) ↔ Placeable t pins before ∧ ¬ Misfit t pins before b := by
  simp only [Misfit, not_or, not_not]
  constructor
  · rintro ⟨declared, distinct⟩
    rw [List.map_append, List.nodup_append] at distinct
    refine ⟨⟨fun c hc => declared c (List.mem_append_left _ hc), distinct.1⟩,
      declared b (by simp), fun same => ?_⟩
    exact distinct.2.2 _ same _ (by simp) rfl
  · rintro ⟨⟨declared, distinct⟩, there, fresh⟩
    refine ⟨fun c hc => ?_, ?_⟩
    · rcases List.mem_append.mp hc with hc | hc
      · exact declared c hc
      · rw [List.mem_singleton.mp hc]
        exact there
    · rw [List.map_append, List.nodup_append]
      refine ⟨distinct, by simp, fun x hx y hy => ?_⟩
      rw [List.map_singleton, List.mem_singleton] at hy
      rintro rfl
      exact fresh (hy ▸ hx)

/-- Brigades that cannot all be placed have a first misfit. -/
theorem exists_misfit (h : ¬ Placeable t pins brigades) :
    ∃ before b after, brigades = before ++ b :: after ∧ Placeable t pins before ∧
      Misfit t pins before b := by
  induction brigades using List.reverseRecOn with
  | nil => exact absurd ⟨by simp, by simp⟩ h
  | append_singleton front last ih =>
    by_cases fits : Placeable t pins front
    · rw [placeable_concat_iff, not_and, not_not] at h
      exact ⟨front, last, [], rfl, fits, h fits⟩
    · obtain ⟨before, b, after, rfl, hb⟩ := ih fits
      exact ⟨before, b, after ++ [last], by simp, hb⟩

/-! ## One brigade -/

theorem mem_map_home_iff {taken : List Ipv4} {address : Ipv4} {k : Nat}
    (first : t.FirstAt address k) : (k, address) ∈ taken.map t.home ↔ address ∈ taken := by
  rw [← Topology.home_eq first, List.mem_map]
  constructor
  · rintro ⟨other, mem, same⟩
    have : other = address := congrArg (·.2) same
    exact this ▸ mem
  · exact fun mem => ⟨address, mem, rfl⟩

theorem findFree_fresh {taken : List Ipv4} (id : String) {address : Ipv4}
    (there : t.Declares address) (fresh : address ∉ taken) :
    t.findFree (taken.map t.home) id address = .ok (t.home address).1 := by
  obtain ⟨k, first⟩ := there.firstAt
  have free : (k, address) ∉ taken.map t.home := mt (mem_map_home_iff first).mp fresh
  simp only [Topology.findFree, Topology.locate_eq_some_iff.mpr first, Topology.home_eq first]
  rw [if_neg (mt List.contains_iff_mem.mp free)]

theorem findFree_taken {taken : List Ipv4} (id : String) {address : Ipv4}
    (there : t.Declares address) (mem : address ∈ taken) :
    t.findFree (taken.map t.home) id address =
      .error (.mirroredDuplicated address id) := by
  obtain ⟨k, first⟩ := there.firstAt
  simp only [Topology.findFree, Topology.locate_eq_some_iff.mpr first]
  rw [if_pos (List.contains_iff_mem.mpr ((mem_map_home_iff first).mpr mem))]

theorem findFree_nowhere {used : List (Nat × Ipv4)} (id : String) {address : Ipv4}
    (h : ¬ t.Declares address) :
    t.findFree used id address = .error (.mirroredNotFound address id) := by
  simp only [Topology.findFree, Topology.locate_eq_none_iff.mpr h]

theorem findFree_ok {used : List (Nat × Ipv4)} {id : String} {address : Ipv4} {node : Nat}
    (h : t.findFree used id address = .ok node) :
    t.FirstAt address node ∧ (node, address) ∉ used := by
  unfold Topology.findFree at h
  split at h
  · cases h
  · rename_i k located
    split at h
    · cases h
    · rename_i free
      cases h
      exact ⟨Topology.locate_eq_some_iff.mp located, mt List.contains_iff_mem.mpr free⟩

/-! ## All brigades -/

/-- The places of brigades that can all be placed. -/
def places (t : Topology) (pins : CheckedPins) (brigades : List Brigade) :
    List ((Nat × Ipv4) × Brigade) :=
  brigades.map fun b => (t.home (pins.target b), b)

/-- Brigades that can be placed are, and the run goes on with their targets taken. -/
theorem mirrored_append (policy : PlacementPolicy) {before : List Brigade} (rest : List Brigade)
    (fits : Placeable t pins before) (taken : List Ipv4)
    (fresh : ∀ b ∈ before, pins.target b ∉ taken) :
    let more := Assignment.mirrored t pins policy
      (((before.map pins.target).reverse ++ taken).map t.home) rest
    Assignment.mirrored t pins policy (taken.map t.home) (before ++ rest) =
      ⟨(places t pins before).map placeAt ++ more.steps, more.failure⟩ := by
  induction before generalizing taken with
  | nil => simp [places]
  | cons b before ih =>
    obtain ⟨declared, distinct⟩ := fits
    obtain ⟨differ, distinct⟩ := List.nodup_cons.mp distinct
    have found := findFree_fresh b.id (declared b List.mem_cons_self)
      (fresh b List.mem_cons_self)
    have step := ih ⟨fun c hc => declared c (List.mem_cons_of_mem _ hc), distinct⟩
      (pins.target b :: taken) fun c hc => by
        rw [List.mem_cons, not_or]
        exact ⟨fun same => differ (same ▸ List.mem_map_of_mem hc),
          fresh c (List.mem_cons_of_mem _ hc)⟩
    simp only [List.cons_append, Assignment.mirrored, found]
    rw [← show t.home (pins.target b) = ((t.home (pins.target b)).1, pins.target b) from rfl,
      ← List.map_cons, step]
    simp [places, placeAt, Assignment.push, Topology.home]

theorem mirrored_of_placeable {policy : PlacementPolicy} (fits : Placeable t pins brigades) :
    Assignment.mirrored t pins policy [] brigades =
      ⟨(places t pins brigades).map placeAt, none⟩ := by
  have run := mirrored_append policy [] fits [] (by simp)
  simpa [Assignment.mirrored] using run

/-- The error of the first misfit ends a run that is to be without any. -/
theorem mirrored_of_misfit {before after : List Brigade} {b : Brigade} {e : Error}
    (fits : Placeable t pins before)
    (refused : t.findFree ((before.map pins.target).reverse.map t.home) b.id
      (pins.target b) = .error e) :
    (Assignment.mirrored t pins .fatal [] (before ++ b :: after)).failure = some e := by
  have run := mirrored_append .fatal (b :: after) fits [] (by simp)
  rw [List.append_nil] at run
  rw [show ([] : List (Nat × Ipv4)) = ([] : List Ipv4).map t.home from rfl, run]
  simp only [Assignment.mirrored, refused]

theorem brigade_mem {policy : PlacementPolicy} (used : List (Nat × Ipv4)) {step : Step}
    (h : step ∈ (Assignment.mirrored t pins policy used brigades).steps) :
    step.brigade ∈ brigades := by
  induction brigades generalizing used with
  | nil => cases h
  | cons b rest ih =>
    rw [Assignment.mirrored] at h
    split at h
    · rcases List.mem_cons.mp h with rfl | h
      · exact List.mem_cons_self
      · exact List.mem_cons_of_mem _ (ih _ h)
    · cases policy with
      | skip =>
        rcases List.mem_cons.mp h with rfl | h
        · exact List.mem_cons_self
        · exact List.mem_cons_of_mem _ (ih _ h)
      | fatal => cases h

/-! ## The plan of a run -/

/-- The calls for node `k` in the reference: the brigades whose target this node is the
first to have, in order. -/
def callsFor (t : Topology) (pins : CheckedPins) (brigades : List Brigade) (k : Nat) (n : Node) :
    List EncodeCall :=
  brigades.zipIdx.filterMap fun b =>
    if t.FirstAt (pins.target b.1) k then some ⟨b.2, k, b.1, pins.target b.1, n.routerKey⟩ else none

theorem buildPlan_of_placeable (fits : Placeable t pins brigades) (realmFingerprint : String)
    (policy : PlacementPolicy) (encoded : EncodeCall → PreparedSnapshot) :
    (buildPlan t realmFingerprint ⟨.mirrored, policy, pins⟩ (fun c => .ok (encoded c))
      brigades).result = .ok (.serving t realmFingerprint fun k n =>
        (callsFor t pins brigades k n).map encoded) := by
  simp only [buildPlan_result, Assignment.make, mirrored_of_placeable fits, places,
    Assignment.calls_placeAt]
  refine congrArg Except.ok (RestorePlan.serving_congr fun k n hn => ?_)
  rw [EncodeCall.gained_ok, EncodeCall.filter_atPlaces_home hn fits.declared, callsFor]

theorem buildPlan_of_misfit {before after : List Brigade} {b : Brigade} {e : Error}
    (fits : Placeable t pins before)
    (refused : t.findFree ((before.map pins.target).reverse.map t.home) b.id
      (pins.target b) = .error e) (realmFingerprint : String) (encode : SlotEncoder) :
    (buildPlan t realmFingerprint ⟨.mirrored, .fatal, pins⟩ encode
      (before ++ b :: after)).result = .error e := by
  simp only [buildPlan_result, Assignment.make, mirrored_of_misfit fits refused]

/-- A pin that was accepted exists. -/
theorem get?_eq_none_of_nowhere (fit : pins.Fit t) {b : Brigade}
    (h : ¬ t.Declares (pins.target b)) : pins.get? b.id = none := by
  cases pin : pins.get? b.id with
  | none => rfl
  | some address =>
    rw [CheckedPins.target, pin, Option.getD_some] at h
    exact absurd (fit.declares pin) h

/-- **Brigades keep their targets, as in the reference.** With pins that the topology has
accepted and an encoder that never fails, a run in which misfits are fatal succeeds exactly
if all targets exist and no two are the same. Its plan then serves, on each node, the calls
of the reference; otherwise the error is that of the first misfit, and a brigade whose
target does not exist has no pin. -/
theorem buildPlan_mirrored {given : Pins} {ids : List String}
    (accepted : (t.checkPins given ids).result = .ok pins) (realmFingerprint : String)
    (encoded : EncodeCall → PreparedSnapshot) (brigades : List Brigade) :
    let result := (buildPlan t realmFingerprint ⟨.mirrored, .fatal, pins⟩
      (fun c => .ok (encoded c)) brigades).result
    ((∃ plan, result = .ok plan) ↔ Placeable t pins brigades) ∧
      (Placeable t pins brigades → result = .ok (.serving t realmFingerprint fun k n =>
        (callsFor t pins brigades k n).map encoded)) ∧
      (¬ Placeable t pins brigades → ∃ before b after, brigades = before ++ b :: after ∧
        Placeable t pins before ∧
        (¬ t.Declares (pins.target b) ∧ pins.get? b.id = none ∧
            result = .error (.mirroredNotFound (pins.target b) b.id) ∨
          t.Declares (pins.target b) ∧ pins.target b ∈ before.map pins.target ∧
            result = .error (.mirroredDuplicated (pins.target b) b.id))) := by
  intro result
  have fit : pins.Fit t := (Topology.checkPins_ok_iff.mp accepted).2
  have refuses (h : ¬ Placeable t pins brigades) :
      ∃ before b after, brigades = before ++ b :: after ∧ Placeable t pins before ∧
        (¬ t.Declares (pins.target b) ∧ pins.get? b.id = none ∧
            result = .error (.mirroredNotFound (pins.target b) b.id) ∨
          t.Declares (pins.target b) ∧ pins.target b ∈ before.map pins.target ∧
            result = .error (.mirroredDuplicated (pins.target b) b.id)) := by
    obtain ⟨before, b, after, rfl, fits, misfit⟩ := exists_misfit h
    refine ⟨before, b, after, rfl, fits, ?_⟩
    by_cases there : t.Declares (pins.target b)
    · have taken : pins.target b ∈ before.map pins.target :=
        misfit.resolve_left (not_not_intro there)
      exact .inr ⟨there, taken, buildPlan_of_misfit fits
        (findFree_taken b.id there (List.mem_reverse.mpr taken)) _ _⟩
    · exact .inl ⟨there, get?_eq_none_of_nowhere fit there,
        buildPlan_of_misfit fits (findFree_nowhere b.id there) _ _⟩
  refine ⟨⟨?_, fun fits => ⟨_, buildPlan_of_placeable fits _ _ _⟩⟩,
    fun fits => buildPlan_of_placeable fits _ _ _, refuses⟩
  rintro ⟨plan, hp⟩
  by_contra h
  obtain ⟨before, b, after, -, -, ⟨-, -, he⟩ | ⟨-, -, he⟩⟩ := refuses h
  · rw [he] at hp
    cases hp
  · rw [he] at hp
    cases hp

/-- Two nodes have the address that a brigade keeps, and a pin sends another brigade to
the address that a third one leaves. -/
theorem buildPlan_mirrored_shared :
    let a (d : UInt8) : Ipv4 := ⟨10, 0, 0, d⟩
    let t : Topology := ⟨"r", [⟨"n0", default, [a 5, a 6]⟩, ⟨"n1", default, [a 6, a 7]⟩]⟩
    let given : Pins := .ofList [("y", a 5), ("z", a 7)]
    let brigades : List Brigade := [.named "x" (a 6), .named "y" (a 7), .named "z" (a 9)]
    (t.checkPins given ["x", "y", "z"]).result = .ok ⟨given⟩ ∧
      (buildPlan t "f" ⟨.mirrored, .fatal, ⟨given⟩⟩ (fun c => .ok c.stub) brigades).result =
        .ok ⟨"r", "f", [⟨"n0", [⟨"x", a 6, [""], "", ""⟩, ⟨"y", a 5, [""], "", ""⟩]⟩,
          ⟨"n1", [⟨"z", a 7, [""], "", ""⟩]⟩]⟩ := by
  intro a t given brigades
  have accepted : (t.checkPins given ["x", "y", "z"]).result = .ok ⟨given⟩ := by decide
  have fits : Placeable t ⟨given⟩ brigades := by
    refine ⟨fun b hb => Topology.locate_isSome_iff.mp ?_, by decide⟩
    revert b
    decide
  exact ⟨accepted, ((buildPlan_mirrored accepted "f" EncodeCall.stub brigades).2.1 fits).trans
    (by decide)⟩

end Rehoming.Mirrored
