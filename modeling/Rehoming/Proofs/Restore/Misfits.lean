import Rehoming.Proofs.Placement.Pinned
import Rehoming.Proofs.Restore.Objections
import Rehoming.Proofs.Restore.Skipping

/-! Runs that go on without misfits. A brigade that finds its target missing or taken only costs
such a run this brigade. Main statement: pins are not treated so. They are checked before it is
known which brigades fit, and one that is missing or asked for twice ends the run all the same. -/

namespace Rehoming

/-- The errors of brigades that cannot have the address that they should have. -/
inductive Error.OfPlacement : Error → Prop where
  | mirroredNotFound (address : Ipv4) (id : String) : OfPlacement (.mirroredNotFound address id)
  | mirroredDuplicated (address : Ipv4) (id : String) : OfPlacement (.mirroredDuplicated address id)
  | pinNotFound (address : Ipv4) (id : String) : OfPlacement (.pinNotFound address id)
  | pinDuplicated (address : Ipv4) (id : String) : OfPlacement (.pinDuplicated address id)

/-! ## While brigades are placed -/

/-- Why a brigade is left without a place: no node has its target, or another brigade is there. -/
inductive Assignment.Refuses (t : Topology) (steps : List Step) (b : Brigade) (address : Ipv4) :
    Error → Prop where
  | nowhere (missing : ¬ t.Declares address) :
      Refuses t steps b address (.mirroredNotFound address b.id)
  | taken {node : Nat} {other : Brigade} (there : .place node address other ∈ steps) :
      Refuses t steps b address (.mirroredDuplicated address b.id)

theorem Assignment.Refuses.mono {t : Topology} {steps more : List Step} {b : Brigade}
    {address : Ipv4} {e : Error} (sub : steps ⊆ more) (h : Refuses t steps b address e) :
    Refuses t more b address e := by
  cases h with
  | nowhere missing => exact .nowhere missing
  | taken there => exact .taken (sub there)

namespace Mirrored

variable {t : Topology} {pins : CheckedPins} {policy : PlacementPolicy}

/-- A run that is to go on without misfits decides about all brigades. -/
theorem complete_of_skip (used : List (Nat × Ipv4)) (brigades : List Brigade) :
    (Assignment.mirrored t pins .skip used brigades).failure = none := by
  induction brigades generalizing used with
  | nil => rfl
  | cons b rest ih =>
    rw [Assignment.mirrored]
    split
    · exact ih _
    · exact ih used

/-- The step that refuses a brigade has a reason for it, among the places that were taken at the
start or those that the run gives out. -/
theorem refuses {used : List (Nat × Ipv4)} {brigades : List Brigade} {b : Brigade}
    {address : Ipv4} {e : Error}
    (h : .refuse b address e ∈ (Assignment.mirrored t pins policy used brigades).steps) :
    address = pins.target b ∧
      (Assignment.Refuses t (Assignment.mirrored t pins policy used brigades).steps b address e ∨
        e = .mirroredDuplicated address b.id ∧ ∃ node, (node, address) ∈ used) := by
  induction brigades generalizing used with
  | nil => cases h
  | cons first rest ih =>
    rw [Assignment.mirrored] at h ⊢
    cases found : t.findFree used first.id (pins.target first) with
    | ok node =>
      simp only [found, Assignment.push] at h ⊢
      obtain own | h := List.mem_cons.mp h
      · cases own
      obtain ⟨aimed, why | ⟨same, node', earlier⟩⟩ := ih h
      · exact ⟨aimed, .inl (why.mono (List.subset_cons_self _ _))⟩
      obtain here | earlier := List.mem_cons.mp earlier
      · cases here
        subst same
        exact ⟨aimed, .inl (.taken (List.mem_cons_self))⟩
      · exact ⟨aimed, .inr ⟨same, node', earlier⟩⟩
    | error cause =>
      cases policy with
      | fatal =>
        simp only [found] at h
        cases h
      | skip =>
        simp only [found, Assignment.push] at h ⊢
        obtain own | h := List.mem_cons.mp h
        · cases own
          obtain ⟨rfl, missing⟩ | taken := Topology.findFree_error found
          · exact ⟨rfl, .inl (.nowhere missing)⟩
          · exact ⟨rfl, .inr taken⟩
        · obtain ⟨aimed, why | earlier⟩ := ih h
          · exact ⟨aimed, .inl (why.mono (List.subset_cons_self _ _))⟩
          · exact ⟨aimed, .inr earlier⟩

end Mirrored

namespace Assignment

variable {t : Topology} {pins : CheckedPins} {mode : PlacementMode} {brigades : List Brigade}

/-- With pins that are in order, a run that is to go on without misfits only ends early where it
fills slots in order and runs out of them. -/
theorem failure_of_skip (fit : pins.Fit t) {e : Error}
    (failed : (make t mode .skip pins brigades).failure = some e) :
    mode = .sequential ∧ e = .reservationTooSmall brigades.length t.totalSlots := by
  cases mode with
  | mirrored =>
    rw [make, Mirrored.complete_of_skip] at failed
    cases failed
  | sequential =>
    rw [make, Sequential.sequential_eq fit] at failed
    dsimp only at failed
    split at failed
    · cases failed
    · cases failed
      exact ⟨rfl, rfl⟩

theorem make_refuses {policy : PlacementPolicy} {b : Brigade} {address : Ipv4} {e : Error}
    (h : .refuse b address e ∈ (make t mode policy pins brigades).steps) :
    address = pins.target b ∧
      Refuses t (make t mode policy pins brigades).steps b address e := by
  obtain ⟨rfl, -⟩ := refused_of_place?_eq_none h rfl
  obtain ⟨aimed, why | ⟨-, node, none⟩⟩ := Mirrored.refuses h
  · exact ⟨aimed, why⟩
  · cases none

end Assignment

/-! ## Before -/

/-- What is objected to a pin: no node has its address, or a pin before it asks for the same. -/
inductive Reservation.Denies (r : Reservation) (entries : List (String × Ipv4)) : Error → Prop where
  | nowhere {id : String} {address : Ipv4} (there : (id, address) ∈ entries)
      (missing : ¬ r.Declares address) : Denies r entries (.pinNotFound address id)
  | again {first id : String} {address : Ipv4}
      (both : [(first, address), (id, address)].Sublist entries) :
      Denies r entries (.pinDuplicated address id)

theorem Reservation.Denies.cons {r : Reservation} {entries : List (String × Ipv4)} {e : Error}
    (h : r.Denies entries e) (entry : String × Ipv4) : r.Denies (entry :: entries) e := by
  cases h with
  | nowhere there missing => exact .nowhere (List.mem_cons_of_mem _ there) missing
  | again both => exact .again (both.cons entry)

theorem Reservation.denies_of_mem_pinFlaws {r : Reservation} {asked : List Ipv4}
    {entries : List (String × Ipv4)} {e : Error} (h : e ∈ r.pinFlaws asked entries) :
    r.Denies entries e ∨
      ∃ id address, address ∈ asked ∧ (id, address) ∈ entries ∧ e = .pinDuplicated address id := by
  induction entries generalizing asked with
  | nil => cases h
  | cons entry rest ih =>
    obtain ⟨id, address⟩ := entry
    rcases List.mem_append.mp h with own | later
    · split at own
      · rename_i missing
        cases List.mem_singleton.mp own
        exact .inl (.nowhere List.mem_cons_self missing)
      · split at own
        · rename_i early
          exact .inr ⟨id, address, early, List.mem_cons_self, List.mem_singleton.mp own⟩
        · cases own
    · rcases ih later with denied | ⟨id', address', early, there, rfl⟩
      · exact .inl (denied.cons _)
      · rcases List.mem_cons.mp early with rfl | early
        · exact .inl (.again ((List.singleton_sublist.mpr there).cons_cons _))
        · exact .inr ⟨id', address', early, List.mem_cons_of_mem _ there, rfl⟩

theorem Bundle.mem_objections {b : Bundle} {r : Reservation} {given : Pins} {fingerprint : String}
    {force : Bool} {c : Checkpoint} {e : Error}
    (h : (c, e) ∈ b.objections r given fingerprint force) :
    e ∈ c.objections b r given fingerprint force := by
  obtain ⟨c', -, raised⟩ := List.mem_flatMap.mp h
  obtain ⟨e', raised, same⟩ := List.mem_map.mp raised
  cases same
  exact raised

theorem Bundle.denies_of_objection {b : Bundle} {r : Reservation} {given : Pins}
    {fingerprint : String} {force : Bool} {e : Error}
    (h : (.pins, e) ∈ b.objections r given fingerprint force) :
    r.Denies (keptPins b.brigadeIds given.entries) e := by
  obtain denied | ⟨id, address, none, -⟩ :=
    Reservation.denies_of_mem_pinFlaws (Bundle.mem_objections h)
  · exact denied
  · cases none

/-- Only the check of the pins objects with errors of placement. -/
theorem Bundle.objection_of_pins {b : Bundle} {r : Reservation} {given : Pins}
    {fingerprint : String} {force : Bool} {c : Checkpoint} {e : Error} (kind : e.OfPlacement)
    (h : (c, e) ∈ b.objections r given fingerprint force) : c = .pins := by
  have raised := Bundle.mem_objections h
  cases c with
  | bundle =>
    cases kind <;> simp [Checkpoint.objections, Bundle.flaws] at raised
  | exports =>
    cases kind <;> simp [Checkpoint.objections] at raised
  | capacity =>
    cases kind <;> simp [Checkpoint.objections] at raised
  | routerKeys =>
    obtain ⟨n, -, refused⟩ := List.mem_filterMap.mp raised
    split at refused
    · cases refused
    · cases refused
      cases kind
  | pins => rfl

/-! ## Over a run -/

section Runs

variable {suite : CipherSuite} {entropy : Entropy} {keys : RunKeys} {options : RunOptions}
  {r : Reservation} {given : Pins} {b : Bundle}

/-- A run that is to go on without misfits ends in an error of placement exactly if such an error
is the first objection. -/
theorem createRestorePlan_misfit_iff (skip : options.policy = .skip) {e : Error}
    (kind : e.OfPlacement) :
    (createRestorePlan suite entropy keys options r given b).result = .error e ↔
      (b.objections r given keys.authority.fingerprint options.force).head? =
        some (.pins, e) := by
  have heeds := b.screen_heeds r given keys.authority.fingerprint options.force e
  rw [List.head?_map] at heeds
  constructor
  · intro failed
    rcases createRestorePlan_error_iff.mp failed with early | ⟨t, pins, passed, late⟩
    · obtain ⟨⟨c, e'⟩, first, rfl⟩ := Option.map_eq_some_iff.mp (heeds.mp early)
      cases Bundle.objection_of_pins kind (List.mem_of_head? first)
      exact first
    · rcases late with closed | ⟨brigades, -, failed⟩
      · obtain ⟨reason, rfl | rfl⟩ | ⟨id, cause, rfl⟩ := Bundle.decodeAll_error closed <;>
          cases kind
      · obtain ⟨-, -, -, -, accepted⟩ := Bundle.screen_ok_iff.mp passed
        have fit := (Topology.checkPins_ok_iff.mp accepted).2
        rw [skip] at failed
        obtain ⟨-, rfl⟩ := Assignment.failure_of_skip fit failed
        cases kind
  · intro first
    refine createRestorePlan_error_iff.mpr (.inl (heeds.mpr ?_))
    rw [first, Option.map_some]

end Runs

/-- **Going on without misfits does not extend to pins.** In a run that is told to, the errors of
placement it can end in are those of pins, and it does exactly if one is the first objection: no
node has the address of a pin, or an earlier pin asks for the same. Behind the checks it decides
about every brigade and ends for want of slots at most. Each brigade that finds its target missing
or taken is reported with the reason, and the plan is that of all the others. -/
theorem createRestorePlan_tolerates (suite : CipherSuite) (entropy : Entropy) (keys : RunKeys)
    (options : RunOptions) (r : Reservation) (given : Pins) (b : Bundle) :
    let run := createRestorePlan suite entropy keys { options with policy := .skip } r given b
    let objections := b.objections r given keys.authority.fingerprint options.force
    let encode := snapshotEncoder suite keys.master keys.destination r.id entropy
    (∀ e, e.OfPlacement → (run.result = .error e ↔ objections.head? = some (.pins, e))) ∧
    (∀ e, (.pins, e) ∈ objections → r.Denies (keptPins b.brigadeIds given.entries) e) ∧
    ∀ t pins brigades,
      (b.screen r given keys.authority.fingerprint options.force).result = .ok (t, pins) →
      (b.decode suite keys.authority options.limit).result = .ok brigades →
      let a := Assignment.make t options.mode .skip pins brigades
      options.mode = .sequential ∧
          run.result = .error (.reservationTooSmall brigades.length t.totalSlots) ∨
        ∃ plan, run.result = .ok plan ∧ (a.steps.map Step.brigade).Perm brigades ∧
          plan.snapshots.Perm ((a.calls t).filterMap fun c => (encode c).toOption) ∧
          ∀ c address e, .refuse c address e ∈ a.steps → address = pins.target c ∧
            Assignment.Refuses t a.steps c address e ∧ .notPlaced c.id address e ∈ run.events := by
  intro run objections encode
  refine ⟨fun e kind => createRestorePlan_misfit_iff rfl kind,
    fun e raised => Bundle.denies_of_objection raised, ?_⟩
  intro t pins brigades passed decoded a
  have opened : (b.decodeAll suite keys.authority { options with policy := .skip }).result =
      .ok brigades := Bundle.decodeAll_ok_iff.mpr decoded
  obtain ⟨-, -, -, known, accepted⟩ := Bundle.screen_ok_iff.mp passed
  have fit := (Topology.checkPins_ok_iff.mp accepted).2
  cases ended : a.failure with
  | some e =>
    obtain ⟨sequential, rfl⟩ := Assignment.failure_of_skip fit ended
    exact .inl ⟨sequential,
      createRestorePlan_error_iff.mpr (.inr ⟨t, pins, passed, .inr ⟨brigades, opened, ended⟩⟩)⟩
  | none =>
    obtain ⟨plan, planned⟩ : ∃ plan, (buildPlan t keys.realmFingerprint
        ⟨options.mode, .skip, pins⟩ (snapshotEncoder suite keys.master keys.destination
          t.reservationId entropy) brigades).result = .ok plan :=
      ⟨_, buildPlan_ok_iff.mpr ⟨ended, rfl⟩⟩
    have whole : run.result = .ok plan := Logged.bind_ok_iff.mpr ⟨_, passed,
      Logged.bind_ok_iff.mpr ⟨(), rfl, Logged.bind_ok_iff.mpr ⟨_, opened, planned⟩⟩⟩
    refine .inr ⟨plan, whole, Assignment.make_brigades ended, ?_, fun c address e refused => ?_⟩
    · rw [Topology.ofReservation_id known] at planned
      exact buildPlan_snapshots_perm planned
    · obtain ⟨aimed, why⟩ := Assignment.make_refuses refused
      exact ⟨aimed, why, Logged.mem_events_bind passed (Logged.mem_events_bind (a := ()) rfl
        (Logged.mem_events_bind opened (buildPlan_reports planned refused)))⟩

/-! ## Small runs -/

open SmallRun in
/-- The brigade cannot keep its address, and a mirrored run goes on without it. -/
theorem createRestorePlan_tolerates_nowhere :
    let e : Error := .mirroredNotFound ⟨10, 0, 0, 1⟩ "b"
    let options : RunOptions := { RunOptions.default with mode := .mirrored, policy := .skip }
    ∃ bundle plan, exporter.bundle .plain ⟨[]⟩ [brigade] = .ok bundle ∧
      let run := createRestorePlan .plain ⟨[]⟩ keys options reservation .empty bundle
      run.result = .ok plan ∧ plan.snapshots.Perm [] ∧
        .notPlaced "b" ⟨10, 0, 0, 1⟩ e ∈ run.events := by
  intro e options
  have only {p : Brigade → Prop} (h : p brigade) : ∀ b ∈ [brigade], p b := by
    intro b hb
    rw [List.mem_singleton.mp hb]
    exact h
  obtain ⟨bundle, bundled, checked, complete, size⟩ := SmallRun.bundled
  have decoded := Bundle.decode_of_fits (x := exporter) CipherSuite.plain_opensPayloads
    (CipherSuite.plain_unwraps authority) (by decide) (only brigade_canonical)
    (only brigade_integral)
    (only (by decide +kernel) : ∀ b ∈ [brigade], Zstd.Fits options.limit b.toBytes) bundled
  have passed : (bundle.screen reservation .empty keys.authority.fingerprint options.force).result =
      .ok (topology, ⟨.empty⟩) := by
    refine Bundle.screen_ok_iff.mpr ⟨checked, fun failed => ?_, ?_, by decide +kernel, rfl⟩
    · rw [complete] at failed
      cases failed
    · rw [size]
      decide
  obtain ⟨-, -, behind⟩ :=
    createRestorePlan_tolerates .plain ⟨[]⟩ keys options reservation .empty bundle
  obtain ⟨other, -⟩ | ⟨plan, planned, -, held, refused⟩ := behind _ _ _ passed decoded
  · cases other
  · obtain ⟨-, -, reported⟩ := refused brigade ⟨10, 0, 0, 1⟩ e (.head _)
    exact ⟨bundle, plan, bundled, planned, held, reported⟩

open SmallRun in
/-- The same run with a pin outside of the reservation ends. -/
theorem createRestorePlan_pin_fatal :
    let options : RunOptions := { RunOptions.default with mode := .mirrored, policy := .skip }
    ∃ bundle, exporter.bundle .plain ⟨[]⟩ [brigade] = .ok bundle ∧
      (createRestorePlan .plain ⟨[]⟩ keys options reservation (.ofList [("b", ⟨10, 0, 0, 9⟩)])
        bundle).result = .error (.pinNotFound ⟨10, 0, 0, 9⟩ "b") := by
  intro options
  refine ⟨_, rfl, (createRestorePlan_misfit_iff rfl (.pinNotFound _ _)).mpr ?_⟩
  decide +kernel

end Rehoming
