import Mathlib.Data.List.Dedup
import Mathlib.Data.List.Perm.Subperm
import Rehoming.Proofs.Placement.Contents
import Rehoming.Proofs.Restore.Refusals
import Rehoming.Proofs.Restore.Runs

/-! When a reservation turns out to be too small. The check made in advance counts every slot
that a reservation lists, but a node serves each of its slots once: where a node lists a slot
twice, the check can pass and the slots can still run out. Main statement: exactly when and with
which numbers a run ends so, and that nothing but slots listed twice makes it end so late. -/

namespace Rehoming

/-! ## Counting slots -/

/-- How many slots a reservation has if each node has each of its slots once. -/
def Reservation.distinctSlots (r : Reservation) : Nat :=
  (r.nodes.flatMap fun n => n.slots.dedup).length

/-- The two numbers differ exactly if some node lists a slot twice. -/
theorem Reservation.distinctSlots_eq_iff {r : Reservation} :
    r.distinctSlots = r.totalSlots ↔ ∀ n ∈ r.nodes, n.slots.Nodup := by
  obtain ⟨id, nodes⟩ := r
  suffices h : (nodes.flatMap fun n => n.slots.dedup).length ≤
        (nodes.flatMap fun n => n.slots).length ∧
      ((nodes.flatMap fun n => n.slots.dedup).length = (nodes.flatMap fun n => n.slots).length ↔
        ∀ n ∈ nodes, n.slots.Nodup) from h.2
  induction nodes with
  | nil => simp
  | cons n rest ih =>
    have once := List.dedup_sublist n.slots
    have same : n.slots.dedup.length = n.slots.length ↔ n.slots.Nodup :=
      ⟨fun h => List.dedup_eq_self.mp (once.eq_of_length h),
        fun h => congrArg List.length (List.dedup_eq_self.mpr h)⟩
    have fewer := once.length_le
    simp only [List.flatMap_cons, List.length_append, List.forall_mem_cons]
    rw [← ih.2, ← same]
    omega

namespace Topology

/-- The slots of all nodes, in order, each of a node's slots once. -/
def distinct (t : Topology) : List (Nat × Ipv4) :=
  t.nodes.zipIdx.flatMap fun n => n.1.slots.dedup.map fun slot => (n.2, slot)

theorem distinct_subset (t : Topology) : t.distinct ⊆ t.slots := by
  intro slot hs
  obtain ⟨n, hn, hs⟩ := List.mem_flatMap.mp hs
  obtain ⟨address, ha, rfl⟩ := List.mem_map.mp hs
  exact List.mem_flatMap.mpr ⟨n, hn, List.mem_map_of_mem (List.mem_dedup.mp ha)⟩

theorem distinct_nodup (t : Topology) : t.distinct.Nodup := by
  have numbers : (t.nodes.zipIdx.map Prod.snd).Nodup := by
    rw [List.zipIdx_map_snd]
    exact List.nodup_range'
  refine List.nodup_flatMap.mpr ⟨fun n _ => ?_, (List.pairwise_map.mp numbers).imp ?_⟩
  · exact (List.nodup_dedup _).map fun _ _ same => congrArg Prod.snd same
  · intro n m different slot hn hm
    obtain ⟨_, -, rfl⟩ := List.mem_map.mp hn
    obtain ⟨_, -, same⟩ := List.mem_map.mp hm
    exact different (congrArg Prod.fst same).symm

/-- A topology has the slots that its reservation lists. -/
theorem ofReservation_slots {r : Reservation} {t : Topology} (known : ofReservation r = .ok t) :
    t.nodes.map (·.slots) = r.nodes.map (·.slots) := by
  obtain ⟨nodes, read, made⟩ := bind_ok_iff.mp known
  cases made
  rw [eq_comm, ← List.forall₂_eq_eq_eq, List.forall₂_map_left_iff, List.forall₂_map_right_iff]
  exact (mapM_ok_iff.mp read).imp fun host n made => (nodeOf_ok made).2.2

theorem ofReservation_totalSlots {r : Reservation} {t : Topology}
    (known : ofReservation r = .ok t) : t.totalSlots = r.totalSlots := by
  simp only [totalSlots, Reservation.totalSlots, List.flatMap_def, ofReservation_slots known]

theorem ofReservation_distinct {r : Reservation} {t : Topology} (known : ofReservation r = .ok t) :
    t.distinct.length = r.distinctSlots := by
  have counts : (t.nodes.map fun n => n.slots.dedup.length) =
      r.nodes.map fun n => n.slots.dedup.length := by
    have := congrArg (List.map fun slots => slots.dedup.length) (ofReservation_slots known)
    simpa only [List.map_map, Function.comp_def] using this
  rw [Reservation.distinctSlots, List.length_flatMap, ← counts, distinct, List.length_flatMap]
  conv_rhs => rw [← List.zipIdx_map_fst 0 t.nodes, List.map_map]
  simp only [List.length_map, Function.comp_def]

end Topology

/-! ## Running out of slots -/

namespace Sequential

variable {t : Topology} {pins : CheckedPins} {brigades : List Brigade}

/-- A slot is free, or one of the pinned brigades has it. -/
theorem mem_free_or {slot : Nat × Ipv4} (h : slot ∈ t.slots) :
    slot ∈ free t pins brigades ∨
      slot ∈ (fixed pins brigades).map fun b => t.home (pins.target b) := by
  by_cases taken : (fixed pins brigades).any fun b =>
      decide (pins.get? b.id = some slot.2 ∧ t.FirstAt slot.2 slot.1)
  · obtain ⟨b, hb, here⟩ := List.any_eq_true.mp taken
    obtain ⟨pin, first⟩ := of_decide_eq_true here
    refine .inr (List.mem_map.mpr ⟨b, hb, ?_⟩)
    rw [CheckedPins.target, pin, Option.getD_some, Topology.home_eq first]
  · refine .inl (List.mem_filter.mpr ⟨List.mem_eraseDups.mpr h, ?_⟩)
    simpa using taken

/-- Each pinned brigade takes one slot at most. -/
theorem length_distinct_le (t : Topology) (pins : CheckedPins) (brigades : List Brigade) :
    t.distinct.length ≤ (free t pins brigades).length + (fixed pins brigades).length := by
  have covered : t.distinct ⊆ free t pins brigades ++
      (fixed pins brigades).map fun b => t.home (pins.target b) := fun slot hs =>
    List.mem_append.mpr (mem_free_or (t.distinct_subset hs))
  have counted := (List.subperm_of_subset t.distinct_nodup covered).length_le
  rwa [List.length_append, List.length_map] at counted

/-- Where free slots run out, there are more brigades than different slots. -/
theorem length_distinct_lt
    (more : (free t pins brigades).length < (queue pins brigades).length) :
    t.distinct.length < brigades.length := by
  have counted := length_distinct_le t pins brigades
  have parts : (fixed pins brigades).length + (queue pins brigades).length = brigades.length :=
    length_fixed_add_queue
  omega

end Sequential

/-- Slots run out exactly where more brigades are queued than slots are free. -/
theorem Assignment.make_tooSmall_iff {t : Topology} {pins : CheckedPins} (fit : pins.Fit t)
    {mode : PlacementMode} {policy : PlacementPolicy} {brigades : List Brigade}
    {snapshots slots : Nat} :
    (make t mode policy pins brigades).failure = some (.reservationTooSmall snapshots slots) ↔
      mode = .sequential ∧
        (Sequential.free t pins brigades).length < (Sequential.queue pins brigades).length ∧
        snapshots = brigades.length ∧ slots = t.totalSlots := by
  cases mode with
  | mirrored =>
    refine iff_of_false (fun failed => ?_) nofun
    obtain ⟨address, id, other | other⟩ := mirrored_failure failed <;> cases other
  | sequential =>
    rw [make, Sequential.sequential_eq fit, ← Nat.not_le]
    by_cases room : (Sequential.queue pins brigades).length ≤
        (Sequential.free t pins brigades).length
    · simp [room]
    · simp [room, eq_comm]

/-! ## Whole runs -/

/-- Without secrets, a reservation is only found too small if it is. -/
theorem Bundle.screen_tooSmall {b : Bundle} {r : Reservation} {given : Pins} {fingerprint : String}
    {force : Bool} {snapshots slots : Nat}
    (h : (b.screen r given fingerprint force).result =
      .error (.reservationTooSmall snapshots slots)) :
    snapshots = b.envelopes.length ∧ slots = r.totalSlots ∧ slots < snapshots := by
  unfold Bundle.screen at h
  rcases Logged.bind_error_iff.mp h with unchecked | ⟨⟨⟩, -, h⟩
  · obtain ⟨reason, other | other⟩ := checkIn_error unchecked <;> cases other
  obtain exported | h := Logged.error_of_check h
  · cases exported
  rcases Logged.bind_error_iff.mp h with short | ⟨⟨⟩, -, h⟩
  · rw [Logged.lift, checkCapacity] at short
    split at short
    · rename_i less
      cases short
      exact ⟨rfl, rfl, less⟩
    · cases short
  rcases Logged.bind_error_iff.mp h with unknown | ⟨t, -, h⟩
  · obtain ⟨reason, other⟩ := Topology.ofReservation_error unknown
    cases other
  rcases Logged.bind_error_iff.mp h with unfit | ⟨pins, -, h⟩
  · obtain ⟨address, id, other | other⟩ := Topology.checkPins_error unfit <;> cases other
  · cases h

/-- A sequential run that has decoded more brigades than there is room for. -/
theorem createRestorePlan_runsOut {suite : CipherSuite} {entropy : Entropy} {keys : RunKeys}
    {options : RunOptions} {r : Reservation} {given : Pins} {b : Bundle} {t : Topology}
    {pins : CheckedPins} {brigades : List Brigade} (sequential : options.mode = .sequential)
    (passed : (b.screen r given keys.authority.fingerprint options.force).result = .ok (t, pins))
    (decoded : (b.decode suite keys.authority options.limit).result = .ok brigades)
    (more : (Sequential.free t pins brigades).length < (Sequential.queue pins brigades).length) :
    (createRestorePlan suite entropy keys options r given b).result =
      .error (.reservationTooSmall b.envelopes.length r.totalSlots) := by
  obtain ⟨-, -, -, known, accepted⟩ := Bundle.screen_ok_iff.mp passed
  have fit := (Topology.checkPins_ok_iff.mp accepted).2
  refine Logged.bind_error_iff.mpr (.inr ⟨(t, pins), passed, ?_⟩)
  refine Logged.bind_error_iff.mpr (.inr ⟨(), rfl, ?_⟩)
  refine Logged.bind_error_iff.mpr (.inr ⟨brigades, Bundle.decodeAll_ok_iff.mpr decoded,
    buildPlan_error_iff.mpr ?_⟩)
  refine (Assignment.make_tooSmall_iff fit).mpr ⟨sequential, more, ?_, ?_⟩
  · exact (Bundle.length_decode decoded).symm
  · exact (Topology.ofReservation_totalSlots known).symm

/-- A run finds its reservation too small before it uses a secret, or after all is decoded. -/
theorem createRestorePlan_tooSmall {suite : CipherSuite} {entropy : Entropy} {keys : RunKeys}
    {options : RunOptions} {r : Reservation} {given : Pins} {b : Bundle} {snapshots slots : Nat}
    (failed : (createRestorePlan suite entropy keys options r given b).result =
      .error (.reservationTooSmall snapshots slots)) :
    let admitted := b.screen r given keys.authority.fingerprint options.force
    snapshots = b.envelopes.length ∧ slots = r.totalSlots ∧
      (slots < snapshots ∧ admitted.result = .error (.reservationTooSmall snapshots slots) ∨
        snapshots ≤ slots ∧ r.distinctSlots < snapshots ∧ options.mode = .sequential ∧
          ∃ t pins brigades, admitted.result = .ok (t, pins) ∧
            (b.decode suite keys.authority options.limit).result = .ok brigades ∧
            (Sequential.free t pins brigades).length <
              (Sequential.queue pins brigades).length) := by
  rcases Logged.bind_error_iff.mp failed with early | ⟨⟨t, pins⟩, passed, late⟩
  · obtain ⟨all, listed, less⟩ := Bundle.screen_tooSmall early
    exact ⟨all, listed, .inl ⟨less, early⟩⟩
  rcases Logged.bind_error_iff.mp late with none | ⟨⟨⟩, -, late⟩
  · cases none
  rcases Logged.bind_error_iff.mp late with undecoded | ⟨brigades, decoded, late⟩
  · obtain ⟨reason, other | other⟩ | ⟨id, cause, other⟩ := Bundle.decodeAll_error undecoded <;>
      cases other
  replace decoded := Bundle.decodeAll_ok_iff.mp decoded
  obtain ⟨-, -, room, known, accepted⟩ := Bundle.screen_ok_iff.mp passed
  have fit := (Topology.checkPins_ok_iff.mp accepted).2
  obtain ⟨sequential, more, rfl, rfl⟩ :=
    (Assignment.make_tooSmall_iff fit).mp (buildPlan_error_iff.mp late)
  have all := Bundle.length_decode decoded
  have listed := Topology.ofReservation_totalSlots known
  have fewer := Sequential.length_distinct_lt more
  rw [Topology.ofReservation_distinct known] at fewer
  rw [← all, ← listed] at room
  exact ⟨all, listed, .inr ⟨room, fewer, sequential, t, pins, brigades, passed, decoded, more⟩⟩

/-- Where no node lists a slot twice, the check made in advance has the last word. -/
theorem createRestorePlan_tooSmall_of_nodup {suite : CipherSuite} {entropy : Entropy}
    {keys : RunKeys} {options : RunOptions} {r : Reservation} {given : Pins} {b : Bundle}
    {snapshots slots : Nat} (once : ∀ n ∈ r.nodes, n.slots.Nodup)
    (failed : (createRestorePlan suite entropy keys options r given b).result =
      .error (.reservationTooSmall snapshots slots)) :
    b.checkCapacity r = .error (.reservationTooSmall snapshots slots) := by
  obtain ⟨rfl, rfl, ⟨less, -⟩ | ⟨enough, fewer, -⟩⟩ := createRestorePlan_tooSmall failed
  · rw [Bundle.checkCapacity, if_pos less]
  · rw [Reservation.distinctSlots_eq_iff.mpr once] at fewer
    exact absurd fewer (Nat.not_lt.mpr enough)

/-- **When a reservation is too small.** A run says so, and always with the numbers of envelopes
and of listed slots, in two cases. Either there are more envelopes than slots, and no secret is
used; or the run is sequential, and when all envelopes are decoded more brigades are queued than
slots are free. This comes in spite of as many slots as envelopes, and only where there are more
envelopes than different slots. -/
theorem createRestorePlan_tooSmall_iff {suite : CipherSuite} {entropy : Entropy} {keys : RunKeys}
    {options : RunOptions} {r : Reservation} {given : Pins} {b : Bundle} {snapshots slots : Nat} :
    let admitted := b.screen r given keys.authority.fingerprint options.force
    (createRestorePlan suite entropy keys options r given b).result =
        .error (.reservationTooSmall snapshots slots) ↔
      snapshots = b.envelopes.length ∧ slots = r.totalSlots ∧
        (slots < snapshots ∧ admitted.result = .error (.reservationTooSmall snapshots slots) ∨
          snapshots ≤ slots ∧ r.distinctSlots < snapshots ∧ options.mode = .sequential ∧
            ∃ t pins brigades, admitted.result = .ok (t, pins) ∧
              (b.decode suite keys.authority options.limit).result = .ok brigades ∧
              (Sequential.free t pins brigades).length <
                (Sequential.queue pins brigades).length) := by
  intro admitted
  refine ⟨createRestorePlan_tooSmall, ?_⟩
  rintro ⟨rfl, rfl, ⟨-, early⟩ | ⟨-, -, sequential, t, pins, brigades, passed, decoded, more⟩⟩
  · exact Logged.bind_error_iff.mpr (.inl early)
  · exact createRestorePlan_runsOut sequential passed decoded more

theorem Brigade.Canonical.rename {b : Brigade} (h : b.Canonical) (id : String) :
    ({ b with id } : Brigade).Canonical :=
  ⟨h.counters, h.countersStack, h.endpoints, h.users, h.others⟩

theorem Brigade.Integral.rename {b : Brigade} (h : b.Integral) (id : String) :
    ({ b with id } : Brigade).Integral :=
  ⟨h.counters, h.countersStack, h.endpoints, h.users, h.others⟩

open SmallRun in
/-- A slot that is listed twice passes for two, until both brigades are decoded. -/
theorem createRestorePlan_tooSmall_late :
    let brigades := [brigade, { brigade with id := "c" }]
    let twice : Reservation := ⟨"r", [⟨"n0", router.toText, [⟨10, 0, 0, 5⟩, ⟨10, 0, 0, 5⟩]⟩]⟩
    ∃ bundle, exporter.bundle .plain ⟨[]⟩ brigades = .ok bundle ∧
      bundle.checkCapacity twice = .ok () ∧
      (createRestorePlan .plain ⟨[]⟩ keys .default twice .empty bundle).result =
        .error (.reservationTooSmall 2 2) := by
  intro brigades twice
  let t : Topology := ⟨"r", [⟨"n0", router, [⟨10, 0, 0, 5⟩, ⟨10, 0, 0, 5⟩]⟩]⟩
  have both {p : Brigade → Prop} (h : p brigade) (h' : p { brigade with id := "c" }) :
      ∀ b ∈ brigades, p b := List.forall_mem_cons.mpr ⟨h, List.forall_mem_singleton.mpr h'⟩
  obtain ⟨bundle, bundled, checked, complete, size⟩ :
      ∃ bundle : Bundle, exporter.bundle .plain ⟨[]⟩ brigades = .ok bundle ∧
        (bundle.checkIn authority.fingerprint).result = .ok () ∧ bundle.errorsCount = 0 ∧
          bundle.envelopes.length = 2 := ⟨_, rfl, by decide +kernel, rfl, rfl⟩
  have canonical := both brigade_canonical (brigade_canonical.rename "c")
  have integral := both brigade_integral (brigade_integral.rename "c")
  have fits : ∀ b ∈ brigades, Zstd.Fits RunOptions.default.limit b.toBytes :=
    both (by decide +kernel) (by decide +kernel)
  have decoded := Bundle.decode_of_fits (x := exporter) CipherSuite.plain_opensPayloads
    (CipherSuite.plain_unwraps authority) (by decide) canonical integral fits bundled
  have room : bundle.envelopes.length ≤ twice.totalSlots := by
    rw [size]
    decide
  have known : Topology.ofReservation twice = .ok t := by decide +kernel
  have passed : (bundle.screen twice .empty authority.fingerprint false).result =
      .ok (t, ⟨.empty⟩) := by
    refine Bundle.screen_ok_iff.mpr ⟨checked, fun failed => ?_, room, known, rfl⟩
    rw [complete] at failed
    cases failed
  refine ⟨bundle, bundled, Bundle.checkCapacity_ok_iff.mpr room, ?_⟩
  have run : (createRestorePlan .plain ⟨[]⟩ keys .default twice .empty bundle).result =
      .error (.reservationTooSmall bundle.envelopes.length twice.totalSlots) :=
    createRestorePlan_runsOut rfl passed decoded (by decide)
  rwa [size] at run

end Rehoming
