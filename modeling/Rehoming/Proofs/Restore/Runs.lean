import Rehoming.Restore
import Rehoming.Proofs.Placement.Mirrored
import Rehoming.Proofs.Placement.Sequential
import Rehoming.Proofs.Restore.Snapshots

/-! Whole runs, from the bundle to the plan. Main statement: each snapshot of a plan opens,
at its destination, to a brigade of the bundle, ready to be served by the node that the
snapshot is for. -/

namespace Rehoming

open Keys

/-! ## What the nodes serve -/

variable {t : Topology} {pins : CheckedPins} {brigades : List Brigade}

/-- A run only calls its encoder for brigades that it was given, and with the router of the
node that the call is for. -/
theorem Assignment.call_mem (fit : pins.Fit t) {mode : PlacementMode} {policy : PlacementPolicy}
    {c : EncodeCall} (h : c ∈ (make t mode policy pins brigades).calls t) :
    c.brigade ∈ brigades ∧ c.router = (t.nodes.getD c.node default).routerKey := by
  obtain ⟨⟨step, ordinal⟩, there, called⟩ := List.mem_filterMap.mp h
  have known : step.brigade ∈ brigades := by
    have taken := List.fst_mem_of_mem_zipIdx there
    cases mode with
    | mirrored => exact Mirrored.brigade_mem [] taken
    | sequential => exact Sequential.brigade_mem fit taken
  cases step with
  | refuse b address e => cases called
  | place node slot b =>
    cases called
    exact ⟨known, rfl⟩

/-- The node that a reserved one has become. -/
theorem Topology.nodeOf_ok {host : ReservedNode} {n : Node} (h : nodeOf host = .ok n) :
    RouterKey.ofText host.routerKey = .ok n.routerKey ∧ host.controlIp = n.controlIp ∧
      host.slots = n.slots := by
  unfold nodeOf at h
  split at h
  · rename_i key read
    cases h
    exact ⟨read, rfl, rfl⟩
  · cases h

/-- Every snapshot of a plan was encoded for a brigade that was given, and for the router of
the node that it stands for. Entries stand in the order of the nodes. -/
theorem buildPlan_snapshots {r : Reservation} (known : Topology.ofReservation r = .ok t)
    (fit : pins.Fit t) {mode : PlacementMode} {policy : PlacementPolicy}
    {realmFingerprint : String} {encode : SlotEncoder} {plan : RestorePlan}
    (h : (buildPlan t realmFingerprint ⟨mode, policy, pins⟩ encode brigades).result = .ok plan) :
    plan.reservationId = t.reservationId ∧ ∃ hosts, hosts.Sublist r.nodes ∧
      List.Forall₂ (fun (host : ReservedNode) (entry : PlannedNode) =>
        entry.controlIp = host.controlIp ∧ ∃ router, RouterKey.ofText host.routerKey = .ok router ∧
          ∀ s ∈ entry.snapshots, ∃ c : EncodeCall, c.brigade ∈ brigades ∧ c.router = router ∧
            encode c = .ok s) hosts plan.nodes := by
  obtain ⟨nodes, read, made⟩ := bind_ok_iff.mp known
  cases made
  obtain ⟨-, rfl⟩ := buildPlan_ok_iff.mp h
  refine ⟨rfl, forall₂_filter _ ?_⟩
  rw [List.forall₂_map_right_iff]
  refine (forall₂_zipIdx (mapM_ok_iff.mp read)).imp ?_
  rintro host ⟨n, k⟩ ⟨node, there⟩
  obtain ⟨key, controlIp, -⟩ := Topology.nodeOf_ok node
  refine ⟨controlIp.symm, n.routerKey, key, fun s hs => ?_⟩
  obtain ⟨c, called, rfl, encoded⟩ := EncodeCall.exists_of_mem_gained hs
  obtain ⟨given, router⟩ := Assignment.call_mem fit called
  have own : c.router = n.routerKey := by
    dsimp only at there
    rw [router, List.getD_eq_getElem?_getD, there, Option.getD_some]
  exact ⟨c, given, own, encoded⟩

/-! ## From bundle to plan -/

theorem Bundle.checkCapacity_ok_iff {b : Bundle} {r : Reservation} {u : Unit} :
    b.checkCapacity r = .ok u ↔ b.envelopes.length ≤ r.totalSlots := by
  rw [checkCapacity, ← Nat.not_lt]
  by_cases less : r.totalSlots < b.envelopes.length <;> simp [less]

/-- What passes all checks that need no secrets. -/
theorem Bundle.screen_ok_iff {b : Bundle} {r : Reservation} {given : Pins} {fingerprint : String}
    {force : Bool} {t : Topology} {pins : CheckedPins} :
    (b.screen r given fingerprint force).result = .ok (t, pins) ↔
      (b.checkIn fingerprint).result = .ok () ∧ (0 < b.errorsCount → force = true) ∧
        b.envelopes.length ≤ r.totalSlots ∧ Topology.ofReservation r = .ok t ∧
        (t.checkPins given b.brigadeIds).result = .ok pins := by
  unfold Bundle.screen
  rw [Logged.bind_ok_iff]
  constructor
  · rintro ⟨⟨⟩, checked, admitted⟩
    split at admitted
    · cases admitted
    · rename_i accepted
      simp only [Logged.bind_ok_iff] at admitted
      obtain ⟨⟨⟩, room, t', known, pins', fit, same⟩ := admitted
      cases same
      refine ⟨checked, fun failed => ?_, checkCapacity_ok_iff.mp room, known, fit⟩
      simpa [failed] using accepted
  · rintro ⟨checked, forced, room, known, fit⟩
    have accepted : ¬ (0 < b.errorsCount ∧ (!force) = true) := by
      rintro ⟨failed, unforced⟩
      simp [forced failed] at unforced
    refine ⟨(), checked, ?_⟩
    rw [if_neg accepted]
    simp only [Logged.bind_ok_iff]
    exact ⟨(), checkCapacity_ok_iff.mpr room, t, known, pins, fit, rfl⟩

/-- A run makes a plan exactly if the bundle may be used and there are slots enough, the
reservation and the pins are in order, all envelopes open, and all brigades are placed. -/
theorem createRestorePlan_ok_iff {suite : CipherSuite} {entropy : Entropy} {keys : RunKeys}
    {options : RunOptions} {r : Reservation} {given : Pins} {b : Bundle} {plan : RestorePlan} :
    (createRestorePlan suite entropy keys options r given b).result = .ok plan ↔
      (b.checkIn keys.authority.fingerprint).result = .ok () ∧
        (0 < b.errorsCount → options.force = true) ∧ b.envelopes.length ≤ r.totalSlots ∧
        ∃ t pins brigades, Topology.ofReservation r = .ok t ∧
          (t.checkPins given b.brigadeIds).result = .ok pins ∧
          (b.decode suite keys.authority options.limit).result = .ok brigades ∧
          (buildPlan t keys.realmFingerprint ⟨options.mode, options.policy, pins⟩
            (snapshotEncoder suite keys.master keys.destination t.reservationId entropy)
            brigades).result = .ok plan := by
  simp only [createRestorePlan, Logged.bind_ok_iff, Prod.exists, Bundle.screen_ok_iff,
    Bundle.decodeAll_ok_iff]
  constructor
  · rintro ⟨t, pins, ⟨checked, forced, room, known, fit⟩, -, -, brigades, decoded, planned⟩
    exact ⟨checked, forced, room, t, pins, brigades, known, fit, decoded, planned⟩
  · rintro ⟨checked, forced, room, t, pins, brigades, known, fit, decoded, planned⟩
    exact ⟨t, pins, ⟨checked, forced, room, known, fit⟩, (), rfl, brigades, decoded, planned⟩

/-- Each entry of a plan stands for a node of the reservation, in order, and each of its
snapshots restores one of the brigades for that node. -/
def RestorePlan.Restores (suite : CipherSuite) (master : MasterKey) (destination : AuthorityKey)
    (r : Reservation) (brigades : List Brigade) (plan : RestorePlan) : Prop :=
  ∃ hosts, hosts.Sublist r.nodes ∧
    List.Forall₂ (fun (host : ReservedNode) (entry : PlannedNode) =>
      entry.controlIp = host.controlIp ∧ ∃ router, RouterKey.ofText host.routerKey = .ok router ∧
        ∀ s ∈ entry.snapshots, ∃ b ∈ brigades,
          s.Restores suite master destination router plan.reservationId b) hosts plan.nodes

/-- **Brigades come through a run.** Whatever brigades documents can give, whatever the
reservation, the pins and the options: if a run makes a plan of the bundle of these brigades,
each snapshot of it opens, at the destination, to one of them. It is sanitized, has the address
of the snapshot, and all its secrets have been resealed for the node of the entry. -/
theorem createRestorePlan_restores {suite : CipherSuite} (payloads : suite.OpensPayloads)
    (boxes : suite.OpensBoxes) {x : Exporter} (secrets : suite.Unwraps x.authority)
    {destination : AuthorityKey} (secrets' : suite.Unwraps destination) {brigades : List Brigade}
    (read : ∀ b ∈ brigades, ∃ document, Brigade.ofBytes? document = some b)
    (integral : ∀ b ∈ brigades, b.Integral) {entropy entropy' : Entropy} {bundle : Bundle}
    (bundled : x.bundle suite entropy brigades = .ok bundle) {master : MasterKey}
    {realmFingerprint : String} {options : RunOptions} {r : Reservation} {pins : Pins}
    {plan : RestorePlan}
    (planned : (createRestorePlan suite entropy' ⟨x.authority, master, destination.publicKey,
      realmFingerprint⟩ options r pins bundle).result = .ok plan) :
    plan.Restores suite master destination r brigades := by
  obtain ⟨-, -, -, t, checked, decoded, known, accepted, opened, planned⟩ :=
    createRestorePlan_ok_iff.mp planned
  have canonical (b : Brigade) (hb : b ∈ brigades) : b.Canonical := by
    obtain ⟨document, given⟩ := read b hb
    exact Brigade.ofBytes?_canonical given
  have all : decoded = brigades :=
    Bundle.eq_of_decode payloads secrets canonical integral bundled opened
  subst all
  have fit := (Topology.checkPins_ok_iff.mp accepted).2
  obtain ⟨same, hosts, sub, entries⟩ := buildPlan_snapshots known fit planned
  refine ⟨hosts, sub, entries.imp ?_⟩
  rintro host entry ⟨controlIp, router, key, each⟩
  refine ⟨controlIp, router, key, fun s hs => ?_⟩
  obtain ⟨c, given, rfl, encoded⟩ := each s hs
  have restores := (snapshotEncoder_restores payloads secrets' boxes (canonical _ given)
    (integral _ given) encoded).2
  exact ⟨c.brigade, given, same ▸ restores⟩

/-! ## A small run -/

/-- The standard payloads, with boxes and wrapped secrets that anyone can look into. -/
def CipherSuite.plain : CipherSuite :=
  { standard with
    wrap? := fun _ _ secret => some secret
    unwrap? := fun _ ciphertext => some ciphertext
    sealBox? := fun key _ plaintext => some (key.bytes ++ plaintext)
    openBox? := fun key sealed =>
      if sealed.take boxKeySize = key.publicKey.bytes then some (sealed.drop boxKeySize) else none }

theorem CipherSuite.plain_opensPayloads : plain.OpensPayloads :=
  ⟨standard_opensPayloads.opens, standard_opensPayloads.tagged, Zstd.compress_restores⟩

theorem CipherSuite.plain_opensBoxes : plain.OpensBoxes := by
  intro secret entropy plaintext sealed _ made
  cases made
  have sized : (MasterKey.ofSecret secret).publicKey.bytes.length = boxKeySize :=
    Bytes.length_ofNatLE 32 _
  show (if ((MasterKey.ofSecret secret).publicKey.bytes ++ plaintext).take boxKeySize =
    (MasterKey.ofSecret secret).publicKey.bytes then some _ else none) = some plaintext
  rw [List.take_left' sized, if_pos rfl]
  exact congrArg some (List.drop_left' sized)

theorem CipherSuite.plain_unwraps (key : AuthorityKey) : plain.Unwraps key := by
  intro entropy secret ciphertext wrapped
  cases wrapped
  rfl

namespace SmallRun

def authority : AuthorityKey := ⟨⟨⟨1, 1⟩, 1, 1, 1⟩, "SHA256:a"⟩

def exporter : Exporter := ⟨authority, ⟨[], ⟨List.replicate 32 0⟩⟩⟩

/-- A secret that another router could open before. -/
def stale (plaintext : Bytes) : Secret :=
  ⟨Base64.encodeText (List.replicate 32 0 ++ plaintext), "stale"⟩

def brigade : Brigade :=
  { Brigade.named "b" ⟨10, 0, 0, 1⟩ with
    wgPrivate := stale [1]
    users := [{ (default : User) with wgPsk := stale [2], outlineSecret := ⟨"", "stale"⟩ }] }

def router : RouterKey := ⟨List.replicate 32 9⟩

/-- Of the two nodes only one has a slot. -/
def reservation : Reservation :=
  ⟨"r", [⟨"n0", router.toText, []⟩, ⟨"n1", router.toText, [⟨10, 0, 0, 5⟩]⟩]⟩

def topology : Topology := ⟨"r", [⟨"n0", router, []⟩, ⟨"n1", router, [⟨10, 0, 0, 5⟩]⟩]⟩

def keys : RunKeys := ⟨authority, exporter.master, authority.publicKey, "f"⟩

theorem brigade_canonical : brigade.Canonical := by
  refine ⟨.null, .null, .null, fun u hu => ?_, NameMap.foreign_empty _ _⟩
  rw [List.mem_singleton.mp hu]
  exact ⟨Quota.empty_canonical _, NameMap.foreign_empty _ _⟩

theorem brigade_integral : brigade.Integral := by
  have nothing {e : String × Json.Value} (h : e ∈ []) : e.2.Integral := absurd h List.not_mem_nil
  refine ⟨.null, .null, .null, fun u hu => ?_, fun _ => nothing⟩
  rw [List.mem_singleton.mp hu]
  exact ⟨fun _ => nothing, fun _ => nothing⟩

theorem planned : ∃ plan, (buildPlan topology "f" ⟨.sequential, .fatal, ⟨.empty⟩⟩
    (snapshotEncoder .plain keys.master keys.destination "r" ⟨[]⟩) [brigade]).result = .ok plan ∧
      plan.size = 1 := by
  rw [buildPlan_result]
  exact ⟨_, rfl, by decide +kernel⟩

theorem bundled : ∃ bundle : Bundle, exporter.bundle .plain ⟨[]⟩ [brigade] = .ok bundle ∧
    (bundle.checkIn authority.fingerprint).result = .ok () ∧ bundle.errorsCount = 0 ∧
      bundle.envelopes.length = 1 := ⟨_, rfl, by decide +kernel, rfl, rfl⟩

/-- Under any ceiling that the document is within, the run makes its plan. -/
theorem runs {limit : Nat} (fits : Zstd.Fits limit brigade.toBytes) :
    ∃ bundle plan, exporter.bundle .plain ⟨[]⟩ [brigade] = .ok bundle ∧
      (createRestorePlan .plain ⟨[]⟩ keys { RunOptions.default with limit } reservation .empty
        bundle).result = .ok plan ∧
      (buildPlan topology "f" ⟨.sequential, .fatal, ⟨.empty⟩⟩
        (snapshotEncoder .plain keys.master keys.destination "r" ⟨[]⟩) [brigade]).result =
          .ok plan ∧ plan.size = 1 := by
  have only {p : Brigade → Prop} (h : p brigade) : ∀ b ∈ [brigade], p b := by
    intro b hb
    rw [List.mem_singleton.mp hb]
    exact h
  obtain ⟨bundle, bundled, checked, complete, size⟩ := SmallRun.bundled
  obtain ⟨plan, planned, one⟩ := SmallRun.planned
  have decoded := Bundle.decode_of_fits (x := exporter) CipherSuite.plain_opensPayloads
    (CipherSuite.plain_unwraps authority) (by decide) (only brigade_canonical)
    (only brigade_integral) (only fits) bundled
  have known : Topology.ofReservation reservation = .ok topology := by decide +kernel
  have accepted : (topology.checkPins .empty bundle.brigadeIds).result = .ok ⟨.empty⟩ := rfl
  have room : bundle.envelopes.length ≤ reservation.totalSlots := by
    rw [size]
    decide
  refine ⟨bundle, plan, bundled, createRestorePlan_ok_iff.mpr ⟨checked, fun failed => ?_, room,
    topology, ⟨.empty⟩, [brigade], known, accepted, decoded, planned⟩, planned, one⟩
  rw [complete] at failed
  cases failed

end SmallRun

open SmallRun in
theorem createRestorePlan_restores_stale :
    ∃ bundle plan, exporter.bundle .plain ⟨[]⟩ [brigade] = .ok bundle ∧
      (createRestorePlan .plain ⟨[]⟩ keys .default reservation .empty bundle).result = .ok plan ∧
        plan.size = 1 ∧ plan.Restores .plain keys.master authority reservation [brigade] := by
  have secrets := CipherSuite.plain_unwraps authority
  have only {p : Brigade → Prop} (h : p brigade) : ∀ b ∈ [brigade], p b := by
    intro b hb
    rw [List.mem_singleton.mp hb]
    exact h
  have read : ∀ b ∈ [brigade], ∃ document, Brigade.ofBytes? document = some b :=
    only ⟨_, Brigade.ofBytes?_toBytes brigade_canonical brigade_integral⟩
  have fits : Zstd.Fits RunOptions.default.limit brigade.toBytes := by decide +kernel
  obtain ⟨bundle, plan, bundled, run, -, one⟩ := SmallRun.runs fits
  exact ⟨bundle, plan, bundled, run, one, createRestorePlan_restores
    CipherSuite.plain_opensPayloads CipherSuite.plain_opensBoxes secrets secrets read
    (only brigade_integral) bundled run⟩

end Rehoming
