import Rehoming.Proofs.Placement.Contents
import Rehoming.Proofs.Restore.Runs

/-! What a run accepts under a ceiling, and what its destination opens under the same one. The
ceiling is held against the documents that come in; the documents that go out have other secrets
and other members, and nothing keeps them below it. Main statement: a snapshot of a plan opens
under exactly those ceilings that its own document is within. -/

namespace Rehoming

open Crypto Keys

variable {suite : CipherSuite} {master : MasterKey} {destination : AuthorityKey}

/-- The document in a snapshot is that of a brigade as it goes out: sanitized, moved to the
address of the snapshot, and with secrets for some router. -/
structure PreparedSnapshot.Carries (suite : CipherSuite) (master : MasterKey)
    (destination : Rsa.PublicKey) (reservationId : String) (b outbound : Brigade)
    (s : PreparedSnapshot) : Prop where
  recoded : ∃ router entropy,
    (b.sanitize.recode (routerResealer suite master router entropy) s.address).result =
      .ok outbound
  prepared : ∃ entropy, outbound.prepare suite destination reservationId entropy = .ok s

/-- Whatever numbers it carries along, what was read can go out and be read again. -/
theorem Brigade.recode_read {b outbound : Brigade} (canonical : b.Canonical) {f : Resealer}
    {slot : Ipv4} (recoded : (b.sanitize.recode f slot).result = .ok outbound) :
    ∃ restored, ofBytes? outbound.toBytes = some restored ∧ restored.id = outbound.id := by
  have sound : f.Sound fun _ _ => True := fun _ _ _ _ => trivial
  have resealed := recode_resealed sound recoded
  exact ofBytes?_again (resealed.canonical (sanitize_canonical canonical))

theorem snapshotEncoder_carries {reservationId : String} {entropy : Entropy} {call : EncodeCall}
    {s : PreparedSnapshot} (encoded : snapshotEncoder suite master destination.publicKey
      reservationId entropy call = .ok s) :
    ∃ outbound,
      s.Carries suite master destination.publicKey reservationId call.brigade outbound := by
  obtain ⟨outbound, walked, prepared⟩ := bind_ok_iff.mp encoded
  have recoded := mapError_ok_iff.mp walked
  have sealed := mapError_ok_iff.mp prepared
  have sound : (routerResealer suite master call.router
    ((entropy.child call.ordinal).child 0)).Sound fun _ _ => True := fun _ _ _ _ => trivial
  have slot : s.address = call.slot :=
    (Brigade.prepare_labels sealed).2.1.trans (Brigade.recode_resealed sound recoded).address
  exact ⟨outbound, ⟨_, _, slot ▸ recoded⟩, _, sealed⟩

/-- A snapshot opens under exactly the ceilings that its document is within. -/
theorem PreparedSnapshot.Carries.decode (payloads : suite.OpensPayloads)
    (secrets : suite.Unwraps destination) {reservationId : String} {b outbound : Brigade}
    {s : PreparedSnapshot}
    (carried : s.Carries suite master destination.publicKey reservationId b outbound)
    (canonical : b.Canonical) :
    ∃ restored, Brigade.ofBytes? outbound.toBytes = some restored ∧ ∀ ceiling : UInt64,
      s.decode suite destination reservationId ceiling.toNat =
        if outbound.toBytes.length ≤ ceiling.toNat then .ok restored
        else .error Payload.tooLong := by
  obtain ⟨router, entropy, recoded⟩ := carried.recoded
  obtain ⟨own, prepared⟩ := carried.prepared
  obtain ⟨restored, read, named⟩ := Brigade.recode_read canonical recoded
  refine ⟨restored, read, fun ceiling => ?_⟩
  -- the header has room for the length of whatever is within the ceiling
  have fits : Zstd.Fits ceiling.toNat outbound.toBytes ↔
      outbound.toBytes.length ≤ ceiling.toNat :=
    and_iff_left_of_imp fun within => Nat.lt_of_le_of_lt within ceiling.toNat_lt
  rw [Brigade.decode_prepare_of_read payloads secrets read named prepared]
  simp only [fits]

/-- What an envelope holds was read off a document. -/
theorem Envelope.decode_canonical {authority : AuthorityKey} {e : Envelope} {shared : Bytes}
    {limit : Nat} {b : Brigade} (decoded : e.decode suite authority shared limit = .ok b) :
    b.Canonical := by
  obtain ⟨share, -, decoded⟩ := bind_ok_iff.mp decoded
  obtain ⟨locker, -, decoded⟩ := bind_ok_iff.mp decoded
  obtain ⟨secret, -, decoded⟩ := bind_ok_iff.mp decoded
  obtain ⟨sealed, document, -, -, read, -⟩ := openBrigade_ok decoded
  exact Brigade.ofBytes?_canonical read

theorem Bundle.decode_canonical {authority : AuthorityKey} {bundle : Bundle} {limit : Nat}
    {brigades : List Brigade}
    (decoded : (bundle.decode suite authority limit).result = .ok brigades) :
    ∀ b ∈ brigades, b.Canonical := by
  obtain ⟨shared, -, opened⟩ := Bundle.decode_ok_iff.mp decoded
  intro b hb
  obtain ⟨e, -, found⟩ := exists_of_mem_right opened hb
  exact Envelope.decode_canonical found

/-- Each snapshot of a plan carries one of these brigades, and its destination opens it under every
ceiling that the document of that brigade, as it goes out, is within, and under no other. -/
def RestorePlan.OpensWithin (suite : CipherSuite) (master : MasterKey) (destination : AuthorityKey)
    (brigades : List Brigade) (plan : RestorePlan) : Prop :=
  ∀ entry ∈ plan.nodes, ∀ s ∈ entry.snapshots, ∃ b ∈ brigades, ∃ outbound restored,
    s.Carries suite master destination.publicKey plan.reservationId b outbound ∧
    Brigade.ofBytes? outbound.toBytes = some restored ∧ ∀ ceiling : UInt64,
      s.decode suite destination plan.reservationId ceiling.toNat =
        if outbound.toBytes.length ≤ ceiling.toNat then .ok restored else .error Payload.tooLong

/-- **A plan opens under the ceilings that its documents are within.** Whatever the bundle, the
reservation, the pins, the keys and the options: if a run makes a plan of the brigades that the
bundle is decoded to, each snapshot of it opens under exactly the ceilings that its own document
is within. Under the ceiling of the run this need not be all of them. -/
theorem createRestorePlan_opensWithin (payloads : suite.OpensPayloads)
    (secrets : suite.Unwraps destination) {entropy : Entropy} {authority : AuthorityKey}
    {realmFingerprint : String} {options : RunOptions} {max : UInt64} {r : Reservation}
    {pins : Pins} {bundle : Bundle} {plan : RestorePlan}
    (planned : (createRestorePlan suite entropy
      ⟨authority, master, destination.publicKey, realmFingerprint⟩
      { options with limit := max.toNat } r pins bundle).result = .ok plan) :
    ∃ brigades, (bundle.decode suite authority max.toNat).result = .ok brigades ∧
      plan.OpensWithin suite master destination brigades := by
  obtain ⟨-, -, -, t, checked, brigades, known, fit, decoded, built⟩ :=
    createRestorePlan_ok_iff.mp planned
  obtain ⟨same, hosts, -, entries⟩ :=
    buildPlan_snapshots known (Topology.checkPins_ok_iff.mp fit).2 built
  refine ⟨brigades, decoded, fun entry he s hs => ?_⟩
  obtain ⟨host, -, -, router, -, encoded⟩ := exists_of_mem_right entries he
  obtain ⟨call, given, -, encoded⟩ := encoded s hs
  obtain ⟨outbound, carried⟩ := snapshotEncoder_carries encoded
  rw [same]
  obtain ⟨restored, read, opens⟩ :=
    carried.decode payloads secrets (Bundle.decode_canonical decoded _ given)
  exact ⟨call.brigade, given, outbound, restored, carried, read, opens⟩

/-! ## A run that is accepted and not opened -/

namespace SmallRun

/-- The one call of the small run. -/
def call : EncodeCall := ⟨0, 1, brigade, ⟨10, 0, 0, 5⟩, router⟩

theorem calls_eq : (Assignment.make topology .sequential .fatal ⟨.empty⟩ [brigade]).calls topology =
    [call] := by decide +kernel

/-- The brigade as it goes out. -/
def outbound : Brigade :=
  (brigade.sanitize.recode (routerResealer .plain keys.master router
    (((⟨[]⟩ : Entropy).child 0).child 0)) call.slot).value

/-- The secrets that were stale are longer in the document that goes out. -/
theorem lengths : brigade.toBytes.length = 335 ∧ outbound.toBytes.length = 377 := by
  constructor <;> decide +kernel

/-- The document that comes in is just within the ceiling. -/
theorem within : Zstd.Fits (335 : UInt64).toNat brigade.toBytes := by
  rw [Zstd.Fits, lengths.1]
  decide

theorem recoded : (brigade.sanitize.recode (routerResealer .plain keys.master router
    (((⟨[]⟩ : Entropy).child 0).child 0)) call.slot).result = .ok outbound := rfl

/-- Each snapshot of the plan carries the brigade as it goes out. -/
theorem carries {plan : RestorePlan}
    (planned : (buildPlan topology "f" ⟨.sequential, .fatal, ⟨.empty⟩⟩
      (snapshotEncoder .plain keys.master keys.destination "r" ⟨[]⟩) [brigade]).result = .ok plan)
    {s : PreparedSnapshot} (there : s ∈ plan.snapshots) :
    s.Carries .plain keys.master authority.publicKey "r" brigade outbound := by
  have given := (buildPlan_snapshots_perm planned).mem_iff.mp there
  obtain ⟨c, called, made⟩ := List.mem_filterMap.mp given
  rw [calls_eq, List.mem_singleton] at called
  subst called
  obtain ⟨other, walked, prepared⟩ := bind_ok_iff.mp (toOption_eq_some_iff.mp made)
  obtain rfl : outbound = other :=
    Except.ok.inj (recoded.symm.trans (mapError_ok_iff.mp walked))
  have sealed := mapError_ok_iff.mp prepared
  have slot : s.address = call.slot := (Brigade.prepare_labels sealed).2.1
  exact ⟨⟨_, _, slot ▸ recoded⟩, _, sealed⟩

end SmallRun

open SmallRun in
theorem createRestorePlan_opensWithin_stale :
    ∃ bundle plan, CipherSuite.plain.OpensPayloads ∧ CipherSuite.plain.Unwraps authority ∧
      exporter.bundle .plain ⟨[]⟩ [brigade] = .ok bundle ∧
      (createRestorePlan .plain ⟨[]⟩ keys
        { RunOptions.default with limit := (335 : UInt64).toNat } reservation .empty
        bundle).result = .ok plan ∧ plan.size = 1 ∧
      ∃ brigades, (bundle.decode .plain authority (335 : UInt64).toNat).result = .ok brigades ∧
        plan.OpensWithin .plain keys.master authority brigades := by
  have payloads := CipherSuite.plain_opensPayloads
  have secrets := CipherSuite.plain_unwraps authority
  obtain ⟨bundle, plan, bundled, run, -, one⟩ := SmallRun.runs within
  exact ⟨bundle, plan, payloads, secrets, bundled, run, one,
    createRestorePlan_opensWithin payloads secrets run⟩

open SmallRun in
/-- The document that comes in is within the ceiling; the one that goes out is not, and the
destination refuses it under that ceiling. -/
theorem createRestorePlan_outgrown :
    ∃ bundle plan entry s, CipherSuite.plain.OpensPayloads ∧ CipherSuite.plain.OpensBoxes ∧
      CipherSuite.plain.Unwraps authority ∧
      exporter.bundle .plain ⟨[]⟩ [brigade] = .ok bundle ∧
      (createRestorePlan .plain ⟨[]⟩ keys
        { RunOptions.default with limit := (335 : UInt64).toNat } reservation .empty
        bundle).result = .ok plan ∧ entry ∈ plan.nodes ∧ s ∈ entry.snapshots ∧
      s.decode .plain authority plan.reservationId (335 : UInt64).toNat =
        .error Payload.tooLong := by
  have payloads := CipherSuite.plain_opensPayloads
  have secrets := CipherSuite.plain_unwraps authority
  obtain ⟨bundle, plan, bundled, run, planned, one⟩ := SmallRun.runs within
  have some : 0 < plan.snapshots.length := Nat.lt_of_lt_of_eq Nat.one_pos one.symm
  obtain ⟨s, there⟩ := List.exists_mem_of_length_pos some
  obtain ⟨entry, held, inside⟩ := List.mem_flatMap.mp there
  obtain ⟨restored, -, opens⟩ := (carries planned there).decode payloads secrets brigade_canonical
  have named : plan.reservationId = "r" := by
    obtain ⟨-, rfl⟩ := buildPlan_ok_iff.mp planned
    rfl
  refine ⟨bundle, plan, entry, s, payloads, CipherSuite.plain_opensBoxes, secrets, bundled, run,
    held, inside, ?_⟩
  rw [named, opens, lengths.2]
  rfl

end Rehoming
