import Rehoming.Proofs.Placement.Accounting
import Rehoming.Proofs.Restore.Refusals
import Rehoming.Proofs.Restore.Runs

/-! Brigades that cannot be encoded. What encoding fails with is traced back to where it comes from,
and what it costs is shown over whole runs. Main statement: it costs the brigade its place in the
plan and is reported, whatever the error is, and never ends a run. -/

namespace Rehoming

open Keys

/-! ## What resealing fails with -/

/-- A ciphertext is missing or cannot be opened, the text that should hold it is no base64, or its
content cannot be sealed again. -/
inductive Error.OfResealing : Error → Prop where
  | decryption (what : String) : OfResealing (.decryptionFailed what)
  | encoding (reason : String) : OfResealing (.encoding reason)
  | encryption : OfResealing (.encryptionFailed "sealed box: aead::Error")

theorem decodeField_error {text what : String} {e : Error}
    (h : decodeField text what = .error e) : ∃ reason, e = .encoding reason := by
  unfold decodeField at h
  split at h
  · cases h
  · cases h
    exact ⟨_, rfl⟩

/-- All that a resealer fails with is of this kind. -/
def Resealer.Fails (f : Resealer) (p : Error → Prop) : Prop :=
  ∀ site ciphertext e, f site ciphertext = .error e → p e

theorem routerResealer_fails (suite : CipherSuite) (master : MasterKey) (router : RouterKey)
    (entropy : Entropy) : (routerResealer suite master router entropy).Fails Error.OfResealing := by
  intro site ciphertext e h
  rcases bind_error_iff.mp h with h | ⟨sealed, -, h⟩
  · obtain ⟨reason, rfl⟩ := decodeField_error h
    exact .encoding reason
  · split at h
    · cases h
      exact .decryption _
    · rcases bind_error_iff.mp h with unsealed | ⟨box, -, h⟩
      · unfold CipherSuite.sealFor at unsealed
        split at unsealed
        · cases unsealed
        · cases unsealed
          exact .encryption
      · cases h

/-- If a walk has ended early, it is for an error of this kind. -/
def Walk.Fails {α : Type} (w : Walk α) (p : Error → Prop) : Prop := ∀ e, w.error = some e → p e

theorem Walk.Fails.andThen {α : Type} {p : Error → Prop} {w : Walk α} {step : α → Walk α}
    (here : w.Fails p) (next : ∀ a, (step a).Fails p) : (w.andThen step).Fails p := by
  intro e h
  unfold Walk.andThen at h
  split at h
  · exact here e h
  · exact next _ e h

section Resealing

variable {f : Resealer} (fails : f.Fails Error.OfResealing)
include fails

theorem Secret.reseal_fails (site : Site) (required : Bool) (s : Secret) :
    (s.reseal f site required).Fails Error.OfResealing := by
  intro e h
  unfold reseal at h
  split at h
  · split at h
    · cases h
      exact .decryption _
    · cases h
  · split at h
    · cases h
    · rename_i refused
      cases h
      exact fails _ _ _ refused

theorem resealFields_fails {α : Type} (user : Option Nat) (fields : List (SealedField α)) (x : α) :
    (resealFields f user fields x).Fails Error.OfResealing := by
  have run : ∀ (rest : List (SealedField α × Nat)) (w : Walk α), w.Fails Error.OfResealing →
      (rest.foldl (fun w field => w.andThen (field.1.reseal f ⟨user, field.2, field.1.name⟩))
        w).Fails Error.OfResealing := by
    intro rest
    induction rest with
    | nil => exact fun w here => here
    | cons field rest ih =>
      exact fun w here => ih _ (here.andThen fun x => Secret.reseal_fails fails _ _ _)
  rw [resealFields_eq]
  exact run _ _ nofun

/-- That an error came up for a user does not make it another kind of error. -/
theorem resealUser_fails (index : Nat) (u : User) :
    (resealUser f index u).Fails Error.OfResealing := by
  intro e h
  obtain ⟨cause, refused, rfl⟩ := Option.map_eq_some_iff.mp h
  cases resealFields_fails fails _ _ _ cause refused with
  | decryption what => exact .decryption _
  | encoding reason => exact .encoding reason
  | encryption => exact .encryption

theorem resealUsers_fails (index : Nat) (users : List User) :
    (resealUsers f index users).Fails Error.OfResealing := by
  induction users generalizing index with
  | nil => exact nofun
  | cons u rest ih =>
    intro e h
    rw [resealUsers] at h
    dsimp only at h
    split at h
    · rename_i e' refused
      cases h
      exact resealUser_fails fails _ _ e refused
    · exact ih _ e h

theorem Brigade.recode_fails (slot : Ipv4) (b : Brigade) :
    (b.recode f slot).Fails Error.OfResealing :=
  Walk.Fails.andThen (resealFields_fails fails _ _ _) fun _ => resealUsers_fails fails _ _

end Resealing

/-! ## What encoding fails with -/

theorem Brigade.prepare_error {suite : CipherSuite} {destination : Crypto.Rsa.PublicKey}
    {reservationId : String} {entropy : Entropy} {b : Brigade} {e : Error}
    (h : b.prepare suite destination reservationId entropy = .error e) :
    ∃ what, e = .encryptionFailed what := by
  rcases bind_error_iff.mp h with h | ⟨wrapped, -, h⟩
  · unfold CipherSuite.wrap at h
    split at h
    · cases h
    · cases h
      exact ⟨_, rfl⟩
  · cases h

/-- What encoding fails with names the brigade and the step: a secret cannot be resealed, or the new
secret is too long for the destination. Keys are no longer in question here. -/
inductive EncodeCall.FailsWith (c : EncodeCall) : Error → Prop where
  | recode {cause : Error} (kind : cause.OfResealing) :
      FailsWith c (.inBrigade c.brigade.id .recode cause)
  | encode (what : String) :
      FailsWith c (.inBrigade c.brigade.id .encode (.encryptionFailed what))

theorem snapshotEncoder_failsWith {suite : CipherSuite} {master : MasterKey}
    {destination : Crypto.Rsa.PublicKey} {reservationId : String} {entropy : Entropy}
    {c : EncodeCall} {e : Error}
    (h : snapshotEncoder suite master destination reservationId entropy c = .error e) :
    c.FailsWith e := by
  rcases bind_error_iff.mp h with h | ⟨recoded, -, h⟩
  · obtain ⟨cause, walked, rfl⟩ := mapError_error_iff.mp h
    refine .recode ?_
    have fails := routerResealer_fails suite master c.router ((entropy.child c.ordinal).child 0)
    unfold Walk.result at walked
    split at walked
    · rename_i ended
      cases walked
      exact Brigade.recode_fails fails _ _ _ ended
    · cases walked
  · obtain ⟨cause, refused, rfl⟩ := mapError_error_iff.mp h
    obtain ⟨what, rfl⟩ := Brigade.prepare_error refused
    exact .encode what

/-! ## Over a run -/

/-- A call that fails is reported. -/
theorem buildPlan_skipped {t : Topology} {realmFingerprint : String} {options : PlanOptions}
    {encode : SlotEncoder} {brigades : List Brigade} {c : EncodeCall} {e : Error}
    (called : c ∈
      (Assignment.make t options.mode options.policy options.pins brigades).calls t)
    (failed : encode c = .error e) :
    .skipped c.brigade.id c.slot e ∈
      (buildPlan t realmFingerprint options encode brigades).events := by
  obtain ⟨s, there, made⟩ := List.mem_filterMap.mp called
  have outcome : Outcome.ofStep t encode s.1 s.2 = .failed c e := by
    obtain ⟨step, ordinal⟩ := s
    cases step with
    | refuse b address e => cases made
    | place node slot b =>
      cases made
      simp only [Outcome.ofStep, failed]
  have reported : Event.skipped c.brigade.id c.slot e ∈
      ((Assignment.make t options.mode options.policy options.pins brigades).outcomes t
        encode).map (Outcome.event t) :=
    List.mem_map.mpr ⟨.failed c e, List.mem_map.mpr ⟨s, there, outcome⟩, rfl⟩
  rw [buildPlan, Progress.plan_eq]
  dsimp only
  cases (Assignment.make t options.mode options.policy options.pins brigades).failure with
  | some e => exact reported
  | none => exact List.mem_append_left _ reported

theorem Logged.mem_events_bind {α β : Type} {x : Logged α} {f : α → Logged β} {a : α}
    {event : Event} (passed : x.result = .ok a) (there : event ∈ (f a).events) :
    event ∈ (x >>= f).events := by
  rw [bind_def, bind, passed]
  exact List.mem_append_right _ there

theorem Topology.ofReservation_id {r : Reservation} {t : Topology} (h : ofReservation r = .ok t) :
    t.reservationId = r.id := by
  obtain ⟨nodes, -, made⟩ := bind_ok_iff.mp h
  cases made
  rfl

section Runs

variable {suite : CipherSuite} {entropy : Entropy} {keys : RunKeys} {options : RunOptions}
  {r : Reservation} {given : Pins} {b : Bundle}

/-- A run fails with what is found before encoding, and with nothing else. -/
theorem createRestorePlan_error_iff {e : Error} :
    (createRestorePlan suite entropy keys options r given b).result = .error e ↔
      (b.screen r given keys.authority.fingerprint options.force).result = .error e ∨
      ∃ t pins, (b.screen r given keys.authority.fingerprint options.force).result =
          .ok (t, pins) ∧
        ((b.decodeAll suite keys.authority options).result = .error e ∨
          ∃ brigades, (b.decodeAll suite keys.authority options).result = .ok brigades ∧
            (Assignment.make t options.mode options.policy pins brigades).failure = some e) := by
  constructor
  · intro failed
    rcases Logged.bind_error_iff.mp failed with refused | ⟨⟨t, pins⟩, passed, failed⟩
    · exact .inl refused
    rcases Logged.bind_error_iff.mp failed with none | ⟨⟨⟩, -, failed⟩
    · cases none
    rcases Logged.bind_error_iff.mp failed with closed | ⟨brigades, opened, failed⟩
    · exact .inr ⟨t, pins, passed, .inl closed⟩
    · exact .inr ⟨t, pins, passed, .inr ⟨brigades, opened, buildPlan_error_iff.mp failed⟩⟩
  · rintro (refused | ⟨t, pins, passed, rest⟩)
    · exact Logged.bind_error_iff.mpr (.inl refused)
    refine Logged.bind_error_iff.mpr (.inr ⟨(t, pins), passed,
      Logged.bind_error_iff.mpr (.inr ⟨(), rfl, Logged.bind_error_iff.mpr ?_⟩)⟩)
    rcases rest with closed | ⟨brigades, opened, failed⟩
    · exact .inl closed
    · exact .inr ⟨brigades, opened, buildPlan_error_iff.mpr failed⟩

/-- A call that fails is reported, however the run ends. -/
theorem createRestorePlan_skipped {t : Topology} {pins : CheckedPins} {brigades : List Brigade}
    {c : EncodeCall} {e : Error}
    (passed : (b.screen r given keys.authority.fingerprint options.force).result = .ok (t, pins))
    (opened : (b.decodeAll suite keys.authority options).result = .ok brigades)
    (called : c ∈ (Assignment.make t options.mode options.policy pins brigades).calls t)
    (failed : snapshotEncoder suite keys.master keys.destination t.reservationId entropy c =
      .error e) :
    .skipped c.brigade.id c.slot e ∈
      (createRestorePlan suite entropy keys options r given b).events :=
  Logged.mem_events_bind passed (Logged.mem_events_bind (a := ()) rfl
    (Logged.mem_events_bind opened (buildPlan_skipped called failed)))

end Runs

namespace SmallRun

/-- A secret that is there, but not in base64. -/
def garbled : Brigade := { brigade with wgPrivate := ⟨"!", ""⟩ }

def garbledCall : EncodeCall := ⟨0, 1, garbled, ⟨10, 0, 0, 5⟩, router⟩

def garbledError : Error :=
  .inBrigade "b" .recode (.encoding "base64 wg private key: Invalid symbol 33, offset 0.")

theorem garbled_canonical : garbled.Canonical :=
  ⟨.null, .null, .null, brigade_canonical.users, brigade_canonical.others⟩

theorem garbled_integral : garbled.Integral :=
  ⟨.null, .null, .null, brigade_integral.users, brigade_integral.others⟩

theorem garbled_failed :
    snapshotEncoder .plain keys.master keys.destination "r" ⟨[]⟩ garbledCall =
      .error garbledError := by
  decide +kernel

theorem garbled_called :
    garbledCall ∈
      (Assignment.make topology .sequential .fatal ⟨.empty⟩ [garbled]).calls topology := by
  decide +kernel

/-- A bundle with this brigade is admitted and decoded. -/
theorem garbled_opened : ∃ bundle : Bundle, exporter.bundle .plain ⟨[]⟩ [garbled] = .ok bundle ∧
    (bundle.screen reservation .empty keys.authority.fingerprint false).result =
      .ok (topology, ⟨.empty⟩) ∧
    (bundle.decodeAll .plain keys.authority .default).result = .ok [garbled] := by
  obtain ⟨bundle, bundled, checked, complete, size⟩ :
      ∃ bundle : Bundle, exporter.bundle .plain ⟨[]⟩ [garbled] = .ok bundle ∧
        (bundle.checkIn authority.fingerprint).result = .ok () ∧ bundle.errorsCount = 0 ∧
          bundle.envelopes.length = 1 := ⟨_, rfl, by decide +kernel, rfl, rfl⟩
  have only {p : Brigade → Prop} (h : p garbled) : ∀ b ∈ [garbled], p b := by
    intro b hb
    rw [List.mem_singleton.mp hb]
    exact h
  have known : Topology.ofReservation reservation = .ok topology := by decide +kernel
  have fits : ∀ b ∈ [garbled], Zstd.Fits RunOptions.default.limit b.toBytes :=
    only (by decide +kernel)
  have accepted : (topology.checkPins .empty bundle.brigadeIds).result = .ok ⟨.empty⟩ := rfl
  refine ⟨bundle, bundled, Bundle.screen_ok_iff.mpr ⟨checked, ?_, ?_, known, accepted⟩, ?_⟩
  · intro failed
    rw [complete] at failed
    cases failed
  · rw [size]
    decide
  · exact Bundle.decodeAll_ok_iff.mpr (Bundle.decode_of_fits (x := exporter)
      CipherSuite.plain_opensPayloads (CipherSuite.plain_unwraps authority) (by decide)
      (only garbled_canonical) (only garbled_integral) fits bundled)

/-- The run on this bundle, and the plan that it makes. -/
theorem garbled_planned : ∃ (bundle : Bundle) (plan : RestorePlan),
    exporter.bundle .plain ⟨[]⟩ [garbled] = .ok bundle ∧
    (bundle.screen reservation .empty keys.authority.fingerprint false).result =
      .ok (topology, ⟨.empty⟩) ∧
    (bundle.decodeAll .plain keys.authority .default).result = .ok [garbled] ∧
    (createRestorePlan .plain ⟨[]⟩ keys .default reservation .empty bundle).result = .ok plan ∧
    plan.nodes = [] := by
  obtain ⟨bundle, bundled, admitted, decoded⟩ := garbled_opened
  obtain ⟨plan, planned, none⟩ : ∃ plan, (buildPlan topology "f" ⟨.sequential, .fatal, ⟨.empty⟩⟩
      (snapshotEncoder .plain keys.master keys.destination "r" ⟨[]⟩) [garbled]).result = .ok plan ∧
        plan.nodes = [] := by
    rw [buildPlan_result]
    exact ⟨_, rfl, by decide +kernel⟩
  exact ⟨bundle, plan, bundled, admitted, decoded,
    Logged.bind_ok_iff.mpr ⟨_, admitted, Logged.bind_ok_iff.mpr ⟨(), rfl,
      Logged.bind_ok_iff.mpr ⟨_, decoded, planned⟩⟩⟩, none⟩

end SmallRun

end Rehoming
