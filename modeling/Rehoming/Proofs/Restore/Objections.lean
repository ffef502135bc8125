import Rehoming.Proofs.Restore.Capacity

/-! What is held against a bundle or an envelope before any secret is used. The objections are
listed here by themselves, checkpoint after checkpoint; a run is refused exactly for the first of
them. Main statement: two runs that differ in nothing but their keys and in what is encrypted are
refused alike. -/

namespace Rehoming

/-! ## First objections -/

namespace Logged

variable {α β : Type}

/-- The checks fail exactly if there is an objection, and say which one comes first. -/
def Heeds (x : Logged α) (objections : List Error) : Prop :=
  ∀ e, x.result = .error e ↔ objections.head? = some e

theorem Heeds.nil_of_ok {x : Logged α} {objections : List Error} {a : α}
    (heeds : x.Heeds objections) (passed : x.result = .ok a) : objections = [] := by
  cases objections with
  | nil => rfl
  | cons e rest =>
    have refused : x.result = .error e := (heeds e).mpr rfl
    rw [passed] at refused
    cases refused

theorem Heeds.ok_iff {x : Logged α} {objections : List Error} (heeds : x.Heeds objections) :
    (∃ a, x.result = .ok a) ↔ objections = [] := by
  constructor
  · rintro ⟨a, passed⟩
    exact heeds.nil_of_ok passed
  · rintro rfl
    cases there : x.result with
    | ok a => exact ⟨a, rfl⟩
    | error e =>
      have none := (heeds e).mp there
      cases none

/-- What comes behind a check only counts where the check has no objections. -/
theorem Heeds.bind {x : Logged α} {f : α → Logged β} {first rest : List Error}
    (here : x.Heeds first) (behind : ∀ a, x.result = .ok a → (f a).Heeds rest) :
    (x >>= f).Heeds (first ++ rest) := by
  intro e
  rw [bind_error_iff]
  cases first with
  | nil =>
    obtain ⟨a, passed⟩ := here.ok_iff.mpr rfl
    rw [List.nil_append, ← behind a passed e]
    constructor
    · rintro (refused | ⟨a', passed', late⟩)
      · rw [passed] at refused
        cases refused
      · rw [passed] at passed'
        cases passed'
        exact late
    · intro late
      exact .inr ⟨a, passed, late⟩
  | cons e' more =>
    have refused : x.result = .error e' := (here e').mpr rfl
    constructor
    · rintro (refused' | ⟨a, passed, -⟩)
      · rw [refused] at refused'
        cases refused'
        rfl
      · rw [refused] at passed
        cases passed
    · intro same
      cases same
      exact .inl refused

/-- Where a check has failed, what would come behind it does not matter. -/
theorem heeds_fail (e : Error) (rest : List Error) : (fail e : Logged α).Heeds (e :: rest) := by
  intro e'
  simp [fail]

theorem heeds_ok (a : α) (events : List Event) : (⟨.ok a, events⟩ : Logged α).Heeds [] := by
  intro e
  simp

theorem heeds_check {c : Prop} [Decidable c] {refusal : Error} {next : Unit → Logged α}
    {rest : List Error} (behind : (next ()).Heeds rest) :
    (if c then fail refusal >>= next else next ()).Heeds
      ((if c then [refusal] else []) ++ rest) := by
  by_cases h : c
  · rw [if_pos h, if_pos h]
    refine (heeds_fail refusal []).bind fun _ passed => ?_
    cases passed
  · rw [if_neg h, if_neg h, List.nil_append]
    exact behind

end Logged

/-! ## Against bundles -/

/-- What is wrong with a bundle in itself, or for this authority. -/
def Bundle.flaws (b : Bundle) (fingerprint : String) : List Error :=
  let invalid (found : Bool) (reason : String) : List Error :=
    if found then [.invalidSnapshot reason] else []
  invalid b.updateTime.isUnset "update time is zero"
    ++ (invalid b.globalTime.isUnset "global snapshot time is zero"
    ++ (invalid b.tag.isEmpty "empty tag"
    ++ (invalid b.datacenterId.isEmpty "empty datacenter id"
    ++ (invalid (!b.realmFingerprint.isEmpty) "non-empty realm key fingerprint"
    ++ (invalid b.authorityFingerprint.isEmpty "empty authority key fingerprint"
    ++ (invalid b.sharedSecret.isEmpty "empty encrypted pre-shared secret"
    ++ (invalid b.envelopes.isEmpty "empty snapshots"
    ++ (if b.authorityFingerprint ≠ fingerprint then
          [.keysMismatch ("authority: " ++ fingerprint ++ " != " ++ b.authorityFingerprint)]
        else []))))))))

theorem Bundle.checkIn_heeds (b : Bundle) (fingerprint : String) :
    (b.checkIn fingerprint).Heeds (b.flaws fingerprint) := by
  have last : (if b.authorityFingerprint ≠ fingerprint then
        Logged.fail (.keysMismatch ("authority: " ++ fingerprint ++ " != " ++ b.authorityFingerprint))
      else pure () : Logged Unit).Heeds (if b.authorityFingerprint ≠ fingerprint then
        [.keysMismatch ("authority: " ++ fingerprint ++ " != " ++ b.authorityFingerprint)]
      else []) := by
    by_cases mine : b.authorityFingerprint ≠ fingerprint
    · rw [if_pos mine, if_pos mine]
      exact Logged.heeds_fail _ []
    · rw [if_neg mine, if_neg mine]
      exact Logged.heeds_ok () []
  unfold checkIn flaws
  -- the eight checks of the contents, one after another
  iterate 8 refine Logged.heeds_check ?_
  dsimp only
  split
  · exact Logged.Heeds.bind (Logged.heeds_ok () _) fun _ _ => last
  · exact last

/-! ## Against reservations and pins -/

namespace Reservation

/-- Some node lists the address among its slots. -/
def Declares (r : Reservation) (address : Ipv4) : Prop := ∃ n ∈ r.nodes, address ∈ n.slots

instance (r : Reservation) (address : Ipv4) : Decidable (r.Declares address) :=
  inferInstanceAs (Decidable (∃ n ∈ r.nodes, address ∈ n.slots))

/-- What is wrong with the router keys of nodes. -/
def keyFlaws (nodes : List ReservedNode) : List Error :=
  nodes.filterMap fun n =>
    match Keys.RouterKey.ofText n.routerKey with
    | .ok _ => none
    | .error e => some (.invalidKey ("router key of node " ++ n.controlIp ++ ": " ++ e.message))

/-- What is wrong with pins, in order, where those before them have asked for some addresses. -/
def pinFlaws (r : Reservation) : (asked : List Ipv4) → List (String × Ipv4) → List Error
  | _, [] => []
  | asked, (id, address) :: rest =>
    (if ¬ r.Declares address then [.pinNotFound address id]
      else if address ∈ asked then [.pinDuplicated address id] else [])
    ++ r.pinFlaws (address :: asked) rest

end Reservation

namespace Topology

theorem nodes_heed (nodes : List ReservedNode) :
    (Logged.lift (nodes.mapM nodeOf)).Heeds (Reservation.keyFlaws nodes) := by
  induction nodes with
  | nil => exact Logged.heeds_ok [] []
  | cons n rest ih =>
    intro e
    rw [Logged.lift, List.mapM_cons, Reservation.keyFlaws, List.filterMap_cons]
    cases key : Keys.RouterKey.ofText n.routerKey with
    | error cause =>
      have here : nodeOf n =
          .error (.invalidKey ("router key of node " ++ n.controlIp ++ ": " ++ cause.message)) := by
        simp only [nodeOf, key]
      simp [here, bind, Except.bind]
    | ok router =>
      have here : nodeOf n = .ok ⟨n.controlIp, router, n.slots⟩ := by
        simp only [nodeOf, key]
      have behind : rest.mapM nodeOf = .error e ↔ (Reservation.keyFlaws rest).head? = some e := ih e
      rw [here, bind_error_iff]
      dsimp only
      rw [← Reservation.keyFlaws, ← behind]
      constructor
      · rintro (other | ⟨first, -, late⟩)
        · cases other
        · rcases bind_error_iff.mp late with failed | ⟨nodes, -, made⟩
          · exact failed
          · cases made
      · intro failed
        exact .inr ⟨_, rfl, bind_error_iff.mpr (.inl failed)⟩

theorem ofReservation_heeds (r : Reservation) :
    (Logged.lift (ofReservation r)).Heeds (Reservation.keyFlaws r.nodes) := by
  intro e
  have nodes : r.nodes.mapM nodeOf = .error e ↔ _ := nodes_heed r.nodes e
  rw [← nodes, Logged.lift, ofReservation, bind_error_iff]
  constructor
  · rintro (failed | ⟨nodes, -, made⟩)
    · exact failed
    · cases made
  · intro failed
    exact .inl failed

theorem declares_iff {r : Reservation} {t : Topology} (known : ofReservation r = .ok t)
    {address : Ipv4} : t.Declares address ↔ r.Declares address := by
  have slots := ofReservation_slots known
  constructor
  · rintro ⟨n, hn, ha⟩
    have there : n.slots ∈ r.nodes.map (·.slots) := slots ▸ List.mem_map_of_mem hn
    obtain ⟨host, hh, same⟩ := List.mem_map.mp there
    exact ⟨host, hh, same ▸ ha⟩
  · rintro ⟨host, hh, ha⟩
    have there : host.slots ∈ t.nodes.map (·.slots) := slots ▸ List.mem_map_of_mem hh
    obtain ⟨n, hn, same⟩ := List.mem_map.mp there
    exact ⟨n, hn, same ▸ ha⟩

theorem checkEntries_heeds {r : Reservation} {t : Topology} (known : ofReservation r = .ok t)
    (ids : List String) (taken : List Ipv4) (accepted : Pins) (entries : List (String × Ipv4)) :
    (t.checkEntries ids taken accepted entries).Heeds
      (r.pinFlaws taken (keptPins ids entries)) := by
  induction entries generalizing taken accepted with
  | nil => exact Logged.heeds_ok _ []
  | cons entry rest ih =>
    obtain ⟨id, address⟩ := entry
    by_cases present : id ∈ ids
    · rw [keptPins_present address rest present, Reservation.pinFlaws]
      by_cases declared : t.Declares address
      · rw [if_neg (not_not_intro ((declares_iff known).mp declared))]
        by_cases again : address ∈ taken
        · rw [checkEntries_taken present declared again, if_pos again]
          exact Logged.heeds_fail _ _
        · rw [checkEntries_free present declared again, if_neg again]
          exact ih _ _
      · rw [checkEntries_undeclared present declared, if_pos (mt (declares_iff known).mpr declared)]
        exact Logged.heeds_fail _ _
    · rw [keptPins_absent address rest present, checkEntries_absent present]
      exact ih taken accepted

theorem checkPins_heeds {r : Reservation} {t : Topology} (known : ofReservation r = .ok t)
    (given : Pins) (ids : List String) :
    (t.checkPins given ids).Heeds (r.pinFlaws [] (keptPins ids given.entries)) :=
  checkEntries_heeds known ids [] .empty given.entries

end Topology

/-! ## Against runs -/

/-- The checks that a run makes before it uses a secret. -/
inductive Checkpoint where
  | bundle
  | exports
  | capacity
  | routerKeys
  | pins
  deriving DecidableEq

namespace Checkpoint

def inOrder : List Checkpoint := [.bundle, .exports, .capacity, .routerKeys, .pins]

/-- What is held against a run at a checkpoint, whatever the other checkpoints say. -/
def objections (b : Bundle) (r : Reservation) (given : Pins) (fingerprint : String)
    (force : Bool) : Checkpoint → List Error
  | .bundle => b.flaws fingerprint
  | .exports => if 0 < b.errorsCount ∧ force = false then [.exportErrors b.errorsCount] else []
  | .capacity =>
    if r.totalSlots < b.envelopes.length then
      [.reservationTooSmall b.envelopes.length r.totalSlots]
    else []
  | .routerKeys => Reservation.keyFlaws r.nodes
  | .pins => r.pinFlaws [] (keptPins b.brigadeIds given.entries)

end Checkpoint

/-- All that is held against a run, checkpoint after checkpoint. -/
def Bundle.objections (b : Bundle) (r : Reservation) (given : Pins) (fingerprint : String)
    (force : Bool) : List (Checkpoint × Error) :=
  Checkpoint.inOrder.flatMap fun c =>
    (c.objections b r given fingerprint force).map fun e => (c, e)

/-- A run passes the screen unless there is an objection. -/
theorem Bundle.screen_heeds (b : Bundle) (r : Reservation) (given : Pins) (fingerprint : String)
    (force : Bool) : (b.screen r given fingerprint force).Heeds
      ((b.objections r given fingerprint force).map (·.2)) := by
  have all : (b.objections r given fingerprint force).map (·.2) =
      b.flaws fingerprint ++
        (Checkpoint.exports.objections b r given fingerprint force ++
        (Checkpoint.capacity.objections b r given fingerprint force ++
        (Reservation.keyFlaws r.nodes ++
        (r.pinFlaws [] (keptPins b.brigadeIds given.entries) ++ [])))) := by
    simp [Bundle.objections, Checkpoint.inOrder, Checkpoint.objections, List.map_map,
      Function.comp_def]
  have capacity : (Logged.lift (b.checkCapacity r)).Heeds
      (Checkpoint.capacity.objections b r given fingerprint force) := by
    intro e
    by_cases less : r.totalSlots < b.envelopes.length <;>
      simp [Logged.lift, checkCapacity, Checkpoint.objections, less]
  have behind : (do
      Logged.lift (b.checkCapacity r)
      let t ← Logged.lift (Topology.ofReservation r)
      let pins ← t.checkPins given b.brigadeIds
      return (t, pins) : Logged (Topology × CheckedPins)).Heeds
        (Checkpoint.capacity.objections b r given fingerprint force ++
        (Reservation.keyFlaws r.nodes ++
        (r.pinFlaws [] (keptPins b.brigadeIds given.entries) ++ []))) := by
    refine capacity.bind fun _ _ => (Topology.ofReservation_heeds r).bind fun t known => ?_
    exact (Topology.checkPins_heeds known given b.brigadeIds).bind fun pins _ =>
      Logged.heeds_ok (t, pins) []
  rw [all]
  refine (b.checkIn_heeds fingerprint).bind fun _ _ => ?_
  have gate : (0 < b.errorsCount ∧ (!force) = true) ↔ (0 < b.errorsCount ∧ force = false) := by
    simp
  simp only [gate]
  exact Logged.heeds_check behind

/-! ## Against envelopes -/

/-- What is held against an envelope before anything in it is decrypted. -/
def Envelope.objections (e : Envelope) (fingerprint : String) : List Error :=
  (if e.realmFingerprint = "" then [] else [.invalidSnapshot "non-empty realm key fingerprint"])
    ++ (if e.authorityFingerprint = "" then
        [.invalidSnapshot "empty authority key fingerprint"] else [])
    ++ (if e.authorityFingerprint = fingerprint then [] else
        [.keysMismatch ("authority: " ++ fingerprint ++ " != " ++ e.authorityFingerprint)])
    ++ (if (e.shares.get? fingerprint).isSome then [] else
        [.invalidSnapshot ("no secret for authority: " ++ fingerprint)])

theorem Envelope.shareFor_heeds (e : Envelope) (fingerprint : String) :
    (Logged.lift (e.shareFor fingerprint)).Heeds (e.objections fingerprint) := by
  intro err
  unfold shareFor objections
  by_cases unbound : e.realmFingerprint = ""
  · by_cases unnamed : e.authorityFingerprint = ""
    · simp [unbound, unnamed, Logged.lift]
    · by_cases mine : e.authorityFingerprint = fingerprint
      · cases share : e.shares.get? fingerprint <;>
          simp [unbound, mine ▸ unnamed, mine, Logged.lift]
      · simp [unbound, unnamed, mine, Logged.lift]
  · simp [unbound, Logged.lift]

/-! ## Two runs -/

/-- Bundles that differ in what is encrypted at most, and in what their envelopes say of
themselves: neither misses the shared secret, and the same brigades stand in the same order. -/
structure Bundle.SameOutline (b c : Bundle) : Prop where
  updateTime : c.updateTime = b.updateTime
  globalTime : c.globalTime = b.globalTime
  tag : c.tag = b.tag
  datacenterId : c.datacenterId = b.datacenterId
  realmFingerprint : c.realmFingerprint = b.realmFingerprint
  authorityFingerprint : c.authorityFingerprint = b.authorityFingerprint
  errorsCount : c.errorsCount = b.errorsCount
  brigadeIds : c.brigadeIds = b.brigadeIds
  secrets : b.sharedSecret ≠ "" ∧ c.sharedSecret ≠ ""

namespace Bundle.SameOutline

variable {b c : Bundle}

theorem length_envelopes (same : b.SameOutline c) : c.envelopes.length = b.envelopes.length := by
  have := congrArg List.length same.brigadeIds
  simpa [Bundle.brigadeIds] using this

theorem isEmpty_envelopes (same : b.SameOutline c) :
    c.envelopes.isEmpty = b.envelopes.isEmpty := by
  rw [Bool.eq_iff_iff, List.isEmpty_iff_length_eq_zero, List.isEmpty_iff_length_eq_zero,
    same.length_envelopes]

theorem isEmpty_sharedSecret (same : b.SameOutline c) :
    c.sharedSecret.isEmpty = b.sharedSecret.isEmpty := by
  rw [Bool.eq_iff_iff, String.isEmpty_iff, String.isEmpty_iff]
  exact iff_of_false same.secrets.2 same.secrets.1

/-- Screening is the same for both, reports included. -/
theorem screened (same : b.SameOutline c) (r : Reservation) (given : Pins) (fingerprint : String)
    (force : Bool) : Bundle.screen c r given fingerprint force =
      Bundle.screen b r given fingerprint force := by
  simp only [Bundle.screen, checkIn, checkCapacity, same.updateTime, same.globalTime, same.tag,
    same.datacenterId, same.realmFingerprint, same.authorityFingerprint, same.errorsCount,
    same.brigadeIds, same.length_envelopes, same.isEmpty_envelopes, same.isEmpty_sharedSecret]

theorem objections (same : b.SameOutline c) (r : Reservation) (given : Pins)
    (fingerprint : String) (force : Bool) : Bundle.objections c r given fingerprint force =
      Bundle.objections b r given fingerprint force := by
  simp only [Bundle.objections, Checkpoint.inOrder, List.flatMap_cons, List.flatMap_nil,
    Checkpoint.objections, flaws, same.updateTime, same.globalTime, same.tag,
    same.datacenterId, same.realmFingerprint, same.authorityFingerprint, same.errorsCount,
    same.brigadeIds, same.length_envelopes, same.isEmpty_envelopes, same.isEmpty_sharedSecret]

end Bundle.SameOutline

/-- Envelopes that name the same keys and have shares for the same authorities. -/
structure Envelope.SameOutline (e f : Envelope) : Prop where
  realmFingerprint : f.realmFingerprint = e.realmFingerprint
  authorityFingerprint : f.authorityFingerprint = e.authorityFingerprint
  shares : ∀ name, (f.shares.get? name).isSome = (e.shares.get? name).isSome

theorem Envelope.SameOutline.objections {e f : Envelope} (same : e.SameOutline f)
    (fingerprint : String) : Envelope.objections f fingerprint =
      Envelope.objections e fingerprint := by
  simp only [Envelope.objections, same.realmFingerprint, same.authorityFingerprint, same.shares]

/-- A run that does not pass the screen ends with what that has reported. -/
theorem createRestorePlan_of_refused {suite : CipherSuite} {entropy : Entropy} {keys : RunKeys}
    {options : RunOptions} {r : Reservation} {given : Pins} {b : Bundle} {e : Error}
    (refused : (b.screen r given keys.authority.fingerprint options.force).result = .error e) :
    createRestorePlan suite entropy keys options r given b =
      ⟨.error e, (b.screen r given keys.authority.fingerprint options.force).events⟩ := by
  simp only [createRestorePlan, bind, Logged.bind, refused]

/-- An envelope without a share for the authority is not decoded. -/
theorem Envelope.decode_of_refused {suite : CipherSuite} {authority : Keys.AuthorityKey}
    {shared : Bytes} {limit : Nat} {e : Envelope} {refusal : Error}
    (refused : e.shareFor authority.fingerprint = .error refusal) :
    e.decode suite authority shared limit = .error refusal := by
  simp only [decode, refused, bind, Except.bind]

/-- **What is refused without secrets is refused alike.** Of two runs whose authorities have the
same fingerprint, with bundles of the same outline and the same reservation, pins and options,
nothing but the first objection decides whether and how they are refused: both end with it and
with the same reports, and without any both go on with the same topology and pins. For envelopes
of the same outline it is the same. -/
theorem refused_alike {keys keys' : RunKeys}
    (mine : keys'.authority.fingerprint = keys.authority.fingerprint) (suite : CipherSuite)
    (entropy entropy' : Entropy) :
    (∀ b c : Bundle, b.SameOutline c → ∀ options r given,
      let objections := b.objections r given keys.authority.fingerprint options.force
      let run := createRestorePlan suite entropy keys options r given b
      let run' := createRestorePlan suite entropy' keys' options r given c
      c.objections r given keys'.authority.fingerprint options.force = objections ∧
        (∀ checkpoint e, objections.head? = some (checkpoint, e) →
          run.result = .error e ∧ run' = run) ∧
        (objections = [] → ∃ t pins,
          (b.screen r given keys.authority.fingerprint options.force).result = .ok (t, pins) ∧
          (c.screen r given keys'.authority.fingerprint options.force).result = .ok (t, pins))) ∧
    ∀ e f : Envelope, e.SameOutline f → ∀ shared shared' limit limit',
      let objections := e.objections keys.authority.fingerprint
      f.objections keys'.authority.fingerprint = objections ∧
        (∀ refusal, objections.head? = some refusal →
          e.decode suite keys.authority shared limit = .error refusal ∧
            f.decode suite keys'.authority shared' limit' = .error refusal) ∧
        (objections = [] → ∃ share share', e.shareFor keys.authority.fingerprint = .ok share ∧
          f.shareFor keys'.authority.fingerprint = .ok share') := by
  rw [mine]
  constructor
  · intro b c same options r given objections run run'
    have heeds := b.screen_heeds r given keys.authority.fingerprint options.force
    have screened := same.screened r given keys.authority.fingerprint options.force
    refine ⟨same.objections .., fun checkpoint e first => ?_, fun none => ?_⟩
    · have refused : (b.screen r given keys.authority.fingerprint options.force).result =
          .error e := by
        rw [heeds e, List.head?_map, first, Option.map_some]
      have own : run = _ := createRestorePlan_of_refused refused
      have refused' : (c.screen r given keys'.authority.fingerprint options.force).result =
          .error e := by
        rw [mine, screened, refused]
      have other : run' = _ := createRestorePlan_of_refused refused'
      rw [own, other, mine, screened]
      exact ⟨rfl, rfl⟩
    · have passed : (b.objections r given keys.authority.fingerprint options.force).map (·.2) =
          [] := List.map_eq_nil_iff.mpr none
      obtain ⟨⟨t, pins⟩, ok⟩ := heeds.ok_iff.mpr passed
      exact ⟨t, pins, ok, screened ▸ ok⟩
  · intro e f same shared shared' limit limit' objections
    have heeds := e.shareFor_heeds keys.authority.fingerprint
    have heeds' := f.shareFor_heeds keys.authority.fingerprint
    rw [same.objections] at heeds'
    refine ⟨same.objections _, fun refusal first => ⟨?_, ?_⟩, fun none => ?_⟩
    · exact Envelope.decode_of_refused ((heeds refusal).mpr first)
    · refine Envelope.decode_of_refused ?_
      rw [mine]
      exact (heeds' refusal).mpr first
    · obtain ⟨share, given⟩ := heeds.ok_iff.mpr none
      obtain ⟨share', given'⟩ := heeds'.ok_iff.mpr none
      exact ⟨share, share', given, given'⟩

/-- Nothing in these two bundles can be decrypted, no router key can be read, and a pin is
outside of the reservation; all that is said is that there are not slots enough. -/
theorem refused_alike_garbled :
    let r : Reservation := ⟨"r", [⟨"n0", "?", [⟨10, 0, 0, 5⟩]⟩]⟩
    let given : Pins := .ofList [("b", ⟨10, 0, 0, 9⟩)]
    let garbled (secret payload : String) : Bundle :=
      { updateTime := ⟨1, 0⟩, globalTime := ⟨1, 0⟩, tag := "t", datacenterId := "d",
        realmFingerprint := "", authorityFingerprint := "SHA256:a", sharedSecret := secret,
        errorsCount := 0,
        envelopes := ["a", "b"].map fun id => { (default : Envelope) with brigadeId := id, payload } }
    let other : RunKeys :=
      { SmallRun.keys with
        authority := { SmallRun.authority with privateKey := ⟨⟨1, 1⟩, 2, 3, 5⟩ }
        master := ⟨[1], ⟨[]⟩⟩ }
    let foreign (payload : String) : Envelope :=
      { (default : Envelope) with authorityFingerprint := "SHA256:b", payload }
    (createRestorePlan .plain ⟨[]⟩ SmallRun.keys .default r given (garbled "?" "?")).result =
        .error (.reservationTooSmall 2 1) ∧
      createRestorePlan .plain ⟨[1]⟩ other .default r given (garbled "!" "!") =
        createRestorePlan .plain ⟨[]⟩ SmallRun.keys .default r given (garbled "?" "?") ∧
      (foreign "?").decode .plain SmallRun.authority [] 0 =
        .error (.keysMismatch "authority: SHA256:a != SHA256:b") ∧
      (foreign "!").decode .plain other.authority [1] 1 =
        .error (.keysMismatch "authority: SHA256:a != SHA256:b") := by
  intro r given garbled other foreign
  have mine : other.authority.fingerprint = SmallRun.keys.authority.fingerprint := rfl
  have law := refused_alike mine .plain ⟨[]⟩ ⟨[1]⟩
  have bundles : (garbled "?" "?").SameOutline (garbled "!" "!") :=
    ⟨rfl, rfl, rfl, rfl, rfl, rfl, rfl, rfl, by decide, by decide⟩
  have envelopes : (foreign "?").SameOutline (foreign "!") := ⟨rfl, rfl, fun _ => rfl⟩
  obtain ⟨-, refused, -⟩ := law.1 _ _ bundles .default r given
  obtain ⟨short, same⟩ := refused .capacity (.reservationTooSmall 2 1) (by decide +kernel)
  obtain ⟨-, refused, -⟩ := law.2 _ _ envelopes [] [1] 0 1
  obtain ⟨first, second⟩ := refused (.keysMismatch "authority: SHA256:a != SHA256:b")
    (by decide +kernel)
  exact ⟨short, same, first, second⟩

end Rehoming
