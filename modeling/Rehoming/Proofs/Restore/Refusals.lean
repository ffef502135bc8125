import Rehoming.Restore
import Rehoming.Proofs.Placement.Addresses
import Rehoming.Proofs.Placement.Assignments
import Rehoming.Proofs.Restore.Bundles

/-! Which errors a run can end in, step by step. Each step before the placement of brigades
has errors of its own, so that an error tells how far the run has come. -/

namespace Rehoming

namespace Logged

variable {α β : Type}

theorem bind_error_iff {x : Logged α} {f : α → Logged β} {e : Error} :
    (x >>= f).result = .error e ↔
      x.result = .error e ∨ ∃ a, x.result = .ok a ∧ (f a).result = .error e := by
  obtain ⟨result, events⟩ := x
  cases result with
  | error e' => simp [bind]
  | ok a => simp [bind]

/-- A check fails, or what comes behind it does. -/
theorem error_of_check {c : Prop} [Decidable c] {refusal e : Error} {next : Unit → Logged α}
    (h : (if c then fail refusal >>= next else next ()).result = .error e) :
    e = refusal ∨ (next ()).result = .error e := by
  split at h
  · rcases bind_error_iff.mp h with refused | ⟨u, passed, -⟩
    · exact .inl (Except.error.inj refused).symm
    · cases passed
  · exact .inr h

end Logged

/-! ## Before anything is decrypted -/

theorem Bundle.checkIn_error {b : Bundle} {fingerprint : String} {e : Error}
    (h : (b.checkIn fingerprint).result = .error e) :
    ∃ reason, e = .invalidSnapshot reason ∨ e = .keysMismatch reason := by
  unfold checkIn at h
  extract_lets invalid bound reported filled shared authority realm datacenter tag globalTime at h
  -- the eight checks of the contents, one after another
  iterate 8
    obtain refused | passed := Logged.error_of_check h
    · exact ⟨_, .inl refused⟩
    replace h := passed
  have mismatch : (bound ()).result = .error e := by
    simp only [reported] at h
    split at h
    · rcases Logged.bind_error_iff.mp h with none | ⟨u, -, h⟩
      · cases none
      · exact h
    · exact h
  simp only [bound] at mismatch
  split at mismatch
  · cases mismatch
    exact ⟨_, .inr rfl⟩
  · cases mismatch

namespace Topology

theorem ofReservation_error {r : Reservation} {e : Error} (h : ofReservation r = .error e) :
    ∃ reason, e = .invalidKey reason := by
  rcases bind_error_iff.mp h with failed | ⟨nodes, -, made⟩
  · obtain ⟨host, -, unread⟩ := exists_of_mapM_error failed
    unfold nodeOf at unread
    split at unread
    · cases unread
    · cases unread
      exact ⟨_, rfl⟩
  · cases made

theorem checkEntries_error {t : Topology} {ids : List String} {taken : List Ipv4}
    {accepted : Pins} {entries : List (String × Ipv4)} {e : Error}
    (h : (t.checkEntries ids taken accepted entries).result = .error e) :
    ∃ address id, e = .pinNotFound address id ∨ e = .pinDuplicated address id := by
  induction entries generalizing taken accepted with
  | nil => cases h
  | cons entry rest ih =>
    obtain ⟨id, address⟩ := entry
    rw [checkEntries] at h
    split at h
    · rcases Logged.bind_error_iff.mp h with none | ⟨u, -, h⟩
      · cases none
      · exact ih h
    · split at h
      · cases h
        exact ⟨_, _, .inl rfl⟩
      · split at h
        · cases h
          exact ⟨_, _, .inr rfl⟩
        · exact ih h

theorem checkPins_error {t : Topology} {pins : Pins} {ids : List String} {e : Error}
    (h : (t.checkPins pins ids).result = .error e) :
    ∃ address id, e = .pinNotFound address id ∨ e = .pinDuplicated address id :=
  checkEntries_error h

end Topology

/-! ## Decoding -/

theorem CipherSuite.unwrapField_error {suite : CipherSuite} {key : Keys.AuthorityKey}
    {text what : String} {e : Error} (h : suite.unwrapField key text what = .error e) :
    ∃ reason, e = .encoding reason ∨ e = .decryptionFailed reason := by
  rcases bind_error_iff.mp h with unread | ⟨ciphertext, -, h⟩
  · unfold Keys.decodeField at unread
    split at unread
    · cases unread
    · cases unread
      exact ⟨_, .inl rfl⟩
  · split at h
    · cases h
    · cases h
      exact ⟨_, .inr rfl⟩

theorem gather_error {α : Type} {order : List Nat} {results : List (Except Error α)} {e : Error}
    (h : gather order results = .error e) : .error e ∈ results := by
  unfold gather at h
  dsimp only at h
  split at h
  · rename_i found
    cases h
    obtain ⟨i, -, here⟩ := List.exists_of_findSome?_eq_some found
    split at here
    · rename_i there
      cases here
      exact List.mem_of_getElem? there
    · cases here
  · cases h

/-- The secret of the bundle cannot be had, or an error names the brigade it is about. -/
theorem Bundle.decodeIn_error {suite : CipherSuite} {authority : Keys.AuthorityKey} {limit : Nat}
    {order : List Nat} {b : Bundle} {e : Error}
    (h : (b.decodeIn suite authority limit order).result = .error e) :
    (∃ reason, e = .encoding reason ∨ e = .decryptionFailed reason) ∨
      ∃ id cause, e = .inBrigade id .decode cause := by
  rw [decodeIn_result] at h
  rcases bind_error_iff.mp h with unwrapped | ⟨shared, -, h⟩
  · exact .inl (CipherSuite.unwrapField_error unwrapped)
  · obtain ⟨envelope, -, failed⟩ := List.mem_map.mp (gather_error h)
    obtain ⟨cause, -, rfl⟩ := mapError_error_iff.mp failed
    exact .inr ⟨_, cause, rfl⟩

theorem Bundle.decodeAll_error {suite : CipherSuite} {authority : Keys.AuthorityKey}
    {options : RunOptions} {b : Bundle} {e : Error}
    (h : (b.decodeAll suite authority options).result = .error e) :
    (∃ reason, e = .encoding reason ∨ e = .decryptionFailed reason) ∨
      ∃ id cause, e = .inBrigade id .decode cause := by
  unfold decodeAll at h
  split at h
  · exact decodeIn_error h
  · exact decodeIn_error h

/-- Decoding gives a brigade for each envelope. -/
theorem Bundle.length_decode {suite : CipherSuite} {authority : Keys.AuthorityKey} {limit : Nat}
    {b : Bundle} {brigades : List Brigade}
    (h : (b.decode suite authority limit).result = .ok brigades) :
    brigades.length = b.envelopes.length := by
  obtain ⟨shared, -, each⟩ := decode_ok_iff.mp h
  exact each.length_eq.symm

/-! ## Placing -/

/-- No node has the address, or it is taken where it is. -/
theorem Topology.findFree_error {t : Topology} {used : List (Nat × Ipv4)} {id : String}
    {address : Ipv4} {e : Error} (h : t.findFree used id address = .error e) :
    e = .mirroredNotFound address id ∧ ¬ t.Declares address ∨
      e = .mirroredDuplicated address id ∧ ∃ node, (node, address) ∈ used := by
  unfold findFree at h
  split at h
  · rename_i located
    cases h
    exact .inl ⟨rfl, locate_eq_none_iff.mp located⟩
  · rename_i node located
    split at h
    · rename_i taken
      cases h
      exact .inr ⟨rfl, node, List.contains_iff_mem.mp taken⟩
    · cases h

theorem Assignment.mirrored_failure {t : Topology} {pins : CheckedPins} {policy : PlacementPolicy}
    {used : List (Nat × Ipv4)} {brigades : List Brigade} {e : Error}
    (h : (mirrored t pins policy used brigades).failure = some e) :
    ∃ address id, e = .mirroredNotFound address id ∨ e = .mirroredDuplicated address id := by
  induction brigades generalizing used with
  | nil => cases h
  | cons b rest ih =>
    rw [mirrored] at h
    split at h
    · exact ih h
    · rename_i misfit
      cases policy with
      | skip => exact ih h
      | fatal =>
        cases h
        exact ⟨_, _, (Topology.findFree_error misfit).imp And.left And.left⟩

end Rehoming
