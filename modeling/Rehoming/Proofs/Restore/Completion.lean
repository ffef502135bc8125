import Rehoming.Proofs.Restore.Skipping

/-! Decoding side by side. The envelopes of a bundle may be done in any order, and only which
failure is the first to come in depends on it. Main statement: whatever the order, decoding gives
all brigades in the order of their envelopes, or none, as it does one after another; an error can be
about another envelope, but only where more than one fails. -/

namespace Rehoming

open Keys

/-- What is gathered is an error exactly if a task has failed before which none did. -/
theorem gather_error_iff {α : Type} {results : List (Except Error α)} {order : List Nat}
    {e : Error} : gather order results = .error e ↔ ∃ front i rest, order = front ++ i :: rest ∧
      results[i]? = some (.error e) ∧ ∀ j ∈ front, ∀ e', results[j]? ≠ some (.error e') := by
  unfold gather
  dsimp only
  generalize found : order.findSome? _ = failure
  have first : failure = some e ↔ ∃ front i rest, order = front ++ i :: rest ∧
      results[i]? = some (.error e) ∧ ∀ j ∈ front, ∀ e', results[j]? ≠ some (.error e') := by
    rw [← found, List.findSome?_eq_some_iff]
    refine exists_congr fun front => exists_congr fun i => exists_congr fun rest =>
      and_congr_right fun _ => and_congr ?_ (forall_congr' fun j => imp_congr_right fun _ => ?_)
    · split
      · rename_i failed
        rw [failed, Option.some.injEq, Option.some.injEq, Except.error.injEq]
      · rename_i other
        exact iff_of_false nofun (other e)
    · split
      · rename_i e' failed
        exact iff_of_false nofun fun fine => fine e' failed
      · rename_i other
        exact iff_of_true rfl other
  rw [← first]
  cases failure with
  | none => exact iff_of_false nofun nofun
  | some e' => rw [Except.error.injEq, Option.some.injEq]

namespace Bundle

/-- The envelope in place `i` cannot be decoded, and this is what is said of it. -/
def FailsAt (suite : CipherSuite) (authority : AuthorityKey) (limit : Nat) (b : Bundle) (i : Nat)
    (e : Error) : Prop :=
  ∃ shared envelope cause, b.shared suite authority = .ok shared ∧
    b.envelopes[i]? = some envelope ∧ envelope.decode suite authority shared limit = .error cause ∧
      e = .inBrigade envelope.brigadeId .decode cause

theorem FailsAt.unique {suite : CipherSuite} {authority : AuthorityKey} {limit : Nat} {b : Bundle}
    {i : Nat} {e e' : Error} (h : b.FailsAt suite authority limit i e)
    (h' : b.FailsAt suite authority limit i e') : e = e' := by
  obtain ⟨shared, envelope, cause, opened, there, failed, rfl⟩ := h
  obtain ⟨shared', envelope', cause', opened', there', failed', rfl⟩ := h'
  cases opened.symm.trans opened'
  cases there.symm.trans there'
  cases failed.symm.trans failed'
  rfl

/-- An order in which decoding can have ended: all envelopes are done, or one that is has failed,
and the others were not waited for. -/
def Settles (suite : CipherSuite) (authority : AuthorityKey) (limit : Nat) (b : Bundle)
    (order : List Nat) : Prop :=
  (∀ i < b.envelopes.length, i ∈ order) ∨ ∃ i ∈ order, ∃ e, b.FailsAt suite authority limit i e

variable {suite : CipherSuite} {authority : AuthorityKey} {limit : Nat} {b : Bundle}

theorem brigades_error_iff {shared : Bytes} (opened : b.shared suite authority = .ok shared)
    {i : Nat} {e : Error} :
    (b.brigades suite authority shared limit)[i]? = some (.error e) ↔
      b.FailsAt suite authority limit i e := by
  rw [brigades, List.getElem?_map, Option.map_eq_some_iff]
  constructor
  · rintro ⟨envelope, there, failed⟩
    obtain ⟨cause, closed, rfl⟩ := mapError_error_iff.mp failed
    exact ⟨shared, envelope, cause, opened, there, closed, rfl⟩
  · rintro ⟨shared', envelope, cause, opened', there, failed, rfl⟩
    cases opened.symm.trans opened'
    exact ⟨envelope, there, mapError_error_iff.mpr ⟨cause, failed, rfl⟩⟩

/-- Without the secret that they share, no envelope is looked at. -/
theorem not_failsAt {e e' : Error} (closed : b.shared suite authority = .error e) {i : Nat} :
    ¬ b.FailsAt suite authority limit i e' := by
  rintro ⟨shared, -, -, opened, -⟩
  cases closed.symm.trans opened

theorem Settles.settled {order : List Nat} (settles : b.Settles suite authority limit order)
    {shared : Bytes} (opened : b.shared suite authority = .ok shared) :
    Settled (b.brigades suite authority shared limit) order := by
  have size : (b.brigades suite authority shared limit).length = b.envelopes.length :=
    List.length_map _
  refine settles.imp (fun all i inside => all i (size ▸ inside)) ?_
  rintro ⟨i, hi, e, failed⟩
  exact ⟨i, hi, e, (brigades_error_iff opened).mpr failed⟩

theorem decodeIn_error_iff {order : List Nat} {e : Error} :
    (b.decodeIn suite authority limit order).result = .error e ↔
      b.shared suite authority = .error e ∨ ∃ front i rest, order = front ++ i :: rest ∧
        b.FailsAt suite authority limit i e ∧
        ∀ j ∈ front, ∀ e', ¬ b.FailsAt suite authority limit j e' := by
  rw [decodeIn_result, bind_error_iff]
  refine or_congr_right ⟨?_, ?_⟩
  · rintro ⟨shared, opened, gathered⟩
    simpa only [ne_eq, brigades_error_iff opened] using gather_error_iff.mp gathered
  · rintro ⟨front, i, rest, split, failed, fine⟩
    obtain ⟨shared, -, -, opened, -⟩ := id failed
    refine ⟨shared, opened, gather_error_iff.mpr ⟨front, i, rest, split, ?_⟩⟩
    simp only [ne_eq, brigades_error_iff opened]
    exact ⟨failed, fine⟩

/-- Decoding side by side ends in the order in which envelopes were done until all was settled. -/
theorem decodeAll_parallel {options : RunOptions} (parallel : options.parallel = true)
    (settles : b.Settles suite authority options.limit options.settling) :
    (b.decodeAll suite authority options).result =
      (b.decodeIn suite authority options.limit options.settling).result := by
  rw [decodeAll, if_pos parallel, decodeIn_result, decodeIn_result]
  cases opened : b.shared suite authority with
  | error e => rfl
  | ok shared =>
    have gathered := gather_completion (settles.settled opened)
    rwa [length_brigades] at gathered

/-- In the order of the envelopes, a failure is the first to come in if those in front are fine. -/
theorem decode_error_iff {e : Error} : (b.decode suite authority limit).result = .error e ↔
    b.shared suite authority = .error e ∨ ∃ i, b.FailsAt suite authority limit i e ∧
      ∀ j < i, ∀ e', ¬ b.FailsAt suite authority limit j e' := by
  rw [decode, decodeIn_error_iff]
  refine or_congr_right ⟨?_, ?_⟩
  · rintro ⟨front, i, rest, split, failed, fine⟩
    have size : front.length < (List.range b.envelopes.length).length := by simp [split]
    have here : i = front.length := by
      have there := List.getElem_range size
      simpa [split] using there
    have before : front = List.range front.length := by
      have taken := congrArg (List.take front.length) split
      rw [List.take_range, List.take_left, Nat.min_eq_left] at taken
      · exact taken.symm
      · simpa using size.le
    refine ⟨i, failed, fun j early => fine j ?_⟩
    rw [before, List.mem_range]
    exact here ▸ early
  · rintro ⟨i, failed, fine⟩
    obtain ⟨-, envelope, -, -, there, -⟩ := id failed
    obtain ⟨inside, -⟩ := List.getElem?_eq_some_iff.mp there
    have split : List.range b.envelopes.length =
        List.range i ++ i :: (List.range b.envelopes.length).drop (i + 1) := by
      conv_lhs => rw [← List.take_append_drop i (List.range b.envelopes.length)]
      rw [List.take_range, Nat.min_eq_left inside.le,
        List.drop_eq_getElem_cons (by simpa using inside), List.getElem_range]
    exact ⟨_, i, _, split, failed, fun j early => fine j (List.mem_range.mp early)⟩

/-- **Side by side or one after another.** In whichever order decoding ends, it has brigades to show
exactly if it has them one after another, and then the same, in the order of the envelopes. Where
the shared secret cannot be had both fail for that. Otherwise both fail for an envelope that cannot
be decoded, and name its brigade: one after another, it is the first of the bundle, and side by side
the first to come in. If there is only one, the error is the same. One and the other are what runs
get whose options ask for them. -/
theorem decodeIn_agrees (suite : CipherSuite) (authority : AuthorityKey) (limit : Nat) (b : Bundle)
    {order : List Nat} (settles : b.Settles suite authority limit order) :
    let one := (b.decode suite authority limit).result
    let many := (b.decodeIn suite authority limit order).result
    let fails := b.FailsAt suite authority limit
    (∀ brigades, many = .ok brigades ↔ one = .ok brigades) ∧
    (∀ brigades, one = .ok brigades → ∃ shared, b.shared suite authority = .ok shared ∧
      List.Forall₂ (fun e c => e.decode suite authority shared limit = .ok c)
        b.envelopes brigades) ∧
    (∀ e, b.shared suite authority = .error e → one = .error e ∧ many = .error e) ∧
    (∀ e, one = .error e ↔ b.shared suite authority = .error e ∨
      ∃ i, fails i e ∧ ∀ j < i, ∀ e', ¬ fails j e') ∧
    (∀ e, many = .error e ↔ b.shared suite authority = .error e ∨
      ∃ front i rest, order = front ++ i :: rest ∧ fails i e ∧ ∀ j ∈ front, ∀ e', ¬ fails j e') ∧
    ((∀ i j e e', fails i e → fails j e' → i = j) → many = one) ∧
    ∀ options : RunOptions, options.limit = limit → options.settling = order →
      (b.decodeAll suite authority { options with parallel := false }).result = one ∧
        (b.decodeAll suite authority { options with parallel := true }).result = many := by
  intro one many fails
  have fine (brigades : List Brigade) : many = .ok brigades ↔ one = .ok brigades := by
    rw [decode_ok_iff]
    exact decodeIn_ok_iff fun _ opened => settles.settled opened
  refine ⟨fine, fun brigades decoded => decode_ok_iff.mp decoded, fun e closed => ?_,
    fun e => decode_error_iff, fun e => decodeIn_error_iff, fun single => ?_,
    fun options limited settled => ?_⟩
  · exact ⟨decode_error_iff.mpr (.inl closed), decodeIn_error_iff.mpr (.inl closed)⟩
  · cases decoded : one with
    | ok brigades => exact (fine brigades).mpr decoded
    | error e =>
      cases gathered : many with
      | ok brigades =>
        have other := (fine brigades).mp gathered
        cases decoded.symm.trans other
      | error e' =>
        obtain closed | ⟨i, failed, -⟩ := decode_error_iff.mp decoded
        · exact gathered.symm.trans (decodeIn_error_iff.mpr (.inl closed))
        obtain closed' | ⟨-, j, -, -, failed', -⟩ := decodeIn_error_iff.mp gathered
        · exact absurd failed (not_failsAt closed')
        · cases single i j e e' failed failed'
          exact congrArg _ (failed'.unique failed)
  · subst limited
    subst settled
    exact ⟨rfl, decodeAll_parallel rfl settles⟩

/-- An envelope that names no authority, so that it cannot be decoded. -/
def unnamed (id : String) : Envelope :=
  { (default : Envelope) with brigadeId := id, authorityFingerprint := "" }

/-- What decoding says of such an envelope. -/
def unnamedError (id : String) : Error :=
  .inBrigade id .decode (.invalidSnapshot "empty authority key fingerprint")

/-- The first of two brigades cannot be decoded, and the second is not waited for. -/
theorem decodeIn_agrees_early :
    let b : Bundle := { (default : Bundle) with envelopes := [unnamed "a", unnamed "b"] }
    let options : RunOptions := { RunOptions.default with settling := [0] }
    b.Settles .plain SmallRun.authority options.limit [0] ∧
      (b.decodeAll .plain SmallRun.authority { options with parallel := true }).result =
        .error (unnamedError "a") := by
  intro b options
  have failed : b.FailsAt .plain SmallRun.authority options.limit 0 (unnamedError "a") :=
    ⟨[], unnamed "a", _, by decide +kernel, rfl, by decide +kernel, rfl⟩
  have settles : b.Settles .plain SmallRun.authority options.limit [0] :=
    .inr ⟨0, by decide, _, failed⟩
  obtain ⟨-, -, -, -, named, -, runs⟩ :=
    decodeIn_agrees .plain SmallRun.authority options.limit b settles
  have first := (named _).mpr (.inr ⟨[], 0, [], rfl, failed, nofun⟩)
  exact ⟨settles, (runs options rfl rfl).2.trans first⟩

/-- Of two brigades that cannot be decoded, the one that comes in first is named. Of none is it said
where the shared secret is garbled, however many cannot be decoded. -/
theorem decodeIn_differs :
    let b : Bundle := { (default : Bundle) with envelopes := [unnamed "a", unnamed "b"] }
    let garbled : Bundle := { b with sharedSecret := "?" }
    let error : Error := .encoding "base64 pre-shared secret: Invalid symbol 63, offset 0."
    let run (b : Bundle) (parallel : Bool) := (b.decodeAll .plain SmallRun.authority
      { RunOptions.default with parallel, settling := [1, 0] }).result
    run b false = .error (unnamedError "a") ∧ run b true = .error (unnamedError "b") ∧
      run garbled false = .error error ∧ run garbled true = .error error := by
  decide +kernel

end Bundle
end Rehoming
