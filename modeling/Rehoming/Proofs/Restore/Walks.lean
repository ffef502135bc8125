import Mathlib.Data.List.Nodup
import Rehoming.Proofs.Restore.Resealing

/-! The walk over the secrets of a brigade, against its reference: a list of what has to be dealt
with, one entry after another up to the first that fails. Main statement: a walk asks for exactly
those ciphertexts that are there, in order, and ends with the error of the first failing entry, or
with the brigade in which every router has its answer and all else is as before. -/

namespace Rehoming

/-! ## What has to be dealt with -/

/-- One secret of a walk: where it belongs, whether it must be there, and what the master has. -/
structure Entry where
  site : Site
  required : Bool
  master : String

def User.entries (u : User) (i : Nat) : List Entry :=
  [⟨⟨some i, 0, "wg psk"⟩, true, u.wgPsk.master⟩,
   ⟨⟨some i, 1, "cloak bypass uid"⟩, false, u.cloakBypassUid.master⟩,
   ⟨⟨some i, 2, "ipsec username"⟩, false, u.ipsecUsername.master⟩,
   ⟨⟨some i, 3, "ipsec password"⟩, false, u.ipsecPassword.master⟩,
   ⟨⟨some i, 4, "outline secret"⟩, false, u.outlineSecret.master⟩]

/-- The secrets of the brigade, and then those of its users. -/
def Brigade.entries (b : Brigade) : List Entry :=
  [⟨⟨none, 0, "wg private key"⟩, true, b.wgPrivate.master⟩,
   ⟨⟨none, 1, "openvpn ca key"⟩, false, b.ovCaKey.master⟩,
   ⟨⟨none, 2, "ipsec psk"⟩, false, b.ipsecPsk.master⟩] ++
    b.users.zipIdx.flatMap fun u => u.1.entries u.2

namespace Entry

/-- Why an entry fails, if it does. -/
def cause? (f : Resealer) (e : Entry) : Option Error :=
  if e.master = "" then
    if e.required then some (.decryptionFailed (e.site.field ++ ": empty")) else none
  else
    match f e.site e.master with
    | .ok _ => none
    | .error cause => some cause

/-- The error of an entry. That of a user's names the user, if it is about decryption. -/
def failure? (f : Resealer) (e : Entry) : Option Error :=
  match e.site.user, e.cause? f with
  | some i, some (.decryptionFailed what) => some (.decryptionFailed s!"user {i}: {what}")
  | _, cause => cause

/-- The entries up to the first that fails, which is the last one. -/
def untilFailure (fails : Entry → Option Error) : List Entry → List Entry
  | [] => []
  | e :: rest => if (fails e).isSome then [e] else e :: untilFailure fails rest

/-- What is asked for on the way: the ciphertexts that are there. -/
def asked (fails : Entry → Option Error) (entries : List Entry) : List (Site × String) :=
  ((untilFailure fails entries).filter fun e => e.master ≠ "").map fun e => (e.site, e.master)

end Entry

/-! ## What becomes of it -/

/-- The secret with the answer for its own ciphertext, or with none where there is no ciphertext. -/
def Secret.answered (f : Resealer) (site : Site) (s : Secret) : Secret :=
  { s with router := if s.master = "" then "" else (f site s.master).toOption.getD "" }

def User.answered (f : Resealer) (i : Nat) (u : User) : User :=
  { u with
    wgPsk := u.wgPsk.answered f ⟨some i, 0, "wg psk"⟩
    cloakBypassUid := u.cloakBypassUid.answered f ⟨some i, 1, "cloak bypass uid"⟩
    ipsecUsername := u.ipsecUsername.answered f ⟨some i, 2, "ipsec username"⟩
    ipsecPassword := u.ipsecPassword.answered f ⟨some i, 3, "ipsec password"⟩
    outlineSecret := u.outlineSecret.answered f ⟨some i, 4, "outline secret"⟩ }

def Brigade.answered (f : Resealer) (slot : Ipv4) (b : Brigade) : Brigade :=
  { b with
    address := slot
    wgPrivate := b.wgPrivate.answered f ⟨none, 0, "wg private key"⟩
    ovCaKey := b.ovCaKey.answered f ⟨none, 1, "openvpn ca key"⟩
    ipsecPsk := b.ipsecPsk.answered f ⟨none, 2, "ipsec psk"⟩
    users := b.users.zipIdx.map fun u => u.1.answered f u.2 }

/-! ## Walks along entries -/

namespace Entry

variable {fails fails' : Entry → Option Error}

theorem asked_cons (fails : Entry → Option Error) (e : Entry) (rest : List Entry) :
    asked fails (e :: rest) = (if e.master = "" then [] else [(e.site, e.master)]) ++
      if (fails e).isSome then [] else asked fails rest := by
  unfold asked
  rw [untilFailure]
  by_cases absent : e.master = "" <;> by_cases failed : (fails e).isSome = true <;>
    simp [absent, failed]

theorem asked_append (front back : List Entry) :
    asked fails (front ++ back) =
      asked fails front ++ if (front.findSome? fails).isSome then [] else asked fails back := by
  induction front with
  | nil => rfl
  | cons e front ih =>
    rw [List.cons_append, asked_cons, asked_cons, ih, List.append_assoc, List.findSome?_cons]
    cases fails e <;> simp

/-- Which ciphertexts are asked for does not depend on how errors are put. -/
theorem asked_congr {g : Error → Error} {entries : List Entry}
    (put : ∀ e ∈ entries, fails' e = (fails e).map g) :
    asked fails' entries = asked fails entries := by
  induction entries with
  | nil => rfl
  | cons e rest ih =>
    rw [asked_cons, asked_cons, put e List.mem_cons_self, Option.isSome_map,
      ih fun e' he' => put e' (List.mem_cons_of_mem _ he')]

theorem findSome?_congr {g : Error → Error} {entries : List Entry}
    (put : ∀ e ∈ entries, fails' e = (fails e).map g) :
    entries.findSome? fails' = (entries.findSome? fails).map g := by
  induction entries with
  | nil => rfl
  | cons e rest ih =>
    rw [List.findSome?_cons, List.findSome?_cons, put e List.mem_cons_self]
    cases fails e with
    | some cause => rfl
    | none => exact ih fun e' he' => put e' (List.mem_cons_of_mem _ he')

end Entry

/-- A walk that deals with these entries, and if none fails has made this of the whole. -/
structure Walk.Along {α : Type} (fails : Entry → Option Error) (entries : List Entry) (made : α)
    (w : Walk α) : Prop where
  calls : w.calls = Entry.asked fails entries
  error : w.error = entries.findSome? fails
  value : w.error = none → w.value = made

namespace Walk.Along

variable {α β : Type} {fails fails' : Entry → Option Error} {entries more : List Entry} {x y : α}
  {w : Walk α}

theorem start (x : α) : Along fails [] x (.start x) := ⟨rfl, rfl, fun _ => rfl⟩

/-- Behind an entry that has failed nothing is done. -/
theorem stopped (here : Along fails entries x w) {e : Error} (ended : w.error = some e)
    (more : List Entry) (value made : β) :
    Along fails (entries ++ more) made ⟨value, w.calls, some e⟩ := by
  have failed : entries.findSome? fails = some e := here.error.symm.trans ended
  refine ⟨?_, ?_, nofun⟩
  · rw [here.calls, Entry.asked_append, failed, Option.isSome_some, if_pos rfl, List.append_nil]
  · rw [List.findSome?_append, failed, Option.some_or]

theorem goesOn (here : Along fails entries x w) (ended : w.error = none) {y : β} {v : Walk β}
    (next : Along fails more y v) :
    Along fails (entries ++ more) y ⟨v.value, w.calls ++ v.calls, v.error⟩ := by
  have passed : entries.findSome? fails = none := here.error.symm.trans ended
  refine ⟨?_, ?_, next.value⟩
  · rw [here.calls, next.calls, Entry.asked_append, passed]
    rfl
  · rw [List.findSome?_append, passed, Option.none_or, next.error]

theorem andThen (here : Along fails entries x w) {step : α → Walk α}
    (next : Along fails more y (step x)) : Along fails (entries ++ more) y (w.andThen step) := by
  unfold Walk.andThen
  cases ended : w.error with
  | some e =>
    have whole := here.stopped ended more w.value y
    rwa [← ended] at whole
  | none =>
    rw [here.value ended]
    exact here.goesOn ended next

/-- The same walk with its error put in another way. -/
theorem mapError (here : Along fails entries x w) {g : Error → Error}
    (put : ∀ e ∈ entries, fails' e = (fails e).map g) :
    Along fails' entries x { w with error := w.error.map g } where
  calls := here.calls.trans (Entry.asked_congr put).symm
  error := by rw [here.error, Entry.findSome?_congr put]
  value done := here.value (Option.map_eq_none_iff.mp done)

/-- The walk over a part is one over the whole that the part belongs to. -/
theorem into {made : β} (here : Along fails entries x w) {g : α → β} (h : g x = made) :
    Along fails entries made ⟨g w.value, w.calls, w.error⟩ where
  calls := here.calls
  error := here.error
  value done := (congrArg g (here.value done)).trans h

theorem result_ok_iff (here : Along fails entries x w) {z : α} :
    w.result = .ok z ↔ entries.findSome? fails = none ∧ z = x := by
  rw [Walk.result_ok_iff, here.error]
  refine and_congr_right fun done => ?_
  rw [here.value (here.error.trans done), eq_comm]

theorem result_error_iff (here : Along fails entries x w) {e : Error} :
    w.result = .error e ↔ entries.findSome? fails = some e := by
  rw [← here.error]
  unfold Walk.result
  cases w.error <;> simp

end Walk.Along

variable {f : Resealer}

theorem Secret.reseal_along (site : Site) (required : Bool) (s : Secret) :
    Walk.Along (Entry.cause? f) [⟨site, required, s.master⟩] (s.answered f site)
      (s.reseal f site required) := by
  have calls := Entry.asked_cons (Entry.cause? f) ⟨site, required, s.master⟩ []
  have error := List.findSome?_singleton (f := Entry.cause? f) (a := ⟨site, required, s.master⟩)
  simp only [Entry.cause?] at calls error
  unfold reseal answered
  by_cases absent : s.master = ""
  · simp only [absent, if_true] at calls error ⊢
    cases required with
    | true => exact ⟨calls.symm, error.symm, fun done => absurd done (Option.some_ne_none _)⟩
    | false => exact ⟨calls.symm, error.symm, fun _ => rfl⟩
  · simp only [absent, if_false, String.isEmpty_iff] at calls error ⊢
    cases answer : f site s.master with
    | ok router =>
      simp only [answer] at calls error
      exact ⟨calls.symm, error.symm, fun _ => rfl⟩
    | error e =>
      simp only [answer] at calls error
      exact ⟨calls.symm, error.symm, fun done => absurd done (Option.some_ne_none _)⟩

/-! ## Fields of a brigade or a user -/

namespace SealedField

variable {α : Type}

def entry (user : Option Nat) (x : α) (field : SealedField α × Nat) : Entry :=
  ⟨⟨user, field.2, field.1.name⟩, field.1.required, (field.1.get x).master⟩

/-- The whole with the answer for one of its secrets in place. -/
def answered (f : Resealer) (user : Option Nat) (x : α) (field : SealedField α × Nat) : α :=
  field.1.set x ((field.1.get x).answered f ⟨user, field.2, field.1.name⟩)

/-- No answer is put where another of these fields has its ciphertext. -/
def Apart (fields : List (SealedField α)) : Prop :=
  ∀ a ∈ fields, ∀ b ∈ fields, ∀ x s, s.master = (a.get x).master →
    (b.get (a.set x s)).master = (b.get x).master

theorem reseal_along (user : Option Nat) (x : α) (field : SealedField α × Nat) :
    Walk.Along (Entry.cause? f) [entry user x field] (answered f user x field)
      (field.1.reseal f ⟨user, field.2, field.1.name⟩ x) :=
  (Secret.reseal_along _ field.1.required (field.1.get x)).into rfl

theorem entry_answered {fields : List (SealedField α)} (apart : Apart fields) (user : Option Nat)
    (x : α) {a b : SealedField α × Nat} (ha : a.1 ∈ fields) (hb : b.1 ∈ fields) :
    entry user (answered f user x a) b = entry user x b :=
  congrArg (Entry.mk _ _) (apart a.1 ha b.1 hb x _ rfl)

theorem foldl_along {fields : List (SealedField α)} (apart : Apart fields) (user : Option Nat)
    {rest : List (SealedField α × Nat)} (sub : ∀ field ∈ rest, field.1 ∈ fields)
    {done : List Entry} {x : α} {w : Walk α} (here : Walk.Along (Entry.cause? f) done x w) :
    Walk.Along (Entry.cause? f) (done ++ rest.map (entry user x))
      (rest.foldl (answered f user) x)
      (rest.foldl (fun w field =>
        w.andThen (field.1.reseal f ⟨user, field.2, field.1.name⟩)) w) := by
  induction rest generalizing done x w with
  | nil => rwa [List.map_nil, List.append_nil]
  | cons field rest ih =>
    have later := ih (fun b hb => sub b (List.mem_cons_of_mem _ hb))
      (here.andThen (reseal_along user x field))
    have masters : rest.map (entry user (answered f user x field)) = rest.map (entry user x) :=
      List.map_congr_left fun b hb => entry_answered apart user x (sub field List.mem_cons_self)
        (sub b (List.mem_cons_of_mem _ hb))
    rwa [masters, List.append_assoc] at later

end SealedField

theorem resealFields_along {α : Type} {fields : List (SealedField α)}
    (apart : SealedField.Apart fields) (user : Option Nat) (x : α) :
    Walk.Along (Entry.cause? f) (fields.zipIdx.map (SealedField.entry user x))
      (fields.zipIdx.foldl (SealedField.answered f user) x) (resealFields f user fields x) :=
  SealedField.foldl_along apart user (fun _ h => List.fst_mem_of_mem_zipIdx h) (.start x)

theorem Brigade.sealedFields_apart : SealedField.Apart Brigade.sealedFields := by
  simp +contextual [SealedField.Apart, Brigade.sealedFields]

theorem User.sealedFields_apart : SealedField.Apart User.sealedFields := by
  simp +contextual [SealedField.Apart, User.sealedFields]

/-! ## Users and brigades -/

theorem Entry.failure?_of_user {i : Nat} {e : Entry} (ofUser : e.site.user = some i) :
    e.failure? f = (e.cause? f).map (Error.forUser i) := by
  unfold failure?
  rw [ofUser]
  cases e.cause? f with
  | none => rfl
  | some cause => cases cause <;> rfl

theorem Entry.failure?_of_brigade {e : Entry} (own : e.site.user = none) :
    e.failure? f = e.cause? f := by
  unfold failure?
  rw [own]

theorem User.entries_user {u : User} {i : Nat} {e : Entry} (h : e ∈ u.entries i) :
    e.site.user = some i := by
  revert e
  simp [entries]

theorem resealUser_along (i : Nat) (u : User) :
    Walk.Along (Entry.failure? f) (u.entries i) (u.answered f i) (resealUser f i u) := by
  have fields : Walk.Along (Entry.cause? f) (u.entries i) (u.answered f i)
      (resealFields f (some i) User.sealedFields u) :=
    resealFields_along User.sealedFields_apart (some i) u
  exact fields.mapError fun e he => Entry.failure?_of_user (User.entries_user he)

theorem resealUsers_along (i : Nat) (users : List User) :
    Walk.Along (Entry.failure? f) ((users.zipIdx i).flatMap fun u => u.1.entries u.2)
      ((users.zipIdx i).map fun u => u.1.answered f u.2) (resealUsers f i users) := by
  induction users generalizing i with
  | nil => exact .start []
  | cons u rest ih =>
    have first := resealUser_along (f := f) i u
    rw [resealUsers]
    dsimp only
    cases ended : (resealUser f i u).error with
    | some e => exact first.stopped ended _ _ _
    | none =>
      have made := congrArg (· :: (rest.zipIdx (i + 1)).map fun u => u.1.answered f u.2)
        (first.value ended)
      exact first.goesOn ended ((ih (i + 1)).into made)

theorem Walk.Along.ofBrigade {α : Type} {entries : List Entry} {x : α} {w : Walk α}
    (here : Along (Entry.cause? f) entries x w) (own : ∀ e ∈ entries, e.site.user = none) :
    Along (Entry.failure? f) entries x w := by
  have put : ∀ e ∈ entries, e.failure? f = (e.cause? f).map fun cause => cause := by
    intro e he
    rw [Entry.failure?_of_brigade (own e he), Option.map_id']
  have whole := here.mapError put
  rwa [Option.map_id'] at whole

theorem Brigade.recode_along (slot : Ipv4) (b : Brigade) :
    Walk.Along (Entry.failure? f) b.entries (b.answered f slot) (b.recode f slot) := by
  have fields := resealFields_along (f := f) Brigade.sealedFields_apart none
    { b with address := slot }
  have own := fields.ofBrigade fun e he => by
    obtain ⟨field, -, rfl⟩ := List.mem_map.mp he
    rfl
  have users : Walk.Along (Entry.failure? f) _ (b.answered f slot) _ :=
    (resealUsers_along 0 b.users).into (g := fun users => { b.answered f slot with users }) rfl
  exact own.andThen users

/-! ## What a walk needs -/

theorem Entry.failure?_eq_none_iff {e : Entry} :
    e.failure? f = none ↔ (e.required = true → e.master ≠ "") ∧
      (e.master ≠ "" → ∃ router, f e.site e.master = .ok router) := by
  have cause : e.failure? f = none ↔ e.cause? f = none := by
    cases user : e.site.user with
    | none => rw [failure?_of_brigade user]
    | some i => rw [failure?_of_user user, Option.map_eq_none_iff]
  rw [cause, cause?]
  by_cases absent : e.master = ""
  · simp [absent]
  · cases answer : f e.site e.master with
    | ok router => simp [absent]
    | error reason => simp [absent]

theorem User.entries_required_iff {u : User} {i : Nat} :
    (∀ e ∈ u.entries i, e.required = true → e.master ≠ "") ↔ u.wgPsk.master ≠ "" := by
  simp [entries]

/-- One secret of the brigade must be there, and one of each user. -/
theorem Brigade.entries_required_iff {b : Brigade} :
    (∀ e ∈ b.entries, e.required = true → e.master ≠ "") ↔
      b.wgPrivate.master ≠ "" ∧ ∀ u ∈ b.users, u.wgPsk.master ≠ "" := by
  have users : (∀ p ∈ b.users.zipIdx, p.1.wgPsk.master ≠ "") ↔
      ∀ u ∈ b.users, u.wgPsk.master ≠ "" := by
    conv_rhs => rw [← List.zipIdx_map_fst 0 b.users]
    exact (List.forall_mem_map (P := fun u : User => u.wgPsk.master ≠ "")).symm
  rw [entries, List.forall_mem_append, List.forall_mem_flatMap]
  simp only [User.entries_required_iff, users]
  simp

/-- No secret stands there twice. -/
theorem Brigade.entries_sites_nodup (b : Brigade) : (b.entries.map Entry.site).Nodup := by
  have users : (b.users.zipIdx.flatMap fun u => (u.1.entries u.2).map Entry.site).Nodup := by
    refine List.nodup_flatMap.mpr ⟨fun u _ => by simp [User.entries], ?_⟩
    have distinct : (b.users.zipIdx.map Prod.snd).Nodup := by
      rw [List.zipIdx_map_snd]
      exact List.nodup_range'
    refine (List.pairwise_map.mp distinct).imp fun differ => ?_
    simp [User.entries, Ne.symm differ]
  rw [entries, List.map_append, List.map_flatMap, List.nodup_append]
  refine ⟨by simp, users, fun s own s' foreign => ?_⟩
  have ofNone : s.user = none := by
    revert s
    simp
  obtain ⟨u, -, foreign⟩ := List.mem_flatMap.mp foreign
  obtain ⟨e, there, rfl⟩ := List.mem_map.mp foreign
  rintro rfl
  rw [User.entries_user there] at ofNone
  cases ofNone

/-- **A walk over the secrets of a brigade, entry by entry.** It completes exactly if the secrets
that must be there are, and the resealer has an answer for every ciphertext that is there. The
brigade then has the new address and with each ciphertext its own answer, none where there is no
ciphertext, and is the same otherwise. However it ends, the resealer was asked for exactly the
ciphertexts that are there, once each and in order, up to the first entry that fails, and it is the
error of that entry that it ends with. -/
theorem Brigade.recode_entries (f : Resealer) (slot : Ipv4) (b : Brigade) :
    let w := b.recode f slot
    ((∃ c, w.result = .ok c) ↔ b.wgPrivate.master ≠ "" ∧ (∀ u ∈ b.users, u.wgPsk.master ≠ "") ∧
        ∀ e ∈ b.entries, e.master ≠ "" → ∃ router, f e.site e.master = .ok router) ∧
      (∀ c, w.result = .ok c → c = b.answered f slot) ∧
      w.calls = Entry.asked (Entry.failure? f) b.entries ∧ (b.entries.map Entry.site).Nodup ∧
      ∀ e, w.result = .error e ↔ b.entries.findSome? (Entry.failure? f) = some e := by
  intro w
  have along : Walk.Along (Entry.failure? f) b.entries (b.answered f slot) w := b.recode_along slot
  have completes : (∃ c, w.result = .ok c) ↔ b.entries.findSome? (Entry.failure? f) = none :=
    ⟨fun ⟨_, done⟩ => (along.result_ok_iff.mp done).1,
      fun passed => ⟨_, along.result_ok_iff.mpr ⟨passed, rfl⟩⟩⟩
  refine ⟨?_, fun c done => (along.result_ok_iff.mp done).2, along.calls, b.entries_sites_nodup,
    fun e => along.result_error_iff⟩
  rw [completes, List.findSome?_eq_none_iff, ← and_assoc, ← entries_required_iff,
    ← forall₂_and]
  simp only [Entry.failure?_eq_none_iff]

/-- A secret that is not there leaves the router without one, whatever stood there before, and the
second user's fails. -/
theorem Brigade.recode_entries_second :
    let f : Resealer := fun site master =>
      if master = "bad" then .error (.decryptionFailed site.field)
      else .ok ("to router: " ++ master)
    let u : User := { (default : User) with wgPsk := ⟨"a", ""⟩, ipsecPassword := ⟨"", "stale"⟩ }
    let v : User := { (default : User) with wgPsk := ⟨"b", ""⟩, ipsecUsername := ⟨"bad", ""⟩ }
    let alone : Brigade := { (default : Brigade) with wgPrivate := ⟨"k", "stale"⟩, users := [u] }
    let both : Brigade := { alone with users := [u, v] }
    let slot : Ipv4 := ⟨10, 0, 0, 5⟩
    (alone.recode f slot).result = .ok { (default : Brigade) with
      address := slot
      wgPrivate := ⟨"k", "to router: k"⟩
      users := [{ (default : User) with wgPsk := ⟨"a", "to router: a"⟩ }] } ∧
    (both.recode f slot).result = .error (.decryptionFailed "user 1: ipsec username") ∧
    (both.recode f slot).calls = [(⟨none, 0, "wg private key"⟩, "k"), (⟨some 0, 0, "wg psk"⟩, "a"),
      (⟨some 1, 0, "wg psk"⟩, "b"), (⟨some 1, 2, "ipsec username"⟩, "bad")] := by
  intro f u v alone both slot
  obtain ⟨-, answered, -⟩ := recode_entries f slot alone
  obtain ⟨-, -, calls, -, failed⟩ := recode_entries f slot both
  have done : (alone.recode f slot).error = none := by decide
  have finished : (alone.recode f slot).result = .ok (alone.recode f slot).value :=
    Walk.result_ok_iff.mpr ⟨done, rfl⟩
  refine ⟨?_, (failed _).mpr (by decide), calls.trans (by decide)⟩
  rw [finished, answered _ finished]
  decide

end Rehoming
