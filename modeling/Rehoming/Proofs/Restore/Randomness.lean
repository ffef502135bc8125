import Rehoming.Proofs.Restore.Runs

/-! What random bytes do not decide. Two runs that draw different ones make different ciphertexts,
but they get equally far. Main statement: a brigade that is encoded for a slot is encoded in both
runs, as the same brigade at the same address, or fails in both for the same reason. -/

namespace Rehoming

open Keys

/-! ## Runs that end alike -/

/-- Both have results, and these are related, or both have the same error. -/
inductive SameEnd {ε α β : Type} (r : α → β → Prop) : Except ε α → Except ε β → Prop where
  | ok {a : α} {b : β} (h : r a b) : SameEnd r (.ok a) (.ok b)
  | error (e : ε) : SameEnd r (.error e) (.error e)

namespace SameEnd

variable {ε α β γ δ : Type} {r : α → β → Prop} {x : Except ε α} {y : Except ε β}

theorem refl (x : Except ε α) : SameEnd (· = ·) x x := by
  cases x with
  | error e => exact .error e
  | ok a => exact .ok rfl

theorem bind {q : γ → δ → Prop} (h : SameEnd r x y) {f : α → Except ε γ} {g : β → Except ε δ}
    (next : ∀ a b, r a b → SameEnd q (f a) (g b)) : SameEnd q (x >>= f) (y >>= g) := by
  cases h with
  | ok h => exact next _ _ h
  | error e => exact .error e

theorem mapError {ε' : Type} (h : SameEnd r x y) (f : ε → ε') :
    SameEnd r (x.mapError f) (y.mapError f) := by
  cases h with
  | ok h => exact .ok h
  | error e => exact .error (f e)

/-- Results that agree on a part give it alike. -/
theorem map_toOption {f : α → γ} {g : β → γ} (h : SameEnd (fun a b => f a = g b) x y) :
    x.toOption.map f = y.toOption.map g := by
  cases h with
  | ok h => exact congrArg some h
  | error e => rfl

end SameEnd

/-! ## Walks over secrets -/

/-- Two walks that have come equally far: what they have made is the same but for what `forget`
leaves out. -/
structure Walk.Alike {α : Type} (forget : α → α) (w v : Walk α) : Prop where
  error : w.error = v.error
  value : forget w.value = forget v.value

namespace Walk.Alike

variable {α : Type} {forget : α → α} {w v : Walk α}

theorem andThen (h : Alike forget w v) {f g : α → Walk α}
    (next : ∀ x y, forget x = forget y → Alike forget (f x) (g y)) :
    Alike forget (w.andThen f) (v.andThen g) := by
  have step := next _ _ h.value
  unfold Walk.andThen
  rw [← h.error]
  cases w.error with
  | none => exact ⟨step.error, step.value⟩
  | some e => exact h

theorem foldl {κ : Type} {f g : κ → α → Walk α} {steps : List κ} (h : Alike forget w v)
    (each : ∀ k ∈ steps, ∀ x y, forget x = forget y → Alike forget (f k x) (g k y)) :
    Alike forget (steps.foldl (fun w k => w.andThen (f k)) w)
      (steps.foldl (fun v k => v.andThen (g k)) v) := by
  induction steps generalizing w v with
  | nil => exact h
  | cons k steps ih =>
    exact ih (h.andThen (each k List.mem_cons_self)) fun k hk => each k (List.mem_cons_of_mem _ hk)

theorem result (h : Alike forget w v) :
    SameEnd (fun a b => forget a = forget b) w.result v.result := by
  unfold Walk.result
  rw [← h.error]
  cases w.error with
  | none => exact .ok h.value
  | some e => exact .error e

end Walk.Alike

/-- The secret without what the router was given. -/
def Secret.unrouted (s : Secret) : Secret := { s with router := "" }

/-- Two resealers that give something for the same ciphertexts, and the same errors otherwise. -/
def Resealer.Alike (f g : Resealer) : Prop :=
  ∀ site master, SameEnd (fun _ _ => True) (f site master) (g site master)

variable {f g : Resealer}

theorem Secret.reseal_alike (alike : f.Alike g) (site : Site) (required : Bool) {s t : Secret}
    (h : s.unrouted = t.unrouted) :
    Walk.Alike unrouted (s.reseal f site required) (t.reseal g site required) := by
  have master : s.master = t.master := congrArg (·.master) h
  unfold reseal
  rw [← master]
  split
  · split
    · exact ⟨rfl, h⟩
    · exact ⟨rfl, by simp [Walk.start, unrouted, master]⟩
  · have both := alike site s.master
    generalize f site s.master = x at both ⊢
    generalize g site s.master = y at both ⊢
    cases both with
    | ok _ => exact ⟨rfl, by simp [unrouted, master]⟩
    | error e => exact ⟨rfl, h⟩

/-- What is left out of a whole is left out of its secrets, and nothing else is. -/
structure SealedField.Respects {α : Type} (forget : α → α) (field : SealedField α) : Prop where
  get : ∀ x, (field.get x).unrouted = field.get (forget x)
  set : ∀ x s, forget (field.set x s) = field.set (forget x) s.unrouted

theorem resealFields_alike {α : Type} {forget : α → α} (alike : f.Alike g) (user : Option Nat)
    {fields : List (SealedField α)} (respects : ∀ field ∈ fields, field.Respects forget) {x y : α}
    (h : forget x = forget y) :
    Walk.Alike forget (resealFields f user fields x) (resealFields g user fields y) := by
  rw [resealFields_eq, resealFields_eq]
  refine Walk.Alike.foldl ⟨rfl, h⟩ fun field hf x y same => ?_
  have own := respects field.1 (List.fst_mem_of_mem_zipIdx hf)
  have secret : (field.1.get x).unrouted = (field.1.get y).unrouted := by
    rw [own.get, own.get, same]
  have walked := Secret.reseal_alike alike ⟨user, field.2, field.1.name⟩ field.1.required secret
  refine ⟨walked.error, ?_⟩
  show forget (field.1.set x _) = forget (field.1.set y _)
  rw [own.set, own.set, same, walked.value]

def User.unrouted (u : User) : User :=
  { u with
    wgPsk := u.wgPsk.unrouted
    cloakBypassUid := u.cloakBypassUid.unrouted
    ipsecUsername := u.ipsecUsername.unrouted
    ipsecPassword := u.ipsecPassword.unrouted
    outlineSecret := u.outlineSecret.unrouted }

theorem User.sealedFields_respect : ∀ field ∈ sealedFields, field.Respects unrouted := by
  simp only [sealedFields, List.forall_mem_cons]
  exact ⟨⟨fun _ => rfl, fun _ _ => rfl⟩, ⟨fun _ => rfl, fun _ _ => rfl⟩,
    ⟨fun _ => rfl, fun _ _ => rfl⟩, ⟨fun _ => rfl, fun _ _ => rfl⟩,
    ⟨fun _ => rfl, fun _ _ => rfl⟩, fun _ h => absurd h List.not_mem_nil⟩

theorem resealUser_alike (alike : f.Alike g) (index : Nat) {u v : User}
    (h : u.unrouted = v.unrouted) :
    Walk.Alike User.unrouted (resealUser f index u) (resealUser g index v) := by
  have fields := resealFields_alike alike (some index) User.sealedFields_respect h
  exact ⟨congrArg (Option.map (Error.forUser index)) fields.error, fields.value⟩

theorem resealUsers_alike (alike : f.Alike g) (index : Nat) {users others : List User}
    (h : users.map User.unrouted = others.map User.unrouted) :
    Walk.Alike (List.map User.unrouted) (resealUsers f index users)
      (resealUsers g index others) := by
  induction users generalizing index others with
  | nil =>
    obtain rfl : others = [] := List.map_eq_nil_iff.mp h.symm
    exact ⟨rfl, rfl⟩
  | cons u users ih =>
    cases others with
    | nil => cases h
    | cons v others =>
      rw [List.map_cons, List.map_cons] at h
      obtain ⟨first, rest⟩ := List.cons.inj h
      have own := resealUser_alike alike index first
      have more := ih (index + 1) rest
      simp only [resealUsers, ← own.error]
      cases (resealUser f index u).error with
      | none =>
        refine ⟨more.error, ?_⟩
        rw [List.map_cons, List.map_cons, own.value, more.value]
      | some e =>
        refine ⟨rfl, ?_⟩
        rw [List.map_cons, List.map_cons, own.value, rest]

/-! ## Brigades -/

/-- The brigade without what routers were given. -/
def Brigade.unrouted (b : Brigade) : Brigade :=
  { b with
    wgPrivate := b.wgPrivate.unrouted
    ovCaKey := b.ovCaKey.unrouted
    ipsecPsk := b.ipsecPsk.unrouted
    users := b.users.map User.unrouted }

theorem Brigade.sealedFields_respect : ∀ field ∈ sealedFields, field.Respects unrouted := by
  simp only [sealedFields, List.forall_mem_cons]
  exact ⟨⟨fun _ => rfl, fun _ _ => rfl⟩, ⟨fun _ => rfl, fun _ _ => rfl⟩,
    ⟨fun _ => rfl, fun _ _ => rfl⟩, fun _ h => absurd h List.not_mem_nil⟩

theorem Brigade.recode_alike (alike : f.Alike g) (slot : Ipv4) (b : Brigade) :
    Walk.Alike unrouted (b.recode f slot) (b.recode g slot) := by
  refine (resealFields_alike alike none sealedFields_respect rfl).andThen fun c d same => ?_
  have users : c.users.map User.unrouted = d.users.map User.unrouted := congrArg (·.users) same
  have walked := resealUsers_alike alike 0 users
  refine ⟨walked.error, ?_⟩
  have fields := Brigade.mk.inj same
  simp only [unrouted, walked.value] at fields ⊢
  simp only [fields]

/-! ## Ciphers -/

/-- What is relied on of the ciphers that make secrets and boxes: random bytes do not decide whether
they can. A secret can be wrapped or not by its length. -/
structure CipherSuite.SealsAlike (suite : CipherSuite) : Prop where
  wraps : ∀ (key : Crypto.Rsa.PublicKey) (entropy entropy' : Entropy) (secret secret' : Bytes),
    secret.length = secret'.length →
      (suite.wrap? key entropy secret).isSome = (suite.wrap? key entropy' secret').isSome
  boxes : ∀ (key : RouterKey) (entropy entropy' : Entropy) (plaintext : Bytes),
    (suite.sealBox? key entropy plaintext).isSome = (suite.sealBox? key entropy' plaintext).isSome

/-- The standard ciphers keep to it. -/
theorem CipherSuite.standard_sealsAlike : standard.SealsAlike where
  wraps key entropy entropy' secret secret' same := by
    simp only [standard, Crypto.Rsa.PublicKey.encrypt?, same]
    by_cases long : key.size < secret'.length + 66 <;> simp [long]
  boxes key entropy entropy' plaintext := by simp only [standard, Option.isSome_some]

theorem CipherSuite.plain_sealsAlike : plain.SealsAlike where
  wraps key entropy entropy' secret secret' _ := by simp only [plain, Option.isSome_some]
  boxes key entropy entropy' plaintext := by simp only [plain, Option.isSome_some]

variable {suite : CipherSuite}

/-- Two answers that are both there or both missing lead to the same end. -/
theorem SameEnd.of_isSome {α : Type} {x y : Option α} (both : x.isSome = y.isSome) (e : Error) :
    SameEnd (fun _ _ => True) (x.elim (.error e) Except.ok) (y.elim (.error e) Except.ok) := by
  cases x with
  | none =>
    cases y with
    | none => exact .error e
    | some _ => cases both
  | some _ =>
    cases y with
    | none => cases both
    | some _ => exact .ok trivial

theorem CipherSuite.wrap_eq (key : Crypto.Rsa.PublicKey) (entropy : Entropy) (secret : Bytes) :
    suite.wrap key entropy secret = (suite.wrap? key entropy secret).elim
      (.error (.encryptionFailed "authority secret: message too long")) .ok := by
  unfold wrap
  cases suite.wrap? key entropy secret <;> rfl

theorem CipherSuite.sealFor_eq (key : RouterKey) (entropy : Entropy) (plaintext : Bytes) :
    suite.sealFor key entropy plaintext = (suite.sealBox? key entropy plaintext).elim
      (.error (.encryptionFailed "sealed box: aead::Error")) .ok := by
  unfold sealFor
  cases suite.sealBox? key entropy plaintext <;> rfl

theorem routerResealer_alike (law : suite.SealsAlike) (master : MasterKey) (router : RouterKey)
    (entropy entropy' : Entropy) :
    Resealer.Alike (routerResealer suite master router entropy)
      (routerResealer suite master router entropy') := by
  intro site ciphertext
  refine (SameEnd.refl _).bind fun sealed _ same => ?_
  subst same
  cases suite.openBox? master sealed with
  | none => exact .error _
  | some plaintext =>
    refine SameEnd.bind (r := fun _ _ => True) ?_ fun _ _ _ => .ok trivial
    rw [CipherSuite.sealFor_eq, CipherSuite.sealFor_eq]
    exact .of_isSome (law.boxes ..) _

/-! ## Snapshots -/

/-- Which brigade a snapshot is of, and where it is to be served. -/
def PreparedSnapshot.seat (s : PreparedSnapshot) : String × Ipv4 := (s.brigadeId, s.address)

theorem Brigade.prepare_sameEnd (law : suite.SealsAlike) (destination : Crypto.Rsa.PublicKey)
    (reservationId : String) (entropy entropy' : Entropy) {b c : Brigade}
    (h : b.unrouted = c.unrouted) :
    SameEnd (fun s s' => s.seat = s'.seat) (b.prepare suite destination reservationId entropy)
      (c.prepare suite destination reservationId entropy') := by
  have sized : (newSecret (entropy.child 0)).length = (newSecret (entropy'.child 0)).length := by
    rw [newSecret, newSecret, Entropy.length_bytes, Entropy.length_bytes]
  have id : b.id = c.id := congrArg (·.id) h
  have address : b.address = c.address := congrArg (·.address) h
  refine SameEnd.bind (r := fun _ _ => True) ?_ fun _ _ _ => .ok (Prod.ext id address)
  rw [CipherSuite.wrap_eq, CipherSuite.wrap_eq]
  exact .of_isSome (law.wraps _ _ _ _ _ sized) _

/-- **Randomness does not decide who gets through.** -/
theorem snapshotEncoder_sameEnd (law : suite.SealsAlike) (master : MasterKey)
    (destination : Crypto.Rsa.PublicKey) (reservationId : String) (entropy entropy' : Entropy)
    (c : EncodeCall) :
    SameEnd (fun s s' => s.seat = s'.seat)
      (snapshotEncoder suite master destination reservationId entropy c)
      (snapshotEncoder suite master destination reservationId entropy' c) := by
  have resealers := routerResealer_alike law master c.router
    ((entropy.child c.ordinal).child 0) ((entropy'.child c.ordinal).child 0)
  have recoded := (Brigade.recode_alike resealers c.slot c.brigade.sanitize).result
  exact (recoded.mapError _).bind fun b b' same =>
    (Brigade.prepare_sameEnd law destination reservationId _ _ same).mapError _

end Rehoming
