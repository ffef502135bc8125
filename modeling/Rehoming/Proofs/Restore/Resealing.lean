import Rehoming.Sanitizing
import Rehoming.Proofs.Restore.Bundles
import Rehoming.Resealing

/-! What a brigade is after its secrets were resealed. A walk that completes has dealt
with every secret of the brigade and of its users, and has touched nothing else but the
address; what an earlier router was given plays no part. -/

namespace Rehoming

open Keys

namespace Walk

variable {α : Type}

theorem result_ok_iff {w : Walk α} {a : α} : w.result = .ok a ↔ w.error = none ∧ w.value = a := by
  obtain ⟨value, calls, error⟩ := w
  cases error with
  | none => simp [result]
  | some e => simp [result]

theorem result_andThen_ok_iff {w : Walk α} {step : α → Walk α} {b : α} :
    (w.andThen step).result = .ok b ↔ ∃ a, w.result = .ok a ∧ (step a).result = .ok b := by
  obtain ⟨value, calls, error⟩ := w
  cases error with
  | none => simp [result, andThen]
  | some e => simp [result, andThen]

end Walk

/-! ## Secrets -/

/-- What becomes of a secret: the master's ciphertext stays, and the router's carries
it on. Without a ciphertext for the master there is none for the router either. -/
structure Secret.Resealed (carries : String → String → Prop) (s t : Secret) : Prop where
  master : t.master = s.master
  absent : s.master = "" → t.router = ""
  present : s.master ≠ "" → carries s.master t.router

/-- All that a resealer gives carries on what it was given. -/
def Resealer.Sound (f : Resealer) (carries : String → String → Prop) : Prop :=
  ∀ site master router, f site master = .ok router → carries master router

variable {f : Resealer} {carries : String → String → Prop}

theorem Secret.reseal_resealed (sound : f.Sound carries) {site : Site} {required : Bool}
    {s t : Secret} (h : (s.reseal f site required).result = .ok t) : s.Resealed carries t := by
  unfold reseal at h
  split at h
  · rename_i empty
    split at h
    · cases h
    · cases h
      exact ⟨rfl, fun _ => rfl, fun full => absurd (String.isEmpty_iff.mp empty) full⟩
  · rename_i full
    split at h
    · rename_i router made
      cases h
      exact ⟨rfl, fun empty => absurd (String.isEmpty_iff.mpr empty) full,
        fun _ => sound _ _ _ made⟩
    · cases h

/-- The walk over one field of a brigade or a user. -/
def SealedField.reseal {α : Type} (f : Resealer) (site : Site) (field : SealedField α) (x : α) :
    Walk α :=
  let w := (field.get x).reseal f site field.required
  ⟨field.set x w.value, w.calls, w.error⟩

theorem resealFields_eq {α : Type} (f : Resealer) (user : Option Nat)
    (fields : List (SealedField α)) (x : α) :
    resealFields f user fields x = fields.zipIdx.foldl
      (fun w field => w.andThen (field.1.reseal f ⟨user, field.2, field.1.name⟩)) (.start x) := rfl

theorem SealedField.reseal_ok {α : Type} {field : SealedField α} {site : Site} {x y : α}
    (sound : f.Sound carries) (h : (field.reseal f site x).result = .ok y) :
    ∃ t, (field.get x).Resealed carries t ∧ y = field.set x t := by
  obtain ⟨done, made⟩ := Walk.result_ok_iff.mp h
  exact ⟨_, Secret.reseal_resealed sound (Walk.result_ok_iff.mpr ⟨done, rfl⟩), made.symm⟩

/-! ## Users -/

/-- What becomes of a user. -/
structure User.Resealed (carries : String → String → Prop) (u v : User) : Prop where
  quota : v.quota = u.quota
  wgPsk : u.wgPsk.Resealed carries v.wgPsk
  cloakBypassUid : u.cloakBypassUid.Resealed carries v.cloakBypassUid
  ipsecUsername : u.ipsecUsername.Resealed carries v.ipsecUsername
  ipsecPassword : u.ipsecPassword.Resealed carries v.ipsecPassword
  outlineSecret : u.outlineSecret.Resealed carries v.outlineSecret
  others : v.others = u.others

theorem resealUser_resealed (sound : f.Sound carries) {index : Nat} {u v : User}
    (h : (resealUser f index u).result = .ok v) : u.Resealed carries v := by
  have fields : (resealFields f (some index) User.sealedFields u).result = .ok v := by
    obtain ⟨done, made⟩ := Walk.result_ok_iff.mp h
    exact Walk.result_ok_iff.mpr ⟨Option.map_eq_none_iff.mp done, made⟩
  simp only [resealFields_eq, User.sealedFields, List.zipIdx_cons, List.zipIdx_nil,
    List.foldl_cons, List.foldl_nil] at fields
  obtain ⟨u₄, fields, last⟩ := Walk.result_andThen_ok_iff.mp fields
  obtain ⟨u₃, fields, fourth⟩ := Walk.result_andThen_ok_iff.mp fields
  obtain ⟨u₂, fields, third⟩ := Walk.result_andThen_ok_iff.mp fields
  obtain ⟨u₁, fields, second⟩ := Walk.result_andThen_ok_iff.mp fields
  obtain ⟨u₀, start, first⟩ := Walk.result_andThen_ok_iff.mp fields
  cases start
  obtain ⟨wgPsk, h₁, rfl⟩ := SealedField.reseal_ok sound first
  obtain ⟨cloakBypassUid, h₂, rfl⟩ := SealedField.reseal_ok sound second
  obtain ⟨ipsecUsername, h₃, rfl⟩ := SealedField.reseal_ok sound third
  obtain ⟨ipsecPassword, h₄, rfl⟩ := SealedField.reseal_ok sound fourth
  obtain ⟨outlineSecret, h₅, rfl⟩ := SealedField.reseal_ok sound last
  exact ⟨rfl, h₁, h₂, h₃, h₄, h₅, rfl⟩

theorem resealUsers_resealed (sound : f.Sound carries) {index : Nat} {users done : List User}
    (h : (resealUsers f index users).result = .ok done) :
    List.Forall₂ (User.Resealed carries) users done := by
  induction users generalizing index done with
  | nil =>
    cases h
    exact .nil
  | cons u rest ih =>
    rw [resealUsers] at h
    dsimp only at h
    split at h
    · cases h
    · rename_i fine
      obtain ⟨finished, made⟩ := Walk.result_ok_iff.mp h
      dsimp only at finished made
      subst made
      exact .cons (resealUser_resealed sound (Walk.result_ok_iff.mpr ⟨fine, rfl⟩))
        (ih (Walk.result_ok_iff.mpr ⟨finished, rfl⟩))

/-! ## Brigades -/

/-- What becomes of a brigade that is moved to an address. -/
structure Brigade.Resealed (carries : String → String → Prop) (slot : Ipv4) (b c : Brigade) :
    Prop where
  id : c.id = b.id
  domain : c.domain = b.domain
  address : c.address = slot
  counters : c.counters = b.counters
  countersStack : c.countersStack = b.countersStack
  endpoints : c.endpoints = b.endpoints
  wgPrivate : b.wgPrivate.Resealed carries c.wgPrivate
  ovCaKey : b.ovCaKey.Resealed carries c.ovCaKey
  ipsecPsk : b.ipsecPsk.Resealed carries c.ipsecPsk
  users : List.Forall₂ (User.Resealed carries) b.users c.users
  others : c.others = b.others

/-- A brigade that is recoded has all its secrets resealed. -/
theorem Brigade.recode_resealed (sound : f.Sound carries) {slot : Ipv4} {b c : Brigade}
    (h : (b.recode f slot).result = .ok c) : b.Resealed carries slot c := by
  obtain ⟨own, fields, rest⟩ := Walk.result_andThen_ok_iff.mp h
  simp only [resealFields_eq, Brigade.sealedFields, List.zipIdx_cons, List.zipIdx_nil,
    List.foldl_cons, List.foldl_nil] at fields
  obtain ⟨b₂, fields, last⟩ := Walk.result_andThen_ok_iff.mp fields
  obtain ⟨b₁, fields, second⟩ := Walk.result_andThen_ok_iff.mp fields
  obtain ⟨b₀, start, first⟩ := Walk.result_andThen_ok_iff.mp fields
  cases start
  obtain ⟨wgPrivate, h₁, rfl⟩ := SealedField.reseal_ok sound first
  obtain ⟨ovCaKey, h₂, rfl⟩ := SealedField.reseal_ok sound second
  obtain ⟨ipsecPsk, h₃, rfl⟩ := SealedField.reseal_ok sound last
  obtain ⟨finished, made⟩ := Walk.result_ok_iff.mp rest
  have users := resealUsers_resealed sound (Walk.result_ok_iff.mpr ⟨finished, rfl⟩)
  subst made
  exact ⟨rfl, rfl, rfl, rfl, rfl, rfl, h₁, h₂, h₃, users, rfl⟩

theorem User.Resealed.canonical {u v : User} {depth : Nat} (h : u.Resealed carries v)
    (canonical : u.Canonical depth) : v.Canonical depth :=
  ⟨h.quota ▸ canonical.quota, h.others ▸ canonical.others⟩

theorem User.Resealed.integral {u v : User} (h : u.Resealed carries v) (integral : u.Integral) :
    v.Integral :=
  ⟨h.quota ▸ integral.quota, h.others ▸ integral.others⟩

namespace Brigade.Resealed

variable {slot : Ipv4} {b c : Brigade}

/-- What becomes of a brigade can be written as a document if the brigade could. -/
theorem canonical (h : b.Resealed carries slot c) (canonical : b.Canonical) : c.Canonical where
  counters := h.counters ▸ canonical.counters
  countersStack := h.countersStack ▸ canonical.countersStack
  endpoints := h.endpoints ▸ canonical.endpoints
  users v hv := by
    obtain ⟨u, hu, resealed⟩ := exists_of_mem_right h.users hv
    exact resealed.canonical (canonical.users u hu)
  others := h.others ▸ canonical.others

theorem integral (h : b.Resealed carries slot c) (integral : b.Integral) : c.Integral where
  counters := h.counters ▸ integral.counters
  countersStack := h.countersStack ▸ integral.countersStack
  endpoints := h.endpoints ▸ integral.endpoints
  users v hv := by
    obtain ⟨u, hu, resealed⟩ := exists_of_mem_right h.users hv
    exact resealed.integral (integral.users u hu)
  others := h.others ▸ integral.others

end Brigade.Resealed

/-! ## Sanitizing -/

theorem User.sanitize_canonical {u : User} {depth : Nat} (h : u.Canonical depth) :
    u.sanitize.Canonical depth :=
  ⟨⟨h.quota.low, h.quota.high, NameMap.foreign_empty _ _⟩, h.others⟩

theorem User.sanitize_integral {u : User} (h : u.Integral) : u.sanitize.Integral :=
  ⟨fun _ none => absurd none List.not_mem_nil, h.others⟩

namespace Brigade

theorem sanitize_canonical {b : Brigade} (h : b.Canonical) : b.sanitize.Canonical where
  counters := .null
  countersStack := .null
  endpoints := .null
  users v hv := by
    obtain ⟨u, hu, rfl⟩ := List.mem_map.mp hv
    exact User.sanitize_canonical (h.users u hu)
  others := h.others

theorem sanitize_integral {b : Brigade} (h : b.Integral) : b.sanitize.Integral where
  counters := .null
  countersStack := .null
  endpoints := .null
  users v hv := by
    obtain ⟨u, hu, rfl⟩ := List.mem_map.mp hv
    exact User.sanitize_integral (h.users u hu)
  others := h.others

end Brigade

/-! ## Routers -/

namespace CipherSuite

/-- What a key finds in the box that a field holds in base64. -/
def openField? (suite : CipherSuite) (key : MasterKey) (text : String) : Option Bytes :=
  match Base64.decodeText text with
  | .ok sealed => suite.openBox? key sealed
  | .error _ => none

/-- What is relied on of the boxes that secrets are sealed in: any secret that a public key
was made of opens what was sealed for it. -/
def OpensBoxes (suite : CipherSuite) : Prop :=
  ∀ (secret : Bytes) (entropy : Entropy) (plaintext sealed : Bytes), secret.length = boxKeySize →
    suite.sealBox? (MasterKey.ofSecret secret).publicKey entropy plaintext = some sealed →
      suite.openBox? (MasterKey.ofSecret secret) sealed = some plaintext

theorem sealFor_ok_iff {suite : CipherSuite} {key : RouterKey} {entropy : Entropy}
    {plaintext sealed : Bytes} :
    suite.sealFor key entropy plaintext = .ok sealed ↔
      suite.sealBox? key entropy plaintext = some sealed := by
  unfold sealFor
  cases suite.sealBox? key entropy plaintext with
  | none => exact iff_of_false nofun nofun
  | some box => rw [Except.ok.injEq, Option.some.injEq]

/-- The router finds in its ciphertext what the master finds in the other one. -/
def CarriesOver (suite : CipherSuite) (master : MasterKey) (router : RouterKey)
    (old new : String) : Prop :=
  ∃ plaintext, suite.openField? master old = some plaintext ∧
    ∀ secret : Bytes, secret.length = boxKeySize → (MasterKey.ofSecret secret).publicKey = router →
      suite.openField? (MasterKey.ofSecret secret) new = some plaintext

/-- **Routers find the plaintext of the master.** -/
theorem routerResealer_sound {suite : CipherSuite} (boxes : suite.OpensBoxes) (master : MasterKey)
    (router : RouterKey) (entropy : Entropy) :
    (routerResealer suite master router entropy).Sound (suite.CarriesOver master router) := by
  intro site old new h
  obtain ⟨sealed, decoded, h⟩ := bind_ok_iff.mp h
  split at h
  · cases h
  · rename_i plaintext opened
    obtain ⟨box, made, h⟩ := bind_ok_iff.mp h
    cases h
    refine ⟨plaintext, ?_, fun secret sized own => ?_⟩
    · unfold decodeField at decoded
      split at decoded
      · rename_i bytes given
        cases decoded
        rw [openField?, given]
        exact opened
      · cases decoded
    · subst own
      rw [openField?, Base64.decodeText_encodeText]
      exact boxes secret _ plaintext box sized (sealFor_ok_iff.mp made)

end CipherSuite
end Rehoming
