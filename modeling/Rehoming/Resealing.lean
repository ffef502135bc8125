import Rehoming.Brigade
import Rehoming.CipherSuite

/-! Moving the secrets of a brigade from the master key to the router that is to
serve it: first those of the brigade, then those of its users, one after another
until something fails. -/

namespace Rehoming

open Keys

/-- A secret within a brigade or a user. -/
structure SealedField (α : Type) where
  name : String
  required : Bool
  get : α → Secret
  set : α → Secret → α

def Brigade.sealedFields : List (SealedField Brigade) :=
  [⟨"wg private key", true, (·.wgPrivate), fun b s => { b with wgPrivate := s }⟩,
   ⟨"openvpn ca key", false, (·.ovCaKey), fun b s => { b with ovCaKey := s }⟩,
   ⟨"ipsec psk", false, (·.ipsecPsk), fun b s => { b with ipsecPsk := s }⟩]

def User.sealedFields : List (SealedField User) :=
  [⟨"wg psk", true, (·.wgPsk), fun u s => { u with wgPsk := s }⟩,
   ⟨"cloak bypass uid", false, (·.cloakBypassUid), fun u s => { u with cloakBypassUid := s }⟩,
   ⟨"ipsec username", false, (·.ipsecUsername), fun u s => { u with ipsecUsername := s }⟩,
   ⟨"ipsec password", false, (·.ipsecPassword), fun u s => { u with ipsecPassword := s }⟩,
   ⟨"outline secret", false, (·.outlineSecret), fun u s => { u with outlineSecret := s }⟩]

/-- Where a secret belongs: to the brigade, or to one of its users. -/
structure Site where
  user : Option Nat
  index : Nat
  field : String
  deriving DecidableEq

/-- A number that no other site of the brigade has. -/
def Site.number (s : Site) : Nat :=
  (match s.user with
    | none => 0
    | some i => i + 1) * 8 + s.index

/-- Turns the master's ciphertext at a site into the router's. -/
abbrev Resealer := Site → String → Except Error String

/-- How far a walk over secrets has come: what it has made of the whole, which
ciphertexts it has handed to the resealer, and why it ended early. -/
structure Walk (α : Type) where
  value : α
  calls : List (Site × String)
  error : Option Error

namespace Walk

variable {α : Type}

def start (value : α) : Walk α := ⟨value, [], none⟩

/-- Goes on unless the walk has ended. -/
def andThen (w : Walk α) (step : α → Walk α) : Walk α :=
  match w.error with
  | some _ => w
  | none => ⟨(step w.value).value, w.calls ++ (step w.value).calls, (step w.value).error⟩

end Walk

/-- Reseals one secret. An empty ciphertext is no secret: where one must be there
this is an error, elsewhere the router has none either. -/
def Secret.reseal (f : Resealer) (site : Site) (required : Bool) (s : Secret) : Walk Secret :=
  if s.master.isEmpty then
    if required then ⟨s, [], some (.decryptionFailed (site.field ++ ": empty"))⟩
    else .start { s with router := "" }
  else
    match f site s.master with
    | .ok router => ⟨{ s with router := router }, [(site, s.master)], none⟩
    | .error e => ⟨s, [(site, s.master)], some e⟩

/-- Reseals the fields of a brigade or a user, in order. -/
def resealFields {α : Type} (f : Resealer) (user : Option Nat) (fields : List (SealedField α))
    (x : α) : Walk α :=
  fields.zipIdx.foldl (fun w field => w.andThen fun x =>
    let w := (field.1.get x).reseal f ⟨user, field.2, field.1.name⟩ field.1.required
    ⟨field.1.set x w.value, w.calls, w.error⟩) (.start x)

/-- An error that came up for a user says so. -/
def Error.forUser (index : Nat) : Error → Error
  | .decryptionFailed what => .decryptionFailed s!"user {index}: {what}"
  | e => e

def resealUser (f : Resealer) (index : Nat) (u : User) : Walk User :=
  let w := resealFields f (some index) User.sealedFields u
  { w with error := w.error.map (Error.forUser index) }

/-- Reseals the users from number `index` on. -/
def resealUsers (f : Resealer) : (index : Nat) → List User → Walk (List User)
  | _, [] => .start []
  | index, u :: rest =>
    let first := resealUser f index u
    match first.error with
    | some e => ⟨first.value :: rest, first.calls, some e⟩
    | none =>
      let more := resealUsers f (index + 1) rest
      ⟨first.value :: more.value, first.calls ++ more.calls, more.error⟩

/-- Moves a brigade to an address and reseals all its secrets. -/
def Brigade.recode (f : Resealer) (slot : Ipv4) (b : Brigade) : Walk Brigade :=
  (resealFields f none Brigade.sealedFields { b with address := slot }).andThen fun b =>
    let w := resealUsers f 0 b.users
    ⟨{ b with users := w.value }, w.calls, w.error⟩

/-- The brigade that a walk has completed. -/
def Walk.result {α : Type} (w : Walk α) : Except Error α :=
  match w.error with
  | some e => .error e
  | none => .ok w.value

/-- Opens with the master key and seals for the router. -/
def routerResealer (suite : CipherSuite) (master : MasterKey) (router : RouterKey)
    (entropy : Entropy) : Resealer := fun site ciphertext => do
  let sealed ← decodeField ciphertext site.field
  match suite.openBox? master sealed with
  | none => throw (.decryptionFailed site.field)
  | some plaintext =>
    return Base64.encodeText (← suite.sealFor router (entropy.child site.number) plaintext)

end Rehoming
