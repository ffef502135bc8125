import Rehoming.Json.Record
import Rehoming.Json.Printer
import Rehoming.Ipv4

/-! Brigades and their users. Each secret is kept as two ciphertexts: one sealed to
the master key, as it came in, and one sealed to the router that is to serve the
brigade. State that nothing here acts on is carried along as it is. -/

namespace Rehoming

open Json

/-- A secret in base64, sealed to the master key and to a router; empty where
there is none. -/
structure Secret where
  master : String
  router : String
  deriving DecidableEq, Inhabited

/-- A quota's version, and whatever it counts. -/
structure Quota where
  version : Int
  usage : NameMap Value
  deriving DecidableEq, Inhabited

structure User where
  quota : Quota
  wgPsk : Secret
  cloakBypassUid : Secret
  ipsecUsername : Secret
  ipsecPassword : Secret
  outlineSecret : Secret
  others : NameMap Value
  deriving DecidableEq, Inhabited

structure Brigade where
  id : String
  domain : String
  address : Ipv4
  counters : Value
  countersStack : Value
  endpoints : Value
  wgPrivate : Secret
  ovCaKey : Secret
  ipsecPsk : Secret
  users : List User
  others : NameMap Value
  deriving DecidableEq, Inhabited

/-- The names that prepared brigades are served under. -/
def Brigade.domainNames (b : Brigade) : List String := [b.domain]

namespace Ipv4

def reader : Reader Ipv4 := Reader.parsed ofText?

def toValue (ip : Ipv4) : Value := .string ip.toText

end Ipv4

namespace Secret

/-- Members are named for the secret and for who can open them. -/
def masterName (name : String) : String := name ++ "_shuffler_enc"
def routerName (name : String) : String := name ++ "_router_enc"

def read (fields : Fields) (depth : Nat) (name : String) : Option Secret := do
  let master ← fields.optional depth (masterName name) "" Reader.text
  let router ← fields.optional depth (routerName name) "" Reader.text
  some ⟨master, router⟩

/-- An empty ciphertext is left out. -/
def members (s : Secret) (name : String) : List (String × Value) :=
  (if s.master.isEmpty then [] else [(masterName name, .string s.master)])
    ++ (if s.router.isEmpty then [] else [(routerName name, .string s.router)])

end Secret

namespace Quota

def fieldNames : List String := ["ver"]

def empty : Quota := ⟨0, .empty⟩

def reader : Reader Quota := fun depth node => do
  let (fields, usage) ← Fields.readOpen fieldNames depth node
  let version ← fields.optional depth "ver" 0 Reader.int64
  some { version, usage }

def toValue (q : Quota) : Value :=
  .object (("ver", .number (.int q.version)) :: q.usage.entries)

end Quota

namespace User

def secretNames : List String :=
  ["wg_psk", "cloak_bypass_uid", "ipsec_username", "ipsec_password", "outline_secret"]

def fieldNames : List String :=
  "quotas" :: secretNames.flatMap fun n => [Secret.masterName n, Secret.routerName n]

def reader : Reader User := fun depth node => do
  let (fields, others) ← Fields.readOpen fieldNames depth node
  let quota ← fields.optional depth "quotas" .empty Quota.reader
  let wgPsk ← Secret.read fields depth "wg_psk"
  let cloakBypassUid ← Secret.read fields depth "cloak_bypass_uid"
  let ipsecUsername ← Secret.read fields depth "ipsec_username"
  let ipsecPassword ← Secret.read fields depth "ipsec_password"
  let outlineSecret ← Secret.read fields depth "outline_secret"
  some { quota, wgPsk, cloakBypassUid, ipsecUsername, ipsecPassword, outlineSecret, others }

def toValue (u : User) : Value :=
  .object (("quotas", u.quota.toValue) :: (u.wgPsk.members "wg_psk"
    ++ u.cloakBypassUid.members "cloak_bypass_uid" ++ u.ipsecUsername.members "ipsec_username"
    ++ u.ipsecPassword.members "ipsec_password" ++ u.outlineSecret.members "outline_secret"
    ++ u.others.entries))

end User

namespace Brigade

def secretNames : List String := ["wg_private", "ov_ca_key", "ipsec_psk"]

def fieldNames : List String :=
  ["brigade_id", "endpoint_domain", "endpoint_ipv4", "brigade_counters", "stats_counters_stack",
    "endpoints"] ++ (secretNames.flatMap fun n => [Secret.masterName n, Secret.routerName n])
    ++ ["users"]

def reader : Reader Brigade := fun depth node => do
  let (fields, others) ← Fields.readOpen fieldNames depth node
  let id ← fields.required depth "brigade_id" Reader.text
  let domain ← fields.optional depth "endpoint_domain" "" Reader.text
  let address ← fields.required depth "endpoint_ipv4" Ipv4.reader
  let counters ← fields.optional depth "brigade_counters" .null Reader.value
  let countersStack ← fields.optional depth "stats_counters_stack" .null Reader.value
  let endpoints ← fields.optional depth "endpoints" .null Reader.value
  let wgPrivate ← Secret.read fields depth "wg_private"
  let ovCaKey ← Secret.read fields depth "ov_ca_key"
  let ipsecPsk ← Secret.read fields depth "ipsec_psk"
  let users ← fields.optional depth "users" [] (Reader.list User.reader)
  some { id, domain, address, counters, countersStack, endpoints, wgPrivate, ovCaKey, ipsecPsk,
         users, others }

/-- Transient state that is null is left out. -/
def transient (name : String) (v : Value) : List (String × Value) :=
  if v.isNull then [] else [(name, v)]

def toValue (b : Brigade) : Value :=
  .object ([("brigade_id", .string b.id), ("endpoint_domain", .string b.domain),
      ("endpoint_ipv4", b.address.toValue)]
    ++ transient "brigade_counters" b.counters ++ transient "stats_counters_stack" b.countersStack
    ++ transient "endpoints" b.endpoints ++ b.wgPrivate.members "wg_private"
    ++ b.ovCaKey.members "ov_ca_key" ++ b.ipsecPsk.members "ipsec_psk"
    ++ [("users", .array (b.users.map User.toValue))] ++ b.others.entries)

def ofBytes? (bs : Bytes) : Option Brigade := (Node.ofBytes? bs).bind (Reader.run reader)

def toBytes (b : Brigade) : Bytes := Text.Utf8.encode b.toValue.compactChars

end Brigade
end Rehoming
