import Rehoming.Decoding

/-! The exporting side: brigades in service, and the bundles made of them. -/

namespace Rehoming

open Keys Json

structure Exporter where
  authority : AuthorityKey
  master : MasterKey

namespace Exporter

def tag : String := "epoch-2024-05"

def int (n : Nat) : Value := .number (.int n)

/-- A brigade in service. The plaintext of each secret is made of the id of the
brigade and of what the secret is. -/
def liveBrigade (suite : CipherSuite) (x : Exporter) (entropy : Entropy) (id : String)
    (address : Ipv4) : Except Error Brigade := do
  let secret (i : Nat) (what : String) : Except Error Secret := do
    let sealed ← suite.sealFor x.master.publicKey (entropy.child i)
      (Text.Utf8.ofString (id ++ "-" ++ what))
    return ⟨Base64.encodeText sealed, ""⟩
  let user (name : String) (usage : NameMap Value) (psk outline : Secret) : User :=
    { quota := ⟨2, usage⟩, wgPsk := psk, cloakBypassUid := default, ipsecUsername := default,
      ipsecPassword := default, outlineSecret := outline,
      others := NameMap.empty.insert "user_id" (.string (id ++ "-" ++ name)) }
  return {
    id
    domain := id ++ ".vpn.example"
    address
    counters := .object [("total_rx", int 123456), ("total_tx", int 654321)]
    countersStack := .array [.object [("rx", int 1), ("tx", int 2)]]
    endpoints := .object [("198.51.100.7", .object [("seen", int 4)])]
    wgPrivate := ← secret 0 "wg-private"
    ovCaKey := default
    ipsecPsk := ← secret 1 "ipsec-psk"
    users :=
      [user "u1" (NameMap.ofList [("limit_monthly_remaining", int 1000),
          ("os_counter_mtime", .string "2024-04-30T00:00:00Z")])
        (← secret 2 "u1-psk") (← secret 3 "u1-outline"),
       user "u2" .empty (← secret 4 "u2-psk") default]
    others := NameMap.empty.insert "dns_ipv4" (.string "100.64.0.1") }

/-- The bundle's time, and the time that its brigades were exported at. -/
def updateTime : Timestamp := ⟨1714561500, 0⟩
def globalTime : Timestamp := ⟨1714561200, 0⟩
def localTime : Timestamp := ⟨1714561097, 0⟩

def wrapSecret (suite : CipherSuite) (x : Exporter) (entropy : Entropy) (secret : Bytes) :
    Except Error String := do
  return Base64.encodeText (← suite.wrap x.authority.publicKey entropy secret)

/-- An envelope for a brigade with this id, whatever the id in the brigade is. -/
def wrapAs (suite : CipherSuite) (x : Exporter) (entropy : Entropy) (id : String)
    (shared : Bytes) (b : Brigade) : Except Error Envelope := do
  let locker := newSecret (entropy.child 0)
  let share := newSecret (entropy.child 1)
  let fingerprint := x.authority.fingerprint
  let lockerSecret ← wrapSecret suite x (entropy.child 2) locker
  let wrappedShare ← wrapSecret suite x (entropy.child 3) share
  let envelope : Envelope :=
    { brigadeId := id, tag, globalTime, localTime, realmFingerprint := "",
      authorityFingerprint := fingerprint, lockerSecret,
      shares := NameMap.empty.insert fingerprint wrappedShare, payload := "" }
  let payload := Payload.encrypt suite (envelope.key shared locker share) (entropy.child 4)
    b.toBytes
  return { envelope with payload := Base64.encodeText payload }

def wrap (suite : CipherSuite) (x : Exporter) (entropy : Entropy) (shared : Bytes) (b : Brigade) :
    Except Error Envelope := x.wrapAs suite entropy b.id shared b

/-- A bundle of brigades under a new shared secret, each in an envelope with the id
beside it. -/
def bundleAs (suite : CipherSuite) (x : Exporter) (entropy : Entropy)
    (brigades : List (String × Brigade)) : Except Error Bundle := do
  let shared := newSecret (entropy.child 0)
  let sharedSecret ← wrapSecret suite x (entropy.child 1) shared
  let envelopes ← brigades.zipIdx.mapM fun b =>
    x.wrapAs suite ((entropy.child 2).child b.2) b.1.1 shared b.1.2
  return { updateTime, globalTime, tag, datacenterId := "dc-ams-1", realmFingerprint := "",
           authorityFingerprint := x.authority.fingerprint, sharedSecret, errorsCount := 0,
           envelopes }

def bundle (suite : CipherSuite) (x : Exporter) (entropy : Entropy) (brigades : List Brigade) :
    Except Error Bundle := x.bundleAs suite entropy (brigades.map fun b => (b.id, b))

end Exporter
end Rehoming
