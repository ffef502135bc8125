import Rehoming.Json.Record
import Rehoming.Timestamp

/-! The bundle that an exporting datacenter hands over: one envelope for each
brigade, and what holds for all of them. -/

namespace Rehoming

open Json

/-- One brigade as exported. Its payload is encrypted under secrets that only the
authority can unwrap. -/
structure Envelope where
  brigadeId : String
  tag : String
  globalTime : Timestamp
  localTime : Timestamp
  realmFingerprint : String
  authorityFingerprint : String
  /-- The locker secret, wrapped for the authority. -/
  lockerSecret : String
  /-- The share of each authority, by fingerprint, wrapped for it. -/
  shares : NameMap String
  payload : String
  deriving DecidableEq, Inhabited

structure Bundle where
  updateTime : Timestamp
  globalTime : Timestamp
  tag : String
  datacenterId : String
  /-- Empty as long as the bundle is not bound to a realm. -/
  realmFingerprint : String
  authorityFingerprint : String
  /-- The secret shared by all envelopes, wrapped for the authority. -/
  sharedSecret : String
  /-- How many brigades the exporter could not export. -/
  errorsCount : Nat
  envelopes : List Envelope
  deriving DecidableEq, Inhabited

namespace Timestamp

def reader : Reader Timestamp := Reader.parsed ofText?

def toValue (t : Timestamp) : Value := .string t.toText

end Timestamp

namespace Envelope

def fieldNames : List String :=
  ["brigade_id", "tag", "global_snapshot_time", "local_snapshot_time", "realm_key_fingerprint",
    "authority_key_fingerprint", "encrypted_locker_secret", "secrets", "payload"]

def reader : Reader Envelope := fun depth node => do
  let fields ← Fields.read fieldNames depth node
  let brigadeId ← fields.optional depth "brigade_id" "" Reader.text
  let tag ← fields.optional depth "tag" "" Reader.text
  let globalTime ← fields.optional depth "global_snapshot_time" .epoch Timestamp.reader
  let localTime ← fields.optional depth "local_snapshot_time" .epoch Timestamp.reader
  let realmFingerprint ← fields.optional depth "realm_key_fingerprint" "" Reader.text
  let authorityFingerprint ← fields.optional depth "authority_key_fingerprint" "" Reader.text
  let lockerSecret ← fields.optional depth "encrypted_locker_secret" "" Reader.text
  let shares ← fields.optional depth "secrets" .empty (Reader.nameMap Reader.text)
  let payload ← fields.optional depth "payload" "" Reader.text
  some { brigadeId, tag, globalTime, localTime, realmFingerprint, authorityFingerprint,
         lockerSecret, shares, payload }

def toValue (e : Envelope) : Value :=
  .object [("brigade_id", .string e.brigadeId), ("tag", .string e.tag),
    ("global_snapshot_time", e.globalTime.toValue), ("local_snapshot_time", e.localTime.toValue),
    ("realm_key_fingerprint", .string e.realmFingerprint),
    ("authority_key_fingerprint", .string e.authorityFingerprint),
    ("encrypted_locker_secret", .string e.lockerSecret),
    ("secrets", .object (e.shares.map .string).entries), ("payload", .string e.payload)]

end Envelope

namespace Bundle

def fieldNames : List String :=
  ["update_time", "global_snapshot_time", "tag", "datacenter_id", "realm_key_fingerprint",
    "authority_key_fingerprint", "encrypted_preshared_secret", "errors_count", "snapshots"]

def reader : Reader Bundle := fun depth node => do
  let fields ← Fields.read fieldNames depth node
  let updateTime ← fields.optional depth "update_time" .epoch Timestamp.reader
  let globalTime ← fields.optional depth "global_snapshot_time" .epoch Timestamp.reader
  let tag ← fields.optional depth "tag" "" Reader.text
  let datacenterId ← fields.optional depth "datacenter_id" "" Reader.text
  let realmFingerprint ← fields.optional depth "realm_key_fingerprint" "" Reader.text
  let authorityFingerprint ← fields.optional depth "authority_key_fingerprint" "" Reader.text
  let sharedSecret ← fields.optional depth "encrypted_preshared_secret" "" Reader.text
  let errorsCount ← fields.optional depth "errors_count" 0 Reader.nat64
  let envelopes ← fields.optional depth "snapshots" [] (Reader.list Envelope.reader)
  some { updateTime, globalTime, tag, datacenterId, realmFingerprint, authorityFingerprint,
         sharedSecret, errorsCount, envelopes }

def toValue (b : Bundle) : Value :=
  .object [("update_time", b.updateTime.toValue), ("global_snapshot_time", b.globalTime.toValue),
    ("tag", .string b.tag), ("datacenter_id", .string b.datacenterId),
    ("realm_key_fingerprint", .string b.realmFingerprint),
    ("authority_key_fingerprint", .string b.authorityFingerprint),
    ("encrypted_preshared_secret", .string b.sharedSecret),
    ("errors_count", .number (.int b.errorsCount)),
    ("snapshots", .array (b.envelopes.map Envelope.toValue))]

/-- The brigades that the envelopes name, in order. -/
def brigadeIds (b : Bundle) : List String := b.envelopes.map (·.brigadeId)

end Bundle
end Rehoming
