import Rehoming.Brigade

/-! The plan that a destination applies: for each node the brigades that go there,
encrypted for the destination. -/

namespace Rehoming

open Json

structure PreparedSnapshot where
  brigadeId : String
  address : Ipv4
  domainNames : List String
  /-- The secret that the payload is encrypted under, wrapped for the destination. -/
  secret : String
  payload : String
  deriving DecidableEq, Inhabited

structure PlannedNode where
  controlIp : String
  snapshots : List PreparedSnapshot
  deriving DecidableEq, Inhabited

structure RestorePlan where
  reservationId : String
  realmFingerprint : String
  nodes : List PlannedNode
  deriving DecidableEq, Inhabited

namespace PreparedSnapshot

def fieldNames : List String :=
  ["brigade_id", "endpoint_ipv4", "domain_names", "encrypted_secret", "payload"]

def reader : Reader PreparedSnapshot := fun depth node => do
  let fields ← Fields.read fieldNames depth node
  let brigadeId ← fields.required depth "brigade_id" Reader.text
  let address ← fields.required depth "endpoint_ipv4" Ipv4.reader
  let domainNames ← fields.required depth "domain_names" (Reader.list Reader.text)
  let secret ← fields.required depth "encrypted_secret" Reader.text
  let payload ← fields.required depth "payload" Reader.text
  some { brigadeId, address, domainNames, secret, payload }

def toValue (s : PreparedSnapshot) : Value :=
  .object [("brigade_id", .string s.brigadeId), ("endpoint_ipv4", s.address.toValue),
    ("domain_names", .array (s.domainNames.map .string)), ("encrypted_secret", .string s.secret),
    ("payload", .string s.payload)]

end PreparedSnapshot

namespace PlannedNode

def fieldNames : List String := ["control_ip", "snapshots"]

def reader : Reader PlannedNode := fun depth node => do
  let fields ← Fields.read fieldNames depth node
  let controlIp ← fields.required depth "control_ip" Reader.text
  let snapshots ← fields.required depth "snapshots" (Reader.list PreparedSnapshot.reader)
  some { controlIp, snapshots }

def toValue (n : PlannedNode) : Value :=
  .object [("control_ip", .string n.controlIp),
    ("snapshots", .array (n.snapshots.map PreparedSnapshot.toValue))]

end PlannedNode

namespace RestorePlan

def fieldNames : List String := ["reservation_id", "realm_fingerprint", "plan"]

def reader : Reader RestorePlan := fun depth node => do
  let fields ← Fields.read fieldNames depth node
  let reservationId ← fields.required depth "reservation_id" Reader.text
  let realmFingerprint ← fields.required depth "realm_fingerprint" Reader.text
  let nodes ← fields.required depth "plan" (Reader.list PlannedNode.reader)
  some { reservationId, realmFingerprint, nodes }

def toValue (p : RestorePlan) : Value :=
  .object [("reservation_id", .string p.reservationId),
    ("realm_fingerprint", .string p.realmFingerprint),
    ("plan", .array (p.nodes.map PlannedNode.toValue))]

/-- How many brigades the plan holds. -/
def size (p : RestorePlan) : Nat := (p.nodes.flatMap fun n => n.snapshots).length

end RestorePlan
end Rehoming
