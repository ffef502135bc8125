import Rehoming.Brigade

/-! What a destination sets aside for the brigades that move in: nodes, and the
addresses on each of them. -/

namespace Rehoming

open Json

structure ReservedNode where
  controlIp : String
  /-- The router's public key in base64. -/
  routerKey : String
  slots : List Ipv4
  deriving DecidableEq, Inhabited

structure Reservation where
  id : String
  nodes : List ReservedNode
  deriving DecidableEq, Inhabited

/-- Addresses that brigades are pinned to, by brigade. -/
abbrev Pins := NameMap Ipv4

namespace ReservedNode

def fieldNames : List String := ["control_ip", "router_public_key", "slots"]

def reader : Reader ReservedNode := fun depth node => do
  let fields ← Fields.read fieldNames depth node
  let controlIp ← fields.optional depth "control_ip" "" Reader.text
  let routerKey ← fields.optional depth "router_public_key" "" Reader.text
  let slots ← fields.optional depth "slots" [] (Reader.list Ipv4.reader)
  some { controlIp, routerKey, slots }

def toValue (n : ReservedNode) : Value :=
  .object [("control_ip", .string n.controlIp), ("router_public_key", .string n.routerKey),
    ("slots", .array (n.slots.map Ipv4.toValue))]

end ReservedNode

namespace Reservation

def fieldNames : List String := ["reservation_id", "plan"]

def reader : Reader Reservation := fun depth node => do
  let fields ← Fields.read fieldNames depth node
  let id ← fields.optional depth "reservation_id" "" Reader.text
  let nodes ← fields.optional depth "plan" [] (Reader.list ReservedNode.reader)
  some { id, nodes }

def toValue (r : Reservation) : Value :=
  .object [("reservation_id", .string r.id), ("plan", .array (r.nodes.map ReservedNode.toValue))]

def totalSlots (r : Reservation) : Nat := (r.nodes.flatMap fun n => n.slots).length

end Reservation

namespace Pins

def reader : Reader Pins := Reader.nameMap Ipv4.reader

def toValue (pins : Pins) : Value := .object (pins.map Ipv4.toValue).entries

end Pins
end Rehoming
