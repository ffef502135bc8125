import Rehoming.Reservation
import Rehoming.RestorePlan
import Rehoming.Keys.Master
import Rehoming.Event

/-! Giving each brigade one address at its destination. As soon as a brigade has its
place it is encoded for it, and a failure to do so costs only the brigade itself. -/

namespace Rehoming

open Keys

structure Node where
  controlIp : String
  routerKey : RouterKey
  slots : List Ipv4
  deriving DecidableEq, Inhabited

/-- The nodes of a reservation, in the order in which they are declared. -/
structure Topology where
  reservationId : String
  nodes : List Node
  deriving DecidableEq

namespace Topology

def nodeOf (n : ReservedNode) : Except Error Node :=
  match RouterKey.ofText n.routerKey with
  | .ok key => .ok ⟨n.controlIp, key, n.slots⟩
  | .error e => .error (.invalidKey ("router key of node " ++ n.controlIp ++ ": " ++ e.message))

def ofReservation (r : Reservation) : Except Error Topology := do
  return ⟨r.id, ← r.nodes.mapM nodeOf⟩

def totalSlots (t : Topology) : Nat := (t.nodes.flatMap fun n => n.slots).length

/-- The first node that declares an address. -/
def locate (t : Topology) (address : Ipv4) : Option Nat :=
  t.nodes.findIdx? fun n => n.slots.contains address

/-- The slots of all nodes, in order, with the number of their node. -/
def slots (t : Topology) : List (Nat × Ipv4) :=
  t.nodes.zipIdx.flatMap fun n => n.1.slots.map fun slot => (n.2, slot)

end Topology

/-! ## Pins -/

/-- Pins that a topology has the addresses for, no two of them the same. -/
structure CheckedPins where
  pins : Pins
  deriving DecidableEq, Inhabited

namespace CheckedPins

def none : CheckedPins := ⟨.empty⟩

def get? (pins : CheckedPins) (brigadeId : String) : Option Ipv4 := pins.pins.get? brigadeId

def size (pins : CheckedPins) : Nat := pins.pins.size

end CheckedPins

/-- Checks pins in order of their brigades, and adds those that it accepts. A pin for a
brigade that is not there is reported, and neither takes its address nor needs it to
exist. -/
def Topology.checkEntries (t : Topology) (ids : List String) :
    (taken : List Ipv4) → (accepted : Pins) → List (String × Ipv4) → Logged CheckedPins
  | _, accepted, [] => return ⟨accepted⟩
  | taken, accepted, (id, address) :: rest =>
    if !ids.contains id then do
      Logged.emit (.pinIgnored id address)
      t.checkEntries ids taken accepted rest
    else if (t.locate address).isNone then Logged.fail (.pinNotFound address id)
    else if taken.contains address then Logged.fail (.pinDuplicated address id)
    else t.checkEntries ids (address :: taken) (accepted.insert id address) rest

/-- The pins of those brigades that are there. -/
def Topology.checkPins (t : Topology) (pins : Pins) (ids : List String) : Logged CheckedPins :=
  t.checkEntries ids [] .empty pins.entries

/-! ## Places -/

/-- What becomes of a brigade that cannot be placed: the run ends, or it goes on
without that brigade. -/
inductive PlacementPolicy where
  | fatal
  | skip
  deriving DecidableEq

/-- How brigades are to be placed. -/
structure PlanOptions where
  mode : PlacementMode
  policy : PlacementPolicy
  pins : CheckedPins

/-- The address that a brigade is to have when it keeps its own unless pinned. -/
def CheckedPins.target (pins : CheckedPins) (b : Brigade) : Ipv4 :=
  (pins.get? b.id).getD b.address

/-- The node that takes a brigade at an address, unless the address is taken. -/
def Topology.findFree (t : Topology) (used : List (Nat × Ipv4)) (id : String) (address : Ipv4) :
    Except Error Nat :=
  match t.locate address with
  | none => .error (.mirroredNotFound address id)
  | some node =>
    if used.contains (node, address) then .error (.mirroredDuplicated address id) else .ok node

/-- A brigade to be encoded for its place. The ordinal tells the calls of a run apart. -/
structure EncodeCall where
  ordinal : Nat
  node : Nat
  brigade : Brigade
  slot : Ipv4
  router : RouterKey
  deriving DecidableEq

abbrev SlotEncoder := EncodeCall → Except Error PreparedSnapshot

/-- How far a run has come. -/
structure Progress where
  /-- The places that are taken. -/
  used : List (Nat × Ipv4)
  /-- How many brigades have been dealt with. -/
  decided : Nat
  /-- The calls made so far, in order. -/
  calls : List EncodeCall
  /-- What they gave, with the nodes that it is for. -/
  placed : List (Nat × PreparedSnapshot)
  events : List Event

namespace Progress

variable (t : Topology) (encode : SlotEncoder) (pins : CheckedPins) (policy : PlacementPolicy)

def start : Progress := ⟨[], 0, [], [], []⟩

/-- Takes a place for a brigade, and encodes the brigade for it at once. The place stays
taken if that fails. -/
def encodeInto (node : Nat) (slot : Ipv4) (b : Brigade) (p : Progress) : Progress :=
  let host := t.nodes.getD node default
  let call : EncodeCall := ⟨p.decided, node, b, slot, host.routerKey⟩
  let q : Progress := { p with
    used := (node, slot) :: p.used, decided := p.decided + 1, calls := p.calls ++ [call] }
  match encode call with
  | .ok s => { q with
      placed := p.placed ++ [(node, s)], events := p.events ++ [.placed b.id slot host.controlIp] }
  | .error e => { q with events := p.events ++ [.skipped b.id slot e] }

def refuse (b : Brigade) (address : Ipv4) (e : Error) (p : Progress) : Progress :=
  { p with decided := p.decided + 1, events := p.events ++ [.notPlaced b.id address e] }

/-- Each brigade at its target address. -/
def mirrored : Progress → List Brigade → Progress × Option Error
  | p, [] => (p, none)
  | p, b :: rest =>
    let address := pins.target b
    match t.findFree p.used b.id address with
    | .ok node => mirrored (p.encodeInto t encode node address b) rest
    | .error e =>
      match policy with
      | .skip => mirrored (p.refuse b address e) rest
      | .fatal => (p, some e)

/-- Pinned brigades at their pins. -/
def pinned : Progress → List Brigade → Progress × Option Error
  | p, [] => (p, none)
  | p, b :: rest =>
    let address := pins.target b
    match t.locate address with
    | none => (p, some (.pinNotFound address b.id))
    | some node => pinned (p.encodeInto t encode node address b) rest

/-- Brigades from the front of the queue on the slots that are not used yet, with the
brigades that find none. -/
def fill : Progress → (slots : List (Nat × Ipv4)) → (queue : List Brigade) →
    Progress × List Brigade
  | p, [], queue => (p, queue)
  | p, _, [] => (p, [])
  | p, slot :: slots, b :: queue =>
    if p.used.contains slot then fill p slots (b :: queue)
    else fill (p.encodeInto t encode slot.1 slot.2 b) slots queue

/-- Pinned brigades first, and then the others on the slots that are left. -/
def sequential (p : Progress) (brigades : List Brigade) : Progress × Option Error :=
  let (fixed, queue) := brigades.partition fun b => (pins.get? b.id).isSome
  match pinned t encode pins p fixed with
  | (q, some e) => (q, some e)
  | (q, none) =>
    let (last, rest) := fill t encode q t.slots queue
    (last, if rest.isEmpty then none
      else some (.reservationTooSmall (fixed.length + queue.length) t.totalSlots))

def place (mode : PlacementMode) (brigades : List Brigade) : Progress × Option Error :=
  match mode with
  | .mirrored => mirrored t encode pins policy start brigades
  | .sequential => sequential t encode pins start brigades

/-- The snapshots of each node; nodes without any are left out. -/
def finish (realmFingerprint : String) (p : Progress) : RestorePlan where
  reservationId := t.reservationId
  realmFingerprint := realmFingerprint
  nodes := t.nodes.zipIdx.filterMap fun n =>
    let snapshots := p.placed.filterMap fun s => if s.1 = n.2 then some s.2 else none
    if snapshots.isEmpty then none else some ⟨n.1.controlIp, snapshots⟩

/-- A whole run, with the calls that it makes. Those before a failure are made as well. -/
def plan (realmFingerprint : String) (options : PlanOptions) (brigades : List Brigade) :
    List EncodeCall × Logged RestorePlan :=
  match place t encode options.pins options.policy options.mode brigades with
  | (p, some e) => (p.calls, ⟨.error e, p.events⟩)
  | (p, none) =>
    let plan := p.finish t realmFingerprint
    (p.calls, ⟨.ok plan, p.events ++
      [.assembled plan.reservationId options.mode plan.nodes.length plan.size]⟩)

end Progress

/-- Places all brigades and encodes them. -/
def buildPlan (t : Topology) (realmFingerprint : String) (options : PlanOptions)
    (encode : SlotEncoder) (brigades : List Brigade) : Logged RestorePlan :=
  (Progress.plan t encode realmFingerprint options brigades).2

end Rehoming
