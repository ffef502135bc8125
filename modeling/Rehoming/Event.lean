import Rehoming.Error
import Rehoming.Json.Value

/-! What a run reports while it goes on, and results that come with such reports. -/

namespace Rehoming

open Json (Value)

/-- How brigades are given their new addresses. -/
inductive PlacementMode where
  /-- Each keeps the address it has. -/
  | mirrored
  /-- The slots are filled in order. -/
  | sequential
  deriving DecidableEq

def PlacementMode.name : PlacementMode → String
  | .mirrored => "Mirrored"
  | .sequential => "Sequential"

inductive Level where
  | debug
  | info
  | warn
  deriving DecidableEq

def Level.name : Level → String
  | .debug => "DEBUG"
  | .info => "INFO"
  | .warn => "WARN"

inductive Event where
  | runStarting (version input reservation : String)
  | authorityLoaded (path fingerprint : String)
  | realmResolved (path fingerprint : String)
  | realmFileIgnored (path : String)
  | foreignRealmKey (line : Nat) (kind : String)
  | realmKeySkipped (line : Nat) (error : Error)
  | exportErrors (count : Nat)
  | pinIgnored (brigadeId : String) (address : Ipv4)
  | recoding (snapshots slots nodes : Nat) (mode : PlacementMode)
  | decoded (brigadeId : String) (address : Ipv4)
  | notPlaced (brigadeId : String) (address : Ipv4) (error : Error)
  | placed (brigadeId : String) (slot : Ipv4) (controlIp : String)
  | skipped (brigadeId : String) (slot : Ipv4) (error : Error)
  | assembled (reservationId : String) (mode : PlacementMode) (nodes placed : Nat)
  | planWritten (reservationId : String) (nodes snapshots : Nat) (out : String)
  | mappingReady (brigades : Nat)
  deriving DecidableEq

namespace Event

def level : Event → Level
  | .authorityLoaded .. | .realmResolved .. | .realmFileIgnored .. | .foreignRealmKey ..
  | .decoded .. | .placed .. => .debug
  | .runStarting .. | .recoding .. | .assembled .. | .planWritten .. | .mappingReady .. => .info
  | .realmKeySkipped .. | .exportErrors .. | .pinIgnored .. | .notPlaced .. | .skipped .. => .warn

def message : Event → String
  | .runStarting .. => "recodesnaps starting"
  | .authorityLoaded .. => "authority key loaded"
  | .realmResolved .. => "realm key resolved"
  | .realmFileIgnored .. => "realms key file ignored in inspect mode"
  | .foreignRealmKey .. => "skipping non-RSA realm key"
  | .realmKeySkipped .. => "skipping malformed realm key"
  | .exportErrors .. => "bundle reports failed brigade exports"
  | .pinIgnored .. => "pin for unknown brigade ignored"
  | .recoding .. => "recoding bundle"
  | .decoded .. => "brigade decoded"
  | .notPlaced .. => "brigade not placed"
  | .placed .. => "placed"
  | .skipped .. => "skipping brigade"
  | .assembled .. => "restore plan assembled"
  | .planWritten .. => "restore plan written"
  | .mappingReady .. => "mapping ready"

private def text (s : String) : Value := .string s
private def count (n : Nat) : Value := .number (.int n)
private def ip (a : Ipv4) : Value := .string a.toText

def fields : Event → List (String × Value)
  | .runStarting version input reservation =>
    [("version", text version), ("input", text input), ("reservation", text reservation)]
  | .authorityLoaded path fingerprint =>
    [("path", text path), ("fingerprint", text fingerprint)]
  | .realmResolved path fingerprint => [("path", text path), ("fingerprint", text fingerprint)]
  | .realmFileIgnored path => [("rkeys", text path)]
  | .foreignRealmKey line kind => [("line", count line), ("kind", text kind)]
  | .realmKeySkipped line error => [("line", count line), ("error", text error.message)]
  | .exportErrors n => [("errors_count", count n)]
  | .pinIgnored id address => [("brigade_id", text id), ("addr", ip address)]
  | .recoding snapshots slots nodes mode =>
    [("snapshots", count snapshots), ("slots", count slots), ("nodes", count nodes),
      ("mode", text mode.name)]
  | .decoded id address => [("brigade_id", text id), ("endpoint", ip address)]
  | .notPlaced id address error =>
    [("brigade_id", text id), ("addr", ip address), ("error", text error.message)]
  | .placed id slot controlIp =>
    [("brigade_id", text id), ("slot", ip slot), ("control_ip", text controlIp)]
  | .skipped id slot error =>
    [("brigade_id", text id), ("slot", ip slot), ("stage", text (Stage.nameOf? error.stage?)),
      ("error", text error.message)]
  | .assembled reservationId mode nodes total =>
    [("reservation_id", text reservationId), ("mode", text mode.name), ("nodes", count nodes),
      ("placed", count total)]
  | .planWritten reservationId nodes snapshots out =>
    [("reservation_id", text reservationId), ("nodes", count nodes),
      ("snapshots", count snapshots), ("out", text out)]
  | .mappingReady n => [("brigades", count n)]

end Event

/-- A result, and what was reported on the way to it. -/
structure Logged (α : Type) where
  result : Except Error α
  events : List Event

namespace Logged

variable {α β : Type}

def lift (result : Except Error α) : Logged α := ⟨result, []⟩

def fail (error : Error) : Logged α := ⟨.error error, []⟩

def emit (event : Event) : Logged Unit := ⟨.ok (), [event]⟩

def emitAll (events : List Event) : Logged Unit := ⟨.ok (), events⟩

/-- What follows an error is neither done nor reported. -/
def bind (x : Logged α) (f : α → Logged β) : Logged β :=
  match x.result with
  | .ok a => ⟨(f a).result, x.events ++ (f a).events⟩
  | .error e => ⟨.error e, x.events⟩

instance : Monad Logged where
  pure a := ⟨.ok a, []⟩
  bind := bind

@[simp] theorem pure_def (a : α) : (pure a : Logged α) = ⟨.ok a, []⟩ := rfl

@[simp] theorem bind_def (x : Logged α) (f : α → Logged β) : x >>= f = x.bind f := rfl

end Logged
end Rehoming
