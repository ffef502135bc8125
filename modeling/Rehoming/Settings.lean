import Rehoming.Toml.Document
import Rehoming.FilePath
import Rehoming.Restore

/-! The settings file. A section is a table, or an array of its settings in order;
what is not given has a value of its own, and what is not known does not matter. -/

namespace Rehoming

open Toml (Value Members)

/-- Where keys are, if not in the usual places. -/
structure KeySettings where
  authority : Option FilePath
  master : Option FilePath
  realms : Option FilePath
  deriving DecidableEq

structure LogSettings where
  level : String
  format : String
  deriving DecidableEq

structure RecodeSettings where
  parallel : Bool
  policy : PlacementPolicy
  maxPayloadMb : Nat
  deriving DecidableEq

structure Settings where
  keys : KeySettings
  log : LogSettings
  recode : RecodeSettings
  deriving DecidableEq

namespace Settings

/-! ## Single settings -/

private def string? : Value → Option String
  | .string s => some s
  | _ => none

private def bool? : Value → Option Bool
  | .bool b => some b
  | _ => none

private def nat? : Value → Option Nat
  | .integer i => if 0 ≤ i then some i.toNat else none
  | _ => none

private def path? (value : Value) : Option (Option FilePath) :=
  (string? value).map fun s => some ⟨s⟩

private def isVoid : Value → Bool
  | .array [] | .table _ [] | .tables [] => true
  | _ => false

private def policyOfName? (name : String) : Option PlacementPolicy :=
  if name = "fatal" then some .fatal else if name = "skip" then some .skip else none

/-- A policy is given by its name, which may also be that of the first member of a
table, with nothing in it. Between braces there is no second one. -/
private def policy? : Value → Option PlacementPolicy
  | .string name => policyOfName? name
  | .table origin ((name, value) :: rest) =>
    let inline := origin = .inline ∨ origin = .inlineDotted
    if isVoid value ∧ (rest.isEmpty ∨ ¬inline) then policyOfName? name else none
  | _ => none

/-- A setting of a section. -/
private def setting {α : Type} (members : Members) (name : String) (default : α)
    (read : Value → Option α) : Option α :=
  match members.lookup name with
  | some value => read value
  | none => some default

/-! ## Sections -/

/-- The settings of a section, by name. A date has none that are known. -/
private def section? (names : List String) : Value → Option Members
  | .table _ members => some members
  | .array items => some (names.zip items)
  | .tables items => some (names.zip items)
  | .dateTime => some []
  | _ => none

private def keys? (value : Value) : Option KeySettings := do
  let s ← section? ["authority_key", "master_key", "realms_keys"] value
  let authority ← setting s "authority_key" none path?
  let master ← setting s "master_key" none path?
  let realms ← setting s "realms_keys" none path?
  some { authority, master, realms }

private def log? (value : Value) : Option LogSettings := do
  let s ← section? ["level", "format"] value
  let level ← setting s "level" "info" string?
  let format ← setting s "format" "text" string?
  some { level, format }

private def recode? (value : Value) : Option RecodeSettings := do
  let s ← section? ["parallel_decode", "placement_errors", "max_payload_mb"] value
  let parallel ← setting s "parallel_decode" RunOptions.default.parallel bool?
  let policy ← setting s "placement_errors" RunOptions.default.policy policy?
  let maxPayloadMb ← setting s "max_payload_mb" 64 nat?
  some { parallel, policy, maxPayloadMb }

/-- What holds without a settings file. -/
def default : Settings where
  keys := ⟨none, none, none⟩
  log := ⟨"info", "text"⟩
  recode := ⟨RunOptions.default.parallel, RunOptions.default.policy, 64⟩

def ofText? (text : String) : Option Settings := do
  let root ← Toml.ofText? text
  let keys ← setting root "keys" default.keys keys?
  let log ← setting root "log" default.log log?
  let recode ← setting root "recode" default.recode recode?
  some { keys, log, recode }

end Settings

/-! ## What follows from settings -/

namespace KeySettings

private def resolve (home : FilePath) (named : Option FilePath) (usual : FilePath) : FilePath :=
  match named with
  | some path => path.expandTilde home
  | none => usual

def authorityPath (s : KeySettings) (home : FilePath) : FilePath :=
  resolve home s.authority (home.join ⟨".secret/authority_priv.pem"⟩)

def masterPath (s : KeySettings) (home : FilePath) : FilePath :=
  resolve home s.master (home.join ⟨".secret/shuffler_priv.json"⟩)

def realmsPath (s : KeySettings) (home : FilePath) : FilePath :=
  resolve home s.realms ⟨"/etc/vgdept/realms_keys"⟩

/-- A key that was named for this run wins over the settings. -/
def choose (home : FilePath) (named : Option FilePath) (otherwise : FilePath) : FilePath :=
  resolve home named otherwise

end KeySettings

/-- The limit in bytes, as far as 64 bits go. -/
def RecodeSettings.limit (s : RecodeSettings) : Nat :=
  min (s.maxPayloadMb <<< 20) (UInt64.size - 1)

def RunOptions.ofSettings (s : RecodeSettings) (mode : PlacementMode) (force : Bool)
    (settling : List Nat) : RunOptions where
  mode := mode
  force := force
  policy := s.policy
  parallel := s.parallel
  settling := settling
  limit := s.limit

end Rehoming
