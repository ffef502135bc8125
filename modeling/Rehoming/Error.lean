import Rehoming.Ipv4

/-! What can go wrong with a bundle, a reservation, a key or a ciphertext. -/

namespace Rehoming

/-- The step at which a brigade failed. -/
inductive Stage where
  | decode
  | recode
  | encode
  deriving DecidableEq

def Stage.name : Stage → String
  | .decode => "decode"
  | .recode => "recode"
  | .encode => "encode"

inductive Error where
  | invalidSnapshot (reason : String)
  | keysMismatch (keys : String)
  /-- The exporter failed for some brigades, and nobody said to go on. -/
  | exportErrors (count : Nat)
  | reservationTooSmall (snapshots slots : Nat)
  | mirroredNotFound (address : Ipv4) (brigadeId : String)
  | mirroredDuplicated (address : Ipv4) (brigadeId : String)
  | pinNotFound (address : Ipv4) (brigadeId : String)
  | pinDuplicated (address : Ipv4) (brigadeId : String)
  | decryptionFailed (what : String)
  | encryptionFailed (what : String)
  | invalidKey (reason : String)
  | encoding (reason : String)
  /-- An error with the brigade and the step that it came up in. -/
  | inBrigade (brigadeId : String) (stage : Stage) (cause : Error)
  deriving DecidableEq

namespace Error

def message : Error → String
  | .invalidSnapshot reason => "invalid snapshot data: " ++ reason
  | .keysMismatch keys => "keys mismatch: " ++ keys
  | .exportErrors count =>
    s!"snapshot errors: bundle reports {count} failed brigade export(s)"
  | .reservationTooSmall snapshots slots =>
    s!"reservation too small: {snapshots} snapshots > {slots} slots"
  | .mirroredNotFound address id => s!"mirrored ip not found: {address}: {id}"
  | .mirroredDuplicated address id => s!"mirrored ip duplicated: {address}: {id}"
  | .pinNotFound address id => s!"pinned ip not found in reservation: {address}: {id}"
  | .pinDuplicated address id => s!"pinned ip duplicated: {address}: {id}"
  | .decryptionFailed what => "decryption failed: " ++ what
  | .encryptionFailed what => "encryption failed: " ++ what
  | .invalidKey reason => "invalid key: " ++ reason
  | .encoding reason => "encoding error: " ++ reason
  | .inBrigade id stage cause => stage.name ++ ": brigade " ++ id ++ ": " ++ cause.message

/-- The stage that the error is marked with, if it is. -/
def stage? : Error → Option Stage
  | .inBrigade _ stage _ => some stage
  | _ => none

/-- The error without any marks. -/
def root : Error → Error
  | .inBrigade _ _ cause => cause.root
  | e => e

/-- The errors that this one is marked with, outermost first, itself included. -/
def chain : Error → List Error
  | .inBrigade id stage cause => .inBrigade id stage cause :: cause.chain
  | e => [e]

/-- A text that should be JSON is not, or not the document it should be. -/
def badJson : Error := .encoding "json: unexpected text"

end Error

/-- The name of the error in reports on brigades that are left out. -/
def Stage.nameOf? : Option Stage → String
  | some stage => stage.name
  | none => ""

end Rehoming
