import Rehoming.Json.Value

/-! Records in JSON. A record is an object with known members, each of which may
occur once; or, where the record is not open to other members, an array of its
fields in order. What other members a closed record has does not matter, and is
not looked into; an open record keeps them. -/

namespace Rehoming.Json

/-- Reads a value in which at most so many arrays and objects are open at a time. -/
abbrev Reader (α : Type) := (depth : Nat) → Node → Option α

namespace Reader

/-- The depth to which documents may nest what they keep. -/
def maxDepth : Nat := 127

def run {α : Type} (read : Reader α) (node : Node) : Option α := read maxDepth node

def text : Reader String
  | _, .text symbols => Token.decode? symbols
  | _, _ => none

/-- An integer written out as such, within bounds. -/
def intWithin (low high : Int) : Reader Int
  | _, .numeral cs =>
    match Numeral.int? cs with
    | some i => if low ≤ i ∧ i ≤ high then some i else none
    | none => none
  | _, _ => none

def int64 : Reader Int := intWithin Int64.minValue.toInt Int64.maxValue.toInt

def nat64 : Reader Nat := fun depth node =>
  (intWithin 0 (UInt64.size - 1) depth node).map Int.toNat

def value : Reader Value := Value.ofNode?

/-- A text that `parse` makes sense of. -/
def parsed {α : Type} (parse : String → Option α) : Reader α := fun depth node =>
  (text depth node).bind parse

def list {α : Type} (read : Reader α) : Reader (List α)
  | depth + 1, .array items => items.mapM (read depth)
  | _, _ => none

/-- The members of an object, with their names. -/
def members {α : Type} (read : Reader α) : Reader (List (String × α))
  | depth + 1, .object members => members.mapM fun m => do
    let name ← Token.decode? m.1
    let value ← read depth m.2
    some (name, value)
  | _, _ => none

def nameMap {α : Type} (read : Reader α) : Reader (NameMap α) := fun depth node =>
  (members read depth node).map NameMap.ofList

end Reader

/-- The fields that a record was given, by name. -/
abbrev Fields := List (String × Node)

namespace Fields

/-- The fields of a record with these names, whether given as an object or an array. -/
def read (names : List String) : Reader Fields
  | _ + 1, .object members => do
    let members ← members.mapM fun m => (Token.decode? m.1).map fun name => (name, m.2)
    let known := members.filter fun m => names.contains m.1
    if (known.map (·.1)).Nodup then some known else none
  | _ + 1, .array items =>
    if items.length ≤ names.length then some (names.zip items) else none
  | _, _ => none

/-- The fields of an open record, which is an object, with its other members. -/
def readOpen (names : List String) : Reader (Fields × NameMap Value)
  | depth + 1, .object members => do
    let members ← members.mapM fun m => (Token.decode? m.1).map fun name => (name, m.2)
    let (known, others) := members.partition fun m => names.contains m.1
    let others ← others.mapM fun m => (Reader.value depth m.2).map fun value => (m.1, value)
    if (known.map (·.1)).Nodup then some (known, .ofList others) else none
  | _, _ => none

variable {α : Type}

/-- A field that must be given. The depth is that of the record. -/
def required (fields : Fields) (depth : Nat) (name : String) (read : Reader α) : Option α :=
  match fields.lookup name with
  | some node => read (depth - 1) node
  | none => none

/-- A field that has a value of its own when not given. -/
def optional (fields : Fields) (depth : Nat) (name : String) (default : α) (read : Reader α) :
    Option α :=
  match fields.lookup name with
  | some node => read (depth - 1) node
  | none => some default

end Fields
end Rehoming.Json
