/-! TOML values, and the rules by which headers and dotted keys build up tables. A
table is defined once: what made it decides whether it may be added to. -/

namespace Rehoming.Toml

/-- What made a table. -/
inductive Origin where
  /-- A header of its own; this holds for the whole document, too. -/
  | header
  /-- A header of a table within it. -/
  | implied
  /-- A dotted key. -/
  | dotted
  /-- Braces, on a single line. -/
  | inline
  /-- A dotted key between braces. -/
  | inlineDotted
  deriving DecidableEq

inductive Value where
  | string (value : String)
  | integer (value : Int)
  | float
  | bool (value : Bool)
  | dateTime
  | array (items : List Value)
  | table (origin : Origin) (members : List (String × Value))
  /-- Tables with one header that is repeated. -/
  | tables (items : List Value)

abbrev Members := List (String × Value)

namespace Members

/-- Puts a value in the place of the one with this name, or at the end. -/
def set (name : String) (value : Value) : Members → Members
  | [] => [(name, value)]
  | (other, old) :: rest =>
    if other = name then (name, value) :: rest else (other, old) :: set name value rest

def erase (name : String) (members : Members) : Members := members.filter fun m => m.1 ≠ name

/-- Changes the table that a path leads to, and makes those on the way that are not
there. A header may lead through all tables but inline ones, and into the last of
several; a dotted key also not through tables that have a header of their own. -/
def update (made : Origin) (change : Origin → Members → Option Members) :
    (path : List String) → Origin → Members → Option Members
  | [], origin, members => change origin members
  | name :: rest, _, members =>
    match members.lookup name with
    | none => do
      let inner ← update made change rest made []
      some (members ++ [(name, .table made inner)])
    | some (.table origin inner) =>
      if origin = .inline ∨ (made ≠ .implied ∧ origin = .header) then none
      else do
        let inner ← update made change rest origin inner
        some (set name (.table origin inner) members)
    | some (.tables items) =>
      match items.getLast? with
      | some (.table origin inner) => do
        let inner ← update made change rest origin inner
        some (set name (.tables (items.dropLast ++ [.table origin inner])) members)
      | _ => none
    | some _ => none

/-- Adds a value at the end of a path of dotted keys. Only a table that such keys
made can be added to by them. -/
def define? (made : Origin) (path : List String) (name : String) (value : Value)
    (members : Members) : Option Members :=
  update made (fun origin members =>
    if (!path.isEmpty ∧ origin ≠ made) ∨ (members.lookup name).isSome then none
    else some (members ++ [(name, value)])) path .header members

/-- The table of a header, which may be there already on account of headers below. -/
def openTable? (path : List String) (name : String) (members : Members) : Option Members :=
  update .implied (fun _ members =>
    match members.lookup name with
    | none => some (members ++ [(name, .table .header [])])
    | some (.table .implied inner) => some (erase name members ++ [(name, .table .header inner)])
    | some _ => none) path .header members

/-- One more table of a header that is repeated. -/
def appendTable? (path : List String) (name : String) (members : Members) : Option Members :=
  update .implied (fun _ members =>
    match members.lookup name with
    | none => some (members ++ [(name, .tables [.table .header []])])
    | some (.tables items) => some (set name (.tables (items ++ [.table .header []])) members)
    | some _ => none) path .header members

/-- Adds a value below the header that stands above it. -/
def defineBelow? (header path : List String) (name : String) (value : Value)
    (members : Members) : Option Members :=
  update .implied (fun _ members => define? .dotted path name value members) header .header members

end Members
end Rehoming.Toml
