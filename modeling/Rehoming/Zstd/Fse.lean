import Rehoming.Zstd.Bits

/-! Finite-state entropy coding: a state names a symbol, and says how many bits
to read for the next state. -/

namespace Rehoming.Zstd.Fse

/-- How often a symbol comes up among the states of a table. A rare symbol has a
single state, whose successor is read in full. -/
inductive Share where
  | rare
  | states (count : Nat)
  deriving DecidableEq

def Share.size : Share → Nat
  | .rare => 1
  | .states count => count

structure Cell where
  symbol : Nat
  bits : Nat
  base : Nat
  deriving DecidableEq, Inhabited

/-- A table has `2 ^ log` cells. -/
structure Table where
  log : Nat
  cells : Array Cell

/-- A table with one symbol, which reads no bits. -/
def Table.single (symbol : Nat) : Table := ⟨0, #[⟨symbol, 0, 0⟩]⟩

/-- The symbol of each state. Rare symbols take the last states, from the end
down; the others are spread over the rest with a fixed stride. -/
def spread (log : Nat) (shares : List Share) : Array Nat :=
  let size := 1 <<< log
  let symbols := shares.zipIdx
  let rare := (symbols.filter fun s => s.1 == .rare).map (·.2)
  let common := symbols.flatMap fun s =>
    match s.1 with
    | .rare => []
    | .states count => List.replicate count s.2
  let stride := size / 2 + size / 8 + 3
  let places := ((List.range size).map fun k => k * stride % size).filter (· < size - rare.length)
  let cells := (List.zip places common).foldl (fun (a : Array Nat) ps => a.setIfInBounds ps.1 ps.2)
    (Array.replicate size 0)
  rare.zipIdx.foldl (fun a s => a.setIfInBounds (size - 1 - s.2) s.1) cells

/-- The table for shares that add up to `2 ^ log`. The states of a symbol, in
order, split the states between them as evenly as whole bits allow. -/
def Table.ofShares (log : Nat) (shares : List Share) : Table :=
  let step (st : Array Cell × Array Nat) (symbol : Nat) : Array Cell × Array Nat :=
    let count := st.2.getD symbol 1
    let bits := log - count.log2
    (st.1.push ⟨symbol, bits, (count <<< bits) - (1 <<< log)⟩, st.2.setIfInBounds symbol (count + 1))
  ⟨log, ((spread log shares).foldl step (#[], (shares.map Share.size).toArray)).1⟩

/-- How many zero shares follow a zero share: flags of two bits, up to one below three. -/
private def zeros : (fuel count : Nat) → List Bool → Option (Nat × List Bool)
  | 0, _, _ => none
  | fuel + 1, count, bits =>
    match Bits.takeLow? 2 bits with
    | some (3, rest) => zeros fuel (count + 3) rest
    | some (n, rest) => some (count + n, rest)
    | none => none

/-- Reads shares until `remaining` states are used up. A share takes as many bits
as its largest value needs, and one bit less below a threshold. -/
private def readShares : (fuel remaining : Nat) → List Share → List Bool →
    Option (List Share × List Bool)
  | _, 0, done, bits => some (done.reverse, bits)
  | 0, _, _, _ => none
  | fuel + 1, remaining, done, bits => do
    let width := (remaining + 1).log2
    let threshold := (1 <<< (width + 1)) - 1 - (remaining + 1)
    let (low, bits) ← Bits.takeLow? width bits
    let (value, bits) ←
      if low < threshold then some (low, bits)
      else do
        let (high, bits) ← Bits.takeLow? 1 bits
        some (if high = 1 then low + (1 <<< width) - threshold else low, bits)
    match value with
    | 0 => readShares fuel (remaining - 1) (.rare :: done) bits
    | 1 =>
      let (more, bits) ← zeros bits.length 0 bits
      readShares fuel remaining (List.replicate (more + 1) (.states 0) ++ done) bits
    | count + 2 =>
      if remaining < count + 1 then none
      else readShares fuel (remaining - (count + 1)) (.states (count + 1) :: done) bits

/-- The table described at the front of the bytes, with the bytes after it; at
most `2 ^ maxLog` states, and no symbol above `maxSymbol`. -/
def Table.read? (maxLog maxSymbol : Nat) (bs : Bytes) : Option (Table × Bytes) := do
  let bits := Bits.forward (bs.take 512)
  let (small, rest) ← Bits.takeLow? 4 bits
  let log := small + 5
  guard (log ≤ maxLog)
  let (shares, rest) ← readShares bits.length (1 <<< log) [] rest
  guard (shares.length ≤ maxSymbol + 1)
  some (.ofShares log shares, bs.drop ((bits.length - rest.length + 7) / 8))

def Table.cell (t : Table) (state : Nat) : Cell := t.cells.getD state default

/-- The first state. -/
def Table.start? (t : Table) (bits : List Bool) : Option (Nat × List Bool) :=
  Bits.takeHigh? t.log bits

/-- The state after `state`. -/
def Table.next? (t : Table) (state : Nat) (bits : List Bool) : Option (Nat × List Bool) := do
  let cell := t.cell state
  let (n, bits) ← Bits.takeHigh? cell.bits bits
  some (cell.base + n, bits)

/-- The symbols of two states that take turns, until the bits for a next state
run out; the other state's symbol is then the last. -/
def Table.alternate (t : Table) :
    (fuel this other : Nat) → List Nat → List Bool → Option (List Nat)
  | 0, _, _, _, _ => none
  | fuel + 1, this, other, done, bits =>
    let done := (t.cell this).symbol :: done
    match t.next? this bits with
    | some (next, bits) => t.alternate fuel other next done bits
    | none => some ((t.cell other).symbol :: done).reverse

end Rehoming.Zstd.Fse
