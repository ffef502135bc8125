import Rehoming.Loading
import Rehoming.Proofs.Documents.Brigades
import Rehoming.Proofs.Json.Members

/-! What one program prints about the brigades of a bundle, the other one takes as pins. Main
statement: a file with the printed line is loaded as the map that was printed, whatever names are
in it. -/

namespace Rehoming

/-! ## Printed maps -/

namespace Json

theorem Reader.members_toNode {α : Type} {read : Reader α} {toValue : α → Value} {depth : Nat}
    (each : ∀ a, read depth (toValue a).toNode = some a) (m : NameMap α) :
    members read (depth + 1) (Value.object (m.map toValue).entries).toNode = some m.entries := by
  rw [Value.toNode, Value.memberNodes_eq, NameMap.map, List.map_map, members]
  refine mapM_map_some fun e _ => ?_
  simp only [Function.comp, Token.decode?_escaped, each, Option.bind_eq_bind, Option.bind_some]

/-- A map is read off the object that it was written as, if its values are. -/
theorem Reader.nameMap_toNode {α : Type} {read : Reader α} {toValue : α → Value} {depth : Nat}
    (each : ∀ a, read depth (toValue a).toNode = some a) (m : NameMap α) :
    nameMap read (depth + 1) (Value.object (m.map toValue).entries).toNode = some m := by
  rw [nameMap, members_toNode each, Option.map_some, NameMap.ofList_self]

end Json

/-- The line that is printed about a map. -/
def Pins.line (pins : Pins) : String := Host.line pins.toValue

theorem Host.line_eq (value : Json.Value) : line value = value.compact ++ "\n" := by
  simp [line, linePieces, String.join_cons]

theorem Pins.node_line (pins : Pins) :
    Json.Node.ofBytes? (Text.Utf8.ofString pins.line) = some pins.toValue.toNode := by
  have chars : pins.line.toList = pins.toValue.compactChars ++ ['\n'] := by
    simp [line, Host.line_eq, Json.Value.compact]
  rw [Json.Node.ofBytes?, Text.Utf8.ofString, Text.Utf8.symbols_encode, chars,
    Json.Node.ofSymbols?_line]

theorem Pins.read_line (pins : Pins) :
    (Json.Node.ofBytes? (Text.Utf8.ofString pins.line)).bind (Json.Reader.run reader) =
      some pins := by
  rw [pins.node_line, Option.bind_some]
  exact Json.Reader.nameMap_toNode (fun ip => Brigade.address_reader ip _) pins

/-- **Printed maps are loaded as they were.** -/
theorem Host.loadPins_line {m : Type → Type} [Monad m] [LawfulMonad m] {Temp : Type}
    (host : Host m Temp) (path : FilePath) (pins : Pins)
    (holds : host.read path = pure (.ok (Text.Utf8.ofString pins.line))) :
    host.loadPins (some path) = pure pins := by
  simp [loadPins, loadDocument, readBytes, holds, pins.read_line]

end Rehoming
