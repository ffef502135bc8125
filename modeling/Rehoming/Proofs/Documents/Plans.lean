import Rehoming.RestorePlan
import Rehoming.Proofs.Documents.Brigades
import Rehoming.Proofs.Json.Pretty

/-! Plans survive as documents. There are only texts, addresses and lists in a plan, so its
reader undoes the writing for any of them. Main statement: the file that a plan is written to,
spread over lines and with a line ending, is read back as the plan. -/

namespace Rehoming

open Json

namespace Json

theorem Reader.list_texts (texts : List String) (depth : Nat) :
    list text (depth + 1) (Value.array (texts.map .string)).toNode = some texts :=
  list_toNode fun s _ => text_toNode s depth

end Json

namespace PreparedSnapshot

theorem reader_toValue (s : PreparedSnapshot) (depth : Nat) :
    reader (depth + 2) s.toValue.toNode = some s := by
  have record : Fields.read fieldNames (depth + 2) s.toValue.toNode =
      some (Fields.ofValue s.toValue) :=
    Fields.read_toNode fieldNames rfl rfl (by decide) (depth + 1)
  have id : (Fields.ofValue s.toValue).required (depth + 2) "brigade_id" Reader.text =
      some s.brigadeId := Fields.required_ofValue rfl (Reader.text_toNode s.brigadeId _)
  have address : (Fields.ofValue s.toValue).required (depth + 2) "endpoint_ipv4" Ipv4.reader =
      some s.address := Fields.required_ofValue rfl (Brigade.address_reader s.address _)
  have domains : (Fields.ofValue s.toValue).required (depth + 2) "domain_names"
      (Reader.list Reader.text) = some s.domainNames :=
    Fields.required_ofValue rfl (Reader.list_texts s.domainNames depth)
  have secret : (Fields.ofValue s.toValue).required (depth + 2) "encrypted_secret" Reader.text =
      some s.secret := Fields.required_ofValue rfl (Reader.text_toNode s.secret _)
  have payload : (Fields.ofValue s.toValue).required (depth + 2) "payload" Reader.text =
      some s.payload := Fields.required_ofValue rfl (Reader.text_toNode s.payload _)
  simp only [reader, record, id, address, domains, secret, payload, Option.bind_eq_bind,
    Option.bind_some]

end PreparedSnapshot

namespace PlannedNode

theorem reader_toValue (n : PlannedNode) (depth : Nat) :
    reader (depth + 4) n.toValue.toNode = some n := by
  have record : Fields.read fieldNames (depth + 4) n.toValue.toNode =
      some (Fields.ofValue n.toValue) :=
    Fields.read_toNode fieldNames rfl rfl (by decide) (depth + 3)
  have control : (Fields.ofValue n.toValue).required (depth + 4) "control_ip" Reader.text =
      some n.controlIp := Fields.required_ofValue rfl (Reader.text_toNode n.controlIp _)
  have snapshots : (Fields.ofValue n.toValue).required (depth + 4) "snapshots"
      (Reader.list PreparedSnapshot.reader) = some n.snapshots :=
    Fields.required_ofValue rfl (Reader.list_toNode fun s _ => s.reader_toValue depth)
  simp only [reader, record, control, snapshots, Option.bind_eq_bind, Option.bind_some]

end PlannedNode

namespace RestorePlan

theorem reader_toValue (p : RestorePlan) : Reader.run reader p.toValue.toNode = some p := by
  have record : Fields.read fieldNames Reader.maxDepth p.toValue.toNode =
      some (Fields.ofValue p.toValue) :=
    Fields.read_toNode fieldNames rfl rfl (by decide) 126
  have reservation : (Fields.ofValue p.toValue).required Reader.maxDepth "reservation_id"
      Reader.text = some p.reservationId :=
    Fields.required_ofValue rfl (Reader.text_toNode p.reservationId _)
  have realm : (Fields.ofValue p.toValue).required Reader.maxDepth "realm_fingerprint"
      Reader.text = some p.realmFingerprint :=
    Fields.required_ofValue rfl (Reader.text_toNode p.realmFingerprint _)
  have nodes : (Fields.ofValue p.toValue).required Reader.maxDepth "plan"
      (Reader.list PlannedNode.reader) = some p.nodes :=
    Fields.required_ofValue rfl (Reader.list_toNode fun n _ => n.reader_toValue 121)
  simp only [Reader.run, reader, record, reservation, realm, nodes, Option.bind_eq_bind,
    Option.bind_some]

/-- What the file of a plan holds. -/
def document (p : RestorePlan) : Bytes := Text.Utf8.ofString (p.toValue.pretty ++ "\n")

/-- The plan that a file with this content holds. -/
def ofDocument? (content : Bytes) : Option RestorePlan :=
  (Node.ofBytes? content).bind (Reader.run reader)

/-- **Plans are read back.** Whatever texts are in a plan, and however many nodes and snapshots it
has, its file is read back as the same plan. -/
theorem ofDocument?_document (p : RestorePlan) : ofDocument? p.document = some p := by
  have chars : (p.toValue.pretty ++ "\n").toList = p.toValue.prettyChars 0 ++ ['\n'] := by
    simp [Value.pretty]
  rw [ofDocument?, document, Node.ofBytes?, Text.Utf8.ofString, Text.Utf8.symbols_encode, chars,
    Node.ofSymbols?_pretty, Option.bind_some]
  exact p.reader_toValue

end RestorePlan
end Rehoming
