import Rehoming.Bundle
import Rehoming.Proofs.Documents.Brigades
import Rehoming.Proofs.Documents.Mappings
import Rehoming.Proofs.Times.Texts

/-! Reservations and bundles survive as compact documents. A reservation is made of texts and
addresses, and always does. A bundle has times and a number in it as well. Main statement: a bundle
is read back if and only if these are such as a document can give. -/

namespace Rehoming

open Json

/-! ## Fields -/

namespace Json

theorem Node.ofBytes?_compact (v : Value) :
    ofBytes? (Text.Utf8.ofString v.compact) = some v.toNode := by
  have chars : v.compact.toList = v.compactChars := by simp [Value.compact]
  rw [ofBytes?, Text.Utf8.ofString, Text.Utf8.symbols_encode, chars, ofSymbols?_compact]

/-- A number of 64 bits is read off what is written for it. -/
theorem Reader.nat64_toNode {n : Nat} (h : n < UInt64.size) (depth : Nat) :
    nat64 depth (Value.number (.int n)).toNode = some n := by
  have high : (n : Int) ≤ UInt64.size - 1 := by omega
  have integral : (Number.int n).Integral := by
    unfold UInt64.size at h
    exact ⟨by omega, by omega⟩
  have read : intWithin 0 (UInt64.size - 1) depth (.numeral (Text.Decimal.ofInt n)) =
      some (n : Int) := by
    rw [intWithin, Numeral.int?, Numeral.number?_ofInt integral]
    exact if_pos ⟨Int.natCast_nonneg n, high⟩
  exact congrArg (Option.map Int.toNat) read

theorem Reader.nat64_lt {n depth : Nat} {node : Node} (h : nat64 depth node = some n) :
    n < UInt64.size := by
  obtain ⟨i, read, rfl⟩ := Option.map_eq_some_iff.mp h
  unfold intWithin at read
  split at read
  · split at read
    · split at read
      · cases read
        omega
      · cases read
    · cases read
  · cases read

namespace Fields

variable {α : Type} {fields : Fields} {depth : Nat}

/-- A field that was given is what its reader gives. -/
theorem optional_given {name : String} {v : Value} {a default : α} {read : Reader α}
    (there : fields.lookup name = some v.toNode) (back : read (depth - 1) v.toNode = some a) :
    fields.optional depth name default read = some a := by
  rw [optional, there]
  exact back

theorem optional_text (v : Value) (name : String) {s : String}
    (there : (ofValue v).lookup name = some (Value.string s).toNode) :
    (ofValue v).optional depth name "" Reader.text = some s :=
  optional_given there (Reader.text_toNode s _)

end Fields
end Json

namespace Timestamp

theorem reader_toValue {t : Timestamp} (h : t.Valid) (depth : Nat) :
    reader depth t.toValue.toNode = some t := by
  have text : Reader.text depth t.toValue.toNode = some t.toText := Reader.text_toNode _ depth
  rw [reader, Reader.parsed, text, Option.bind_some, h.ofText?_toText]

theorem optional_time (v : Value) (name : String) {depth : Nat} {t : Timestamp} (h : t.Valid)
    (there : (Fields.ofValue v).lookup name = some t.toValue.toNode) :
    (Fields.ofValue v).optional depth name .epoch reader = some t :=
  Fields.optional_given there (reader_toValue h _)

theorem optional_valid {fields : Fields} {depth : Nat} {name : String} {t : Timestamp}
    (h : fields.optional depth name .epoch reader = some t) : t.Valid := by
  rcases Fields.optional_eq_some h with rfl | ⟨node, read⟩
  · decide
  · obtain ⟨text, -, parsed⟩ := Option.bind_eq_some_iff.mp read
    exact ofText?_valid parsed

end Timestamp

/-! ## Reservations -/

namespace ReservedNode

theorem reader_toValue (n : ReservedNode) (depth : Nat) :
    reader (depth + 2) n.toValue.toNode = some n := by
  have record : Fields.read fieldNames (depth + 2) n.toValue.toNode =
      some (Fields.ofValue n.toValue) :=
    Fields.read_toNode fieldNames rfl rfl (by decide) (depth + 1)
  have slots : (Fields.ofValue n.toValue).optional (depth + 2) "slots" []
      (Reader.list Ipv4.reader) = some n.slots :=
    Fields.optional_given rfl (Reader.list_toNode fun ip _ => Brigade.address_reader ip depth)
  simp only [reader, record, Fields.optional_text n.toValue "control_ip" rfl,
    Fields.optional_text n.toValue "router_public_key" rfl, slots, Option.bind_eq_bind,
    Option.bind_some]

end ReservedNode

namespace Reservation

theorem reader_toValue (r : Reservation) : Reader.run reader r.toValue.toNode = some r := by
  have record : Fields.read fieldNames Reader.maxDepth r.toValue.toNode =
      some (Fields.ofValue r.toValue) :=
    Fields.read_toNode fieldNames rfl rfl (by decide) 126
  have nodes : (Fields.ofValue r.toValue).optional Reader.maxDepth "plan" []
      (Reader.list ReservedNode.reader) = some r.nodes :=
    Fields.optional_given rfl (Reader.list_toNode fun n _ => n.reader_toValue 123)
  simp only [Reader.run, reader, record, Fields.optional_text r.toValue "reservation_id" rfl, nodes,
    Option.bind_eq_bind, Option.bind_some]

/-- What the file of a reservation holds. -/
def document (r : Reservation) : Bytes := Text.Utf8.ofString r.toValue.compact

/-- The reservation that a file with this content holds. -/
def ofDocument? (content : Bytes) : Option Reservation :=
  (Json.Node.ofBytes? content).bind (Reader.run reader)

theorem ofDocument?_document (r : Reservation) : ofDocument? r.document = some r := by
  rw [ofDocument?, document, Node.ofBytes?_compact, Option.bind_some]
  exact r.reader_toValue

end Reservation

/-! ## Bundles -/

namespace Envelope

/-- Its times are such as a text can give. -/
structure Valid (e : Envelope) : Prop where
  globalTime : e.globalTime.Valid
  localTime : e.localTime.Valid

theorem reader_toValue {e : Envelope} (h : e.Valid) (depth : Nat) :
    reader (depth + 2) e.toValue.toNode = some e := by
  have record : Fields.read fieldNames (depth + 2) e.toValue.toNode =
      some (Fields.ofValue e.toValue) :=
    Fields.read_toNode fieldNames rfl rfl (by decide) (depth + 1)
  have shares : (Fields.ofValue e.toValue).optional (depth + 2) "secrets" .empty
      (Reader.nameMap Reader.text) = some e.shares :=
    Fields.optional_given rfl (Reader.nameMap_toNode (Reader.text_toNode · _) e.shares)
  simp only [reader, record, Fields.optional_text e.toValue "brigade_id" rfl,
    Fields.optional_text e.toValue "tag" rfl,
    Timestamp.optional_time e.toValue "global_snapshot_time" h.globalTime rfl,
    Timestamp.optional_time e.toValue "local_snapshot_time" h.localTime rfl,
    Fields.optional_text e.toValue "realm_key_fingerprint" rfl,
    Fields.optional_text e.toValue "authority_key_fingerprint" rfl,
    Fields.optional_text e.toValue "encrypted_locker_secret" rfl, shares,
    Fields.optional_text e.toValue "payload" rfl, Option.bind_eq_bind, Option.bind_some]

theorem reader_valid {e : Envelope} {depth : Nat} {node : Json.Node}
    (h : reader depth node = some e) : e.Valid := by
  obtain ⟨fields, -, h⟩ := Option.bind_eq_some_iff.mp h
  obtain ⟨brigadeId, -, h⟩ := Option.bind_eq_some_iff.mp h
  obtain ⟨tag, -, h⟩ := Option.bind_eq_some_iff.mp h
  obtain ⟨globalTime, globally, h⟩ := Option.bind_eq_some_iff.mp h
  obtain ⟨localTime, locally, h⟩ := Option.bind_eq_some_iff.mp h
  obtain ⟨realm, -, h⟩ := Option.bind_eq_some_iff.mp h
  obtain ⟨authority, -, h⟩ := Option.bind_eq_some_iff.mp h
  obtain ⟨locker, -, h⟩ := Option.bind_eq_some_iff.mp h
  obtain ⟨shares, -, h⟩ := Option.bind_eq_some_iff.mp h
  obtain ⟨payload, -, h⟩ := Option.bind_eq_some_iff.mp h
  cases h
  exact ⟨Timestamp.optional_valid globally, Timestamp.optional_valid locally⟩

end Envelope

namespace Bundle

/-- What a document can give: a count of 64 bits, and times that have a text. -/
structure Valid (b : Bundle) : Prop where
  updateTime : b.updateTime.Valid
  globalTime : b.globalTime.Valid
  errorsCount : b.errorsCount < UInt64.size
  envelopes : ∀ e ∈ b.envelopes, e.Valid

theorem reader_toValue {b : Bundle} (h : b.Valid) :
    Reader.run reader b.toValue.toNode = some b := by
  have record : Fields.read fieldNames Reader.maxDepth b.toValue.toNode =
      some (Fields.ofValue b.toValue) :=
    Fields.read_toNode fieldNames rfl rfl (by decide) 126
  have errors : (Fields.ofValue b.toValue).optional Reader.maxDepth "errors_count" 0
      Reader.nat64 = some b.errorsCount :=
    Fields.optional_given rfl (Reader.nat64_toNode h.errorsCount _)
  have envelopes : (Fields.ofValue b.toValue).optional Reader.maxDepth "snapshots" []
      (Reader.list Envelope.reader) = some b.envelopes :=
    Fields.optional_given rfl
      (Reader.list_toNode fun e he => Envelope.reader_toValue (h.envelopes e he) 123)
  simp only [Reader.run, reader, record,
    Timestamp.optional_time b.toValue "update_time" h.updateTime rfl,
    Timestamp.optional_time b.toValue "global_snapshot_time" h.globalTime rfl,
    Fields.optional_text b.toValue "tag" rfl, Fields.optional_text b.toValue "datacenter_id" rfl,
    Fields.optional_text b.toValue "realm_key_fingerprint" rfl,
    Fields.optional_text b.toValue "authority_key_fingerprint" rfl,
    Fields.optional_text b.toValue "encrypted_preshared_secret" rfl, errors, envelopes,
    Option.bind_eq_bind, Option.bind_some]

theorem reader_valid {b : Bundle} {node : Json.Node} (h : Reader.run reader node = some b) :
    b.Valid := by
  obtain ⟨fields, -, h⟩ := Option.bind_eq_some_iff.mp h
  obtain ⟨updateTime, updated, h⟩ := Option.bind_eq_some_iff.mp h
  obtain ⟨globalTime, globally, h⟩ := Option.bind_eq_some_iff.mp h
  obtain ⟨tag, -, h⟩ := Option.bind_eq_some_iff.mp h
  obtain ⟨datacenter, -, h⟩ := Option.bind_eq_some_iff.mp h
  obtain ⟨realm, -, h⟩ := Option.bind_eq_some_iff.mp h
  obtain ⟨authority, -, h⟩ := Option.bind_eq_some_iff.mp h
  obtain ⟨shared, -, h⟩ := Option.bind_eq_some_iff.mp h
  obtain ⟨errors, counted, h⟩ := Option.bind_eq_some_iff.mp h
  obtain ⟨envelopes, listed, h⟩ := Option.bind_eq_some_iff.mp h
  cases h
  refine ⟨Timestamp.optional_valid updated, Timestamp.optional_valid globally, ?_, fun e he => ?_⟩
  · rcases Fields.optional_eq_some counted with rfl | ⟨node, read⟩
    · exact (by decide : 0 < UInt64.size)
    · exact Reader.nat64_lt read
  · rcases Fields.optional_eq_some listed with rfl | ⟨node, read⟩
    · cases he
    · obtain ⟨inner, items, -, -, made⟩ := Reader.list_eq_some read
      obtain ⟨item, -, made⟩ := mem_of_mapM_some made he
      exact Envelope.reader_valid made

/-- What the file of a bundle holds. -/
def document (b : Bundle) : Bytes := Text.Utf8.ofString b.toValue.compact

/-- The bundle that a file with this content holds. -/
def ofDocument? (content : Bytes) : Option Bundle :=
  (Json.Node.ofBytes? content).bind (Reader.run reader)

/-- **Bundles are read back** off their documents if there is any document at all that gives them,
and not otherwise. -/
theorem ofDocument?_document_iff {b : Bundle} : ofDocument? b.document = some b ↔ b.Valid := by
  rw [ofDocument?, document, Node.ofBytes?_compact, Option.bind_some]
  exact ⟨reader_valid, reader_toValue⟩

end Bundle
end Rehoming
