import Rehoming.Proofs.Json.Integers
import Rehoming.Proofs.Restore.Resealing

/-! Brigades survive being written and read, again and again. Main statement: a brigade that comes
from a document in which all numbers are integers is written as a document that gives the same
brigade, and so is whatever becomes of it when it is sanitized or its secrets are resealed. -/

namespace Rehoming

open Json

/-! ## What comes from a document -/

theorem Quota.reader_integral {depth : Nat} {node : Json.Node} {q : Quota}
    (integral : node.Integral) (h : reader depth node = some q) : q.Integral := by
  obtain ⟨fields, record, -⟩ := reader_eq_some_iff.mp h
  exact (Fields.readOpen_integral integral record).2

theorem User.reader_integral {depth : Nat} {node : Json.Node} {u : User} (integral : node.Integral)
    (h : reader depth node = some u) : u.Integral := by
  obtain ⟨fields, record, given⟩ := reader_eq_some_iff.mp h
  obtain ⟨own, rest⟩ := Fields.readOpen_integral integral record
  have none : Quota.empty.Integral := fun _ he => absurd he List.not_mem_nil
  exact ⟨Fields.optional_integral own none (fun _ _ => Quota.reader_integral) given.quota, rest⟩

namespace Brigade

theorem reader_integral {depth : Nat} {node : Json.Node} {b : Brigade} (integral : node.Integral)
    (h : reader depth node = some b) : b.Integral := by
  obtain ⟨fields, record, given⟩ := reader_eq_some_iff.mp h
  obtain ⟨own, rest⟩ := Fields.readOpen_integral integral record
  have kept {name : String} {v : Value}
      (given : fields.optional depth name .null Reader.value = some v) : v.Integral :=
    Fields.optional_integral own .null (fun _ _ h => Value.ofNode?_integral h) given
  have each : ∀ u ∈ b.users, u.Integral := by
    have none : ∀ u ∈ ([] : List User), u.Integral := fun _ hu => absurd hu List.not_mem_nil
    refine Fields.optional_integral (p := fun users : List User => ∀ u ∈ users, u.Integral) own
      none (fun node users integral read => ?_) given.users
    obtain ⟨inner, items, -, rfl, made⟩ := Reader.list_eq_some read
    cases integral with
    | array all =>
      intro u hu
      obtain ⟨item, there, made⟩ := mem_of_mapM_some made hu
      exact User.reader_integral (all item there) made
  exact ⟨kept given.counters, kept given.countersStack, kept given.endpoints, each, rest⟩

/-! ## What is written -/

/-- The document of a brigade gives the same brigade. Written once more, it has the same bytes. -/
structure Survives (b : Brigade) : Prop where
  readBack : ofBytes? b.toBytes = some b
  sameBytes : (ofBytes? b.toBytes).map toBytes = some b.toBytes

theorem Canonical.survives {b : Brigade} (h : b.Canonical) (integral : b.Integral) :
    b.Survives where
  readBack := ofBytes?_toBytes h integral
  sameBytes := by rw [ofBytes?_toBytes h integral, Option.map_some]

/-- **Brigades survive being written and read.** Take any document that is read as a brigade, with
no other numbers in it than integers of 64 bits. The brigade survives, and so does what becomes of
it when it is sanitized, or when a resealer, whatever its answers are, has dealt with all its
secrets. -/
theorem survives_of_read {document : Bytes} {tree : Json.Node}
    (parsed : Json.Node.ofBytes? document = some tree) (integral : tree.Integral) {b : Brigade}
    (read : ofBytes? document = some b) :
    b.Survives ∧ b.sanitize.Survives ∧
      ∀ (f : Resealer) (slot : Ipv4) (c : Brigade), (b.recode f slot).result = .ok c →
        c.Survives := by
  have canonical : b.Canonical := ofBytes?_canonical read
  have own : b.Integral := by
    rw [ofBytes?, parsed, Option.bind_some] at read
    exact reader_integral integral read
  refine ⟨canonical.survives own, (sanitize_canonical canonical).survives (sanitize_integral own),
    fun f slot c recoded => ?_⟩
  have answers : f.Sound fun _ _ => True := fun _ _ _ _ => trivial
  have resealed := recode_resealed answers recoded
  exact (resealed.canonical canonical).survives (resealed.integral own)

/-- A document out of order, where names stand at levels that do not know them, one is given twice,
a ciphertext is empty and a counter null. -/
def crowded (endpoints : List (String × Value)) : Value :=
  .object [
    ("users", .array [.object [
      ("zone", .array [.object [("b", .number (.int 1)), ("a", .number (.int (-2)))]]),
      ("quotas", .object [("used", .number (.int 18446744073709551615)),
        ("users", .null), ("ver", .number (.int 3))]),
      ("wg_psk_shuffler_enc", .string ""), ("ver", .bool true)]]),
    ("endpoint_ipv4", .string "10.0.0.7"), ("stats_counters_stack", .null),
    ("wg_psk_router_enc", .string "kept"), ("zone", .string "first"),
    ("brigade_id", .string "b\"1"), ("endpoints", .object endpoints), ("zone", .string "last")]

def crowdedDocument (endpoints : List (String × Value)) : Bytes :=
  Text.Utf8.encode (crowded endpoints).compactChars

theorem crowded_integral {endpoints : List (String × Value)}
    (h : ∀ m ∈ endpoints, m.2.Integral) : (crowded endpoints).Integral := by
  simp only [crowded, Value.integral_object, Value.integral_array, List.forall_mem_cons]
  simpa [Number.Integral] using h

theorem crowdedDocument_parsed (endpoints : List (String × Value)) :
    Json.Node.ofBytes? (crowdedDocument endpoints) = some (crowded endpoints).toNode := by
  rw [crowdedDocument, Json.Node.ofBytes?, Text.Utf8.symbols_encode,
    Json.Node.ofSymbols?_compact]

theorem survives_of_read_crowded :
    ∃ tree b, Json.Node.ofBytes? (crowdedDocument [("z", .array []), ("a", .null)]) = some tree ∧
      tree.Integral ∧ ofBytes? (crowdedDocument [("z", .array []), ("a", .null)]) = some b ∧
      b.Survives ∧ b.sanitize.Survives ∧
      ∀ (f : Resealer) (slot : Ipv4) (c : Brigade), (b.recode f slot).result = .ok c →
        c.Survives := by
  have plain : ∀ m ∈ [("z", Value.array []), ("a", Value.null)], m.2.Integral := by simp
  have parsed := crowdedDocument_parsed [("z", .array []), ("a", .null)]
  have integral := Value.toNode_integral (crowded_integral plain)
  have accepted : (ofBytes? (crowdedDocument [("z", .array []), ("a", .null)])).isSome = true := by
    decide +kernel
  obtain ⟨b, read⟩ := Option.isSome_iff_exists.mp accepted
  exact ⟨_, b, parsed, integral, read, survives_of_read parsed integral read⟩

end Brigade
end Rehoming
