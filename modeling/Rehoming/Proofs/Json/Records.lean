import Mathlib.Data.List.Nodup
import Rehoming.Proofs.Json.Reading

/-! Open records: the members that a record knows, some of which may be left out, and the
others that it carries along. What is written is taken apart in the same two groups. -/

namespace Rehoming

open Json

/-- The other members of an open record: it knows none of their names, and their values
nest no deeper than readers allow. -/
structure NameMap.Foreign (names : List String) (depth : Nat) (others : NameMap Value) : Prop where
  unknown : ∀ e ∈ others.entries, e.1 ∉ names
  canonical : ∀ e ∈ others.entries, e.2.Canonical depth

theorem NameMap.foreign_empty (names : List String) (depth : Nat) :
    (empty : NameMap Value).Foreign names depth := ⟨nofun, nofun⟩

namespace Json

theorem lookup_map {α β : Type} (f : α → β) (name : String) (members : List (String × α)) :
    (members.map fun m => (m.1, f m.2)).lookup name = (members.lookup name).map f := by
  induction members with
  | nil => rfl
  | cons m rest ih =>
    rw [List.map_cons, List.lookup_cons, List.lookup_cons, ih]
    cases name == m.1 <;> rfl

theorem lookup_eq_none {α : Type} {name : String} {members : List (String × α)}
    (h : name ∉ members.map (·.1)) : members.lookup name = none := by
  rw [List.lookup_eq_none_iff]
  intro m hm
  rw [bne_iff_ne]
  rintro rfl
  exact h (List.mem_map.mpr ⟨m, hm, rfl⟩)

theorem lookup_of_mem {α : Type} {members : List (String × α)}
    (distinct : (members.map (·.1)).Nodup) {m : String × α} (h : m ∈ members) :
    members.lookup m.1 = some m.2 := by
  cases found : members.lookup m.1 with
  | none => simpa using List.lookup_eq_none_iff.mp found _ h
  | some other =>
    obtain ⟨before, after, split, -⟩ := List.lookup_eq_some_iff.mp found
    have there : (m.1, other) ∈ members := split ▸ by simp
    rw [← List.inj_on_of_nodup_map distinct there h rfl]

/-- The members that are there. -/
def present (members : List (String × Option Value)) : List (String × Value) :=
  members.filterMap fun m => m.2.map fun v => (m.1, v)

theorem present_append (front back : List (String × Option Value)) :
    present (front ++ back) = present front ++ present back := List.filterMap_append

theorem names_present (members : List (String × Option Value)) :
    ((present members).map (·.1)).Sublist (members.map (·.1)) := by
  induction members with
  | nil => exact .slnil
  | cons m rest ih =>
    obtain ⟨name, value⟩ := m
    cases value with
    | none => exact ih.cons name
    | some v => exact ih.cons_cons name

theorem lookup_present {members : List (String × Option Value)}
    (distinct : (members.map (·.1)).Nodup) (name : String) :
    (present members).lookup name = (members.lookup name).join := by
  induction members with
  | nil => rfl
  | cons m rest ih =>
    obtain ⟨first, value⟩ := m
    obtain ⟨fresh, others⟩ := List.nodup_cons.mp distinct
    rw [List.lookup_cons]
    cases same : name == first with
    | false =>
      cases value with
      | none => exact ih others
      | some v =>
        show List.lookup name ((first, v) :: present rest) = _
        rw [List.lookup_cons, same]
        exact ih others
    | true =>
      cases value with
      | none =>
        have absent : name ∉ (present rest).map (·.1) := by
          rw [beq_iff_eq.mp same]
          exact fun h => fresh ((names_present rest).mem h)
        exact lookup_eq_none absent
      | some v =>
        show List.lookup name ((first, v) :: present rest) = _
        rw [List.lookup_cons, same]
        rfl

/-- A list is read off an array, item by item. -/
theorem Reader.list_eq_some {α : Type} {read : Reader α} {depth : Nat} {node : Node} {xs : List α}
    (h : list read depth node = some xs) :
    ∃ inner items, depth = inner + 1 ∧ node = .array items ∧ items.mapM (read inner) = some xs := by
  cases depth with
  | zero => cases node <;> cases h
  | succ inner =>
    cases node with
    | array items => exact ⟨inner, items, rfl, rfl, h⟩
    | _ => cases h

theorem Reader.text_toNode (s : String) (depth : Nat) :
    text depth (Value.string s).toNode = some s := Token.decode?_escaped s

theorem Reader.list_again {α : Type} {read : Reader α} {toValue : α → Value} {depth : Nat}
    {xs : List α} (each : ∀ x ∈ xs, ∃ y, read depth (toValue x).toNode = some y) :
    ∃ ys, list read (depth + 1) (Value.array (xs.map toValue)).toNode = some ys := by
  rw [Value.toNode, Value.itemNodes_eq, List.map_map, list]
  refine exists_mapM_some fun node hn => ?_
  obtain ⟨x, hx, rfl⟩ := List.mem_map.mp hn
  exact each x hx

/-- A list is read off the array that it was written as, if its items are. -/
theorem Reader.list_toNode {α : Type} {read : Reader α} {toValue : α → Value} {depth : Nat}
    {xs : List α} (each : ∀ x ∈ xs, read depth (toValue x).toNode = some x) :
    list read (depth + 1) (Value.array (xs.map toValue)).toNode = some xs := by
  rw [Value.toNode, Value.itemNodes_eq, List.map_map, list]
  exact mapM_map_some each

namespace Fields

/-- The fields of a closed record that was written as this object. -/
def ofValue : Value → Fields
  | .object members => members.map fun m => (m.1, m.2.toNode)
  | _ => []

/-- **Closed records are taken apart as they were put together.** -/
theorem read_toNode (names : List String) {v : Value} {members : List (String × Value)}
    (object : v = .object members) (named : (ofValue v).map (·.1) = names)
    (distinct : names.Nodup) (depth : Nat) :
    read names (depth + 1) v.toNode = some (ofValue v) := by
  subst object
  have decoded : (Value.memberNodes members).mapM
      (fun m => (Token.decode? m.1).map fun name => (name, m.2)) =
        some (ofValue (.object members)) := by
    rw [Value.memberNodes_eq, ofValue, mapM_some_iff, List.forall₂_map_left_iff,
      List.forall₂_map_right_iff, List.forall₂_same]
    intro m _
    rw [Token.decode?_escaped]
    rfl
  have known : (ofValue (.object members)).filter (fun m => names.contains m.1) =
      ofValue (.object members) := by
    refine List.filter_eq_self.mpr fun m hm => ?_
    have : m.1 ∈ names := named ▸ List.mem_map_of_mem hm
    simpa using this
  have once : ((ofValue (.object members)).map (·.1)).Nodup := named ▸ distinct
  rw [Value.toNode, read, decoded, Option.bind_eq_bind, Option.bind_some, known, if_pos once]

/-- A field of a closed record is what is read off the value that was written for it. -/
theorem required_ofValue {α : Type} {members : List (String × Value)} {name : String} {v : Value}
    {a : α} (there : members.lookup name = some v) {depth : Nat} {read : Reader α}
    (back : read depth v.toNode = some a) :
    (ofValue (.object members)).required (depth + 1) name read = some a := by
  rw [required, ofValue, lookup_map, there]
  exact back

/-- The fields that are read off written members. -/
def written (members : List (String × Option Value)) : Fields :=
  (present members).map fun m => (m.1, m.2.toNode)

theorem lookup_written {members : List (String × Option Value)}
    (distinct : (members.map (·.1)).Nodup) (name : String) :
    (written members).lookup name = (members.lookup name).join.map Value.toNode := by
  rw [written, lookup_map, lookup_present distinct]

/-- Names first, then what belongs to the record, then what does not. -/
theorem readOpen_object (names : List String) (depth : Nat)
    (members : List (List Text.Symbol × Node)) :
    readOpen names (depth + 1) (.object members) =
      (members.mapM fun m => (Token.decode? m.1).map fun name => (name, m.2)).bind fun named =>
        ((named.filter fun m => !names.contains m.1).mapM fun m =>
            (Value.ofNode? depth m.2).map fun v => (m.1, v)).bind fun values =>
          if ((named.filter fun m => names.contains m.1).map (·.1)).Nodup then
            some (named.filter fun m => names.contains m.1, .ofList values)
          else none := by
  rw [readOpen]
  simp only [List.partition_eq_filter_filter]
  rfl

theorem readOpen_eq_some_iff {names : List String} {depth : Nat} {node : Node} {fields : Fields}
    {others : NameMap Value} :
    readOpen names depth node = some (fields, others) ↔ ∃ inner members named values,
      depth = inner + 1 ∧ node = .object members ∧
      (members.mapM fun m => (Token.decode? m.1).map fun name => (name, m.2)) = some named ∧
      ((named.filter fun m => !names.contains m.1).mapM fun m =>
        (Value.ofNode? inner m.2).map fun v => (m.1, v)) = some values ∧
      (fields.map (·.1)).Nodup ∧ fields = (named.filter fun m => names.contains m.1) ∧
      others = .ofList values := by
  constructor
  · intro h
    obtain _ | inner := depth
    · cases h
    cases node with
    | object members =>
      rw [readOpen_object] at h
      obtain ⟨named, decoded, h⟩ := Option.bind_eq_some_iff.mp h
      obtain ⟨values, read, h⟩ := Option.bind_eq_some_iff.mp h
      split at h
      · rename_i once
        cases h
        exact ⟨inner, members, named, values, rfl, rfl, decoded, read, once, rfl, rfl⟩
      · cases h
    | _ => cases h
  · rintro ⟨inner, members, named, values, rfl, rfl, decoded, read, once, rfl, rfl⟩
    rw [readOpen_object, decoded, Option.bind_some, read, Option.bind_some, if_pos once]

theorem readOpen_foreign {names : List String} {depth : Nat} {node : Node} {fields : Fields}
    {others : NameMap Value} (h : readOpen names (depth + 1) node = some (fields, others)) :
    others.Foreign names depth := by
  obtain ⟨inner, members, named, values, same, -, -, read, -, -, rfl⟩ := readOpen_eq_some_iff.mp h
  cases same
  have source {e : String × Value} (he : e ∈ (NameMap.ofList values).entries) :
      e.1 ∉ names ∧ ∃ node, Value.ofNode? depth node = some e.2 := by
    obtain ⟨m, hm, hv⟩ := mem_of_mapM_some read (NameMap.mem_ofList he)
    obtain ⟨v, read, rfl⟩ := Option.map_eq_some_iff.mp hv
    have unknown := (List.mem_filter.mp hm).2
    exact ⟨by simpa using unknown, m.2, read⟩
  refine ⟨fun e he => (source he).1, fun e he => ?_⟩
  obtain ⟨node, read⟩ := (source he).2
  exact Value.ofNode?_canonical read

/-- What is written is taken apart in the two groups it was put together from. -/
theorem readOpen_groups {names : List String} {depth : Nat}
    {members : List (String × Option Value)} {others : NameMap Value}
    (named : members.map (·.1) = names) (distinct : names.Nodup)
    (unknown : ∀ e ∈ others.entries, e.1 ∉ names) :
    readOpen names (depth + 1) (Value.object (present members ++ others.entries)).toNode =
      ((others.entries.map fun m => (m.1, m.2.toNode)).mapM fun m =>
          (Value.ofNode? depth m.2).map fun v => (m.1, v)).map fun values =>
        (written members, .ofList values) := by
  have own : ∀ m ∈ present members, m.1 ∈ names := by
    intro m hm
    rw [← named]
    exact (names_present members).mem (List.mem_map_of_mem hm)
  have decoded : (Value.memberNodes (present members ++ others.entries)).mapM
      (fun m => (Token.decode? m.1).map fun name => (name, m.2)) =
        some ((present members ++ others.entries).map fun m => (m.1, m.2.toNode)) := by
    rw [Value.memberNodes_eq, mapM_some_iff, List.forall₂_map_left_iff,
      List.forall₂_map_right_iff, List.forall₂_same]
    intro m _
    rw [Token.decode?_escaped]
    rfl
  have known : ((present members ++ others.entries).map fun m => (m.1, m.2.toNode)).filter
      (fun m => names.contains m.1) = written members := by
    rw [List.map_append, List.filter_append, List.filter_eq_self.mpr, List.filter_eq_nil_iff.mpr,
      List.append_nil]
    · rfl
    · intro m hm
      obtain ⟨e, he, rfl⟩ := List.mem_map.mp hm
      simpa using unknown e he
    · intro m hm
      obtain ⟨e, he, rfl⟩ := List.mem_map.mp hm
      simpa using own e he
  have carried : ((present members ++ others.entries).map fun m => (m.1, m.2.toNode)).filter
      (fun m => !names.contains m.1) = others.entries.map fun m => (m.1, m.2.toNode) := by
    rw [List.map_append, List.filter_append, List.filter_eq_nil_iff.mpr, List.filter_eq_self.mpr,
      List.nil_append]
    · intro m hm
      obtain ⟨e, he, rfl⟩ := List.mem_map.mp hm
      simpa using unknown e he
    · intro m hm
      obtain ⟨e, he, rfl⟩ := List.mem_map.mp hm
      simpa using own e he
  have once : ((written members).map (·.1)).Nodup := by
    rw [written, List.map_map]
    exact (named ▸ distinct).sublist (names_present members)
  rw [Value.toNode, readOpen_object, decoded, Option.bind_some, known, carried]
  simp only [if_pos once]
  exact Option.map_eq_bind.symm

/-- **Open records are taken apart as they were put together.** -/
theorem readOpen_written {names : List String} {depth : Nat}
    {members : List (String × Option Value)} {others : NameMap Value}
    (named : members.map (·.1) = names) (distinct : names.Nodup)
    (foreign : others.Foreign names depth)
    (integral : ∀ e ∈ others.entries, e.2.Integral) :
    readOpen names (depth + 1) (Value.object (present members ++ others.entries)).toNode =
      some (written members, others) := by
  have values : (others.entries.map fun m => (m.1, m.2.toNode)).mapM
      (fun m => (Value.ofNode? depth m.2).map fun v => (m.1, v)) = some others.entries := by
    refine mapM_map_some fun e he => ?_
    rw [Value.ofNode?_toNode (foreign.canonical e he) (integral e he)]
    rfl
  rw [readOpen_groups named distinct foreign.unknown, values, Option.map_some,
    NameMap.ofList_self]

/-- The fields are what they were, whatever numbers are in the other members. -/
theorem readOpen_again {names : List String} {depth : Nat}
    {members : List (String × Option Value)} {others : NameMap Value}
    (named : members.map (·.1) = names) (distinct : names.Nodup)
    (foreign : others.Foreign names depth) :
    ∃ again, readOpen names (depth + 1)
      (Value.object (present members ++ others.entries)).toNode =
        some (written members, again) := by
  have each : ∀ m ∈ others.entries.map fun m => (m.1, m.2.toNode),
      ∃ e, (Value.ofNode? depth m.2).map (fun v => (m.1, v)) = some e := by
    intro m hm
    obtain ⟨e, he, rfl⟩ := List.mem_map.mp hm
    obtain ⟨w, read⟩ := Value.ofNode?_again (foreign.canonical e he)
    exact ⟨_, by rw [read, Option.map_some]⟩
  obtain ⟨values, read⟩ := exists_mapM_some each
  exact ⟨.ofList values, by rw [readOpen_groups named distinct foreign.unknown, read]; rfl⟩

variable {α : Type} {members : List (String × Option Value)} {name : String}

/-- A field is what it is when not given, or what its reader gives. -/
theorem optional_eq_some {fields : Fields} {depth : Nat} {default a : α} {read : Reader α}
    (h : fields.optional depth name default read = some a) :
    a = default ∨ ∃ node, read (depth - 1) node = some a := by
  unfold optional at h
  split at h
  · exact .inr ⟨_, h⟩
  · exact .inl (Option.some.inj h).symm

theorem required_written (distinct : (members.map (·.1)).Nodup) {v : Value}
    (there : members.lookup name = some (some v)) (depth : Nat) (read : Reader α) :
    (written members).required depth name read = read (depth - 1) v.toNode := by
  rw [required, lookup_written distinct, there]
  rfl

theorem optional_written (distinct : (members.map (·.1)).Nodup) {v : Value}
    (there : members.lookup name = some (some v)) (depth : Nat) (default : α) (read : Reader α) :
    (written members).optional depth name default read = read (depth - 1) v.toNode := by
  rw [optional, lookup_written distinct, there]
  rfl

theorem optional_absent (distinct : (members.map (·.1)).Nodup)
    (absent : members.lookup name = some none) (depth : Nat) (default : α) (read : Reader α) :
    (written members).optional depth name default read = some default := by
  rw [optional, lookup_written distinct, absent]
  rfl

/-- A field that is left out where it has its default is read back. -/
theorem optional_unless (toValue : α → Value) {default a : α} {read : Reader α} {depth : Nat}
    (distinct : (members.map (·.1)).Nodup)
    (there : members.lookup name = some ((some (toValue a)).filter (· ≠ toValue default)))
    (faithful : toValue a = toValue default → a = default)
    (back : read (depth - 1) (toValue a).toNode = some a) :
    (written members).optional depth name default read = some a := by
  by_cases same : toValue a = toValue default
  · have absent : members.lookup name = some none := by simpa [Option.filter, same] using there
    rw [optional_absent distinct absent, faithful same]
  · have given : members.lookup name = some (some (toValue a)) := by
      simpa [Option.filter, same] using there
    rw [optional_written distinct given, back]

end Fields
end Json
end Rehoming
