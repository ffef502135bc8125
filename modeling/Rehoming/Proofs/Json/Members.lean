import Rehoming.Proofs.Json.Records

/-! The members of objects, by their names. Documents are compared through them: the last of several
of one name counts, and their order does not matter. What an open record reads off an object is
related to what the object has, name by name. -/

namespace Rehoming

/-! ## Maps made of lists -/

namespace NameMap

variable {α : Type}

theorem lookup_put (name : String) (value : α) (entries : List (String × α)) (other : String) :
    (put name value entries).lookup other =
      if other == name then some value else entries.lookup other := by
  induction entries with
  | nil =>
    rw [put, List.lookup_cons]
    cases other == name <;> rfl
  | cons first rest ih =>
    rw [put]
    split
    · rw [List.lookup_cons]
      cases other == name <;> rfl
    · split
      · rename_i same
        rw [List.lookup_cons, List.lookup_cons, ← same]
        cases other == name <;> rfl
      · rename_i apart
        rw [List.lookup_cons, List.lookup_cons, ih]
        cases found : other == first.1 with
        | false => rfl
        | true =>
          have elsewhere : (other == name) = false := by
            rw [beq_iff_eq.mp found]
            exact beq_eq_false_iff_ne.mpr (Ne.symm apart)
          rw [elsewhere]
          rfl

/-- The last of several entries of one name counts. -/
theorem get?_ofList (entries : List (String × α)) (name : String) :
    (ofList entries).get? name = entries.reverse.lookup name := by
  have run : ∀ (rest : List (String × α)) (m : NameMap α),
      (rest.foldl (fun m e => m.insert e.1 e.2) m).get? name =
        (rest.reverse.lookup name).or (m.get? name) := by
    intro rest
    induction rest with
    | nil => exact fun m => rfl
    | cons e rest ih =>
      intro m
      have put : (m.insert e.1 e.2).get? name = ([e].lookup name).or (m.get? name) := by
        rw [get?, insert, lookup_put, List.lookup_cons]
        cases name == e.1 <;> rfl
      rw [List.foldl_cons, ih, put, List.reverse_cons, List.lookup_append, Option.or_assoc]
  rw [ofList, run]
  exact Option.or_none

theorem put_perm {name : String} {entries : List (String × α)}
    (fresh : name ∉ entries.map (·.1)) (value : α) :
    (put name value entries).Perm ((name, value) :: entries) := by
  induction entries with
  | nil => exact .refl _
  | cons first rest ih =>
    obtain ⟨other, apart⟩ := not_or.mp (mt List.mem_cons.mpr fresh)
    rw [put, if_neg (show ¬ name = first.1 from other)]
    split
    · exact .refl _
    · exact ((ih apart).cons first).trans (.swap _ _ _)

/-- Where all names differ, a map is made of nothing but what it is given. -/
theorem ofList_perm {entries : List (String × α)} (distinct : (entries.map (·.1)).Nodup) :
    (ofList entries).entries.Perm entries := by
  have run : ∀ (rest : List (String × α)) (m : NameMap α),
      ((m.entries ++ rest).map (·.1)).Nodup →
        (rest.foldl (fun m e => m.insert e.1 e.2) m).entries.Perm (m.entries ++ rest) := by
    intro rest
    induction rest with
    | nil => exact fun m _ => by rw [List.append_nil]; exact .refl _
    | cons e rest ih =>
      intro m distinct
      have moved : (m.entries ++ e :: rest).Perm (e :: (m.entries ++ rest)) := List.perm_middle
      have fresh : e.1 ∉ m.entries.map (·.1) := by
        have names := (moved.map (·.1)).nodup_iff.mp distinct
        rw [List.map_cons, List.map_append] at names
        exact fun there => (List.nodup_cons.mp names).1 (List.mem_append_left _ there)
      have put : (m.insert e.1 e.2).entries.Perm (e :: m.entries) := put_perm fresh e.2
      have next : ((m.insert e.1 e.2).entries ++ rest).Perm (m.entries ++ e :: rest) :=
        (put.append_right rest).trans moved.symm
      exact (ih _ ((next.map (·.1)).nodup_iff.mpr distinct)).trans next
  exact run entries empty distinct

theorem ofList_congr {xs ys : List (String × α)} (order : xs.Perm ys)
    (distinct : (xs.map (·.1)).Nodup) : ofList xs = ofList ys := by
  have same : (ofList xs).entries.Perm (ofList ys).entries :=
    (ofList_perm distinct).trans
      (order.trans (ofList_perm ((order.map _).nodup_iff.mp distinct)).symm)
  have entries : (ofList xs).entries = (ofList ys).entries :=
    same.eq_of_pairwise (fun a b _ _ lt gt => absurd gt (String.lt_asymm lt)) (ofList xs).ordered
      (ofList ys).ordered
  cases left : ofList xs
  cases right : ofList ys
  rw [left, right] at entries
  cases entries
  rfl

theorem names_nodup (m : NameMap α) : (m.entries.map (·.1)).Nodup := by
  refine List.pairwise_map.mpr (m.ordered.imp fun {a b} before same => ?_)
  rw [same] at before
  exact String.lt_irrefl _ before

theorem get?_of_mem {m : NameMap α} {name : String} {value : α}
    (h : (name, value) ∈ m.entries) : m.get? name = some value :=
  Json.lookup_of_mem m.names_nodup h

theorem filter_eq_self {m : NameMap α} {p : String → Bool}
    (h : ∀ e ∈ m.entries, p e.1 = true) : m.filter p = m := by
  obtain ⟨entries, ordered⟩ := m
  simp only [filter, mk.injEq]
  exact List.filter_eq_self.mpr h

end NameMap

namespace Json

/-! ## Lists of members -/

section Members

variable {α β : Type}

/-- What is found does not depend on the order of members with different names. -/
theorem lookup_perm {xs ys : List (String × α)} (h : xs.Perm ys)
    (distinct : (xs.map (·.1)).Nodup) (name : String) : ys.lookup name = xs.lookup name := by
  induction h with
  | nil => rfl
  | cons x _ ih =>
    rw [List.lookup_cons, List.lookup_cons, ih (List.nodup_cons.mp distinct).2]
  | swap x y rest =>
    have apart : y.1 ≠ x.1 := fun same =>
      (List.nodup_cons.mp distinct).1 (List.mem_cons.mpr (.inl same))
    rw [List.lookup_cons, List.lookup_cons, List.lookup_cons, List.lookup_cons]
    cases first : name == x.1 with
    | false => rfl
    | true =>
      have second : (name == y.1) = false := by
        rw [beq_iff_eq.mp first]
        exact beq_eq_false_iff_ne.mpr apart.symm
      rw [second]
  | trans first _ ih ih' =>
    rw [ih' ((first.map _).nodup_iff.mp distinct), ih distinct]

/-- Members of other names are not looked at. -/
theorem lookup_filter {p : String → Bool} {name : String} (h : p name = true)
    (entries : List (String × α)) :
    (entries.filter fun e => p e.1).lookup name = entries.lookup name := by
  induction entries with
  | nil => rfl
  | cons e rest ih =>
    rw [List.lookup_cons, List.filter_cons]
    cases same : name == e.1 with
    | false =>
      split
      · rw [List.lookup_cons, same, ih]
      · exact ih
    | true =>
      have kept : p e.1 = true := by rw [← beq_iff_eq.mp same, h]
      rw [if_pos kept, List.lookup_cons, same]

/-- Where each member keeps its name, what is found comes from what is found. -/
theorem lookup_of_mapM {f : α → Option β} {xs : List (String × α)} {ys : List (String × β)}
    (h : (xs.mapM fun e => (f e.2).map fun b => (e.1, b)) = some ys) (name : String) :
    ys.lookup name = (xs.lookup name).bind f := by
  replace h := mapM_some_iff.mp h
  induction h with
  | nil => rfl
  | cons here _ ih =>
    rename_i x y xs ys _
    obtain ⟨b, found, rfl⟩ := Option.map_eq_some_iff.mp here
    rw [List.lookup_cons, List.lookup_cons]
    cases name == x.1 with
    | false => exact ih
    | true => exact found.symm

theorem names_of_mapM {f : α → Option β} {xs : List (String × α)} {ys : List (String × β)}
    (h : (xs.mapM fun e => (f e.2).map fun b => (e.1, b)) = some ys) :
    ys.map (·.1) = xs.map (·.1) := by
  replace h := mapM_some_iff.mp h
  induction h with
  | nil => rfl
  | cons here _ ih =>
    obtain ⟨b, -, rfl⟩ := Option.map_eq_some_iff.mp here
    rw [List.map_cons, List.map_cons, ih]

end Members

/-! ## Plain values -/

namespace Value

/-- What an object has under a name. -/
def get? : Value → String → Option Value
  | .object members, name => members.lookup name
  | _, _ => none

/-- What a document says, whatever it is about. -/
def ofBytes? (document : Bytes) : Option Value :=
  (Node.ofBytes? document).bind (Reader.run Reader.value)

/-- An object has what its members are read as: first their names, then what they are. -/
theorem ofNode?_object_iff {depth : Nat} {members : List (List Text.Symbol × Node)} {v : Value} :
    ofNode? (depth + 1) (.object members) = some v ↔ ∃ named values,
      (members.mapM fun m => (Token.decode? m.1).map fun name => (name, m.2)) = some named ∧
      (named.mapM fun m => (ofNode? depth m.2).map fun v => (m.1, v)) = some values ∧
      v = .object (NameMap.ofList values).entries := by
  have both : (fun m : List Text.Symbol × Node => do
      let name ← Token.decode? m.1
      let value ← ofNode? depth m.2
      some (name, value)) = fun m =>
        ((Token.decode? m.1).map fun name => (name, m.2)).bind
          fun m => (ofNode? depth m.2).map fun v => (m.1, v) := by
    funext m
    cases Token.decode? m.1 with
    | none => rfl
    | some name => exact Option.map_eq_bind.symm
  rw [ofNode?, both]
  constructor
  · intro h
    obtain ⟨values, made, h⟩ := Option.bind_eq_some_iff.mp h
    obtain ⟨named, decoded, read⟩ := mapM_bind_some_iff.mp made
    exact ⟨named, values, decoded, read, (Option.some.inj h).symm⟩
  · rintro ⟨named, values, decoded, read, rfl⟩
    rw [mapM_bind_some_iff.mpr ⟨named, decoded, read⟩]
    rfl

end Value

/-! ## Open records -/

namespace Fields

/-- What a field is given as, or that it is left out. -/
def Given (fields : Fields) (depth : Nat) (name : String) (x : Option Value) : Prop :=
  (fields.lookup name).map (Value.ofNode? depth) = x.map some

theorem Given.bind_eq {fields : Fields} {depth : Nat} {name : String} {x : Option Value}
    (h : fields.Given depth name x) : (fields.lookup name).bind (Value.ofNode? depth) = x := by
  rw [Given] at h
  cases found : fields.lookup name with
  | none =>
    rw [found] at h
    cases x with
    | none => rfl
    | some v => cases h
  | some node =>
    rw [found] at h
    cases x with
    | none => cases h
    | some v => exact Option.some.inj h

/-- **An object has what a record reads off it.** Under the names of the record it has what the
fields are given as, under all other names what the record carries along. -/
theorem readOpen_plain {names : List String} {depth : Nat} {node : Node} {fields : Fields}
    {others : NameMap Value} (h : readOpen names (depth + 1) node = some (fields, others))
    (own : ∀ name ∈ names, ∃ x, fields.Given depth name x) :
    ∃ v, Value.ofNode? (depth + 1) node = some v ∧
      (∀ name, name ∉ names → v.get? name = others.get? name) ∧
      ∀ name ∈ names, fields.Given depth name (v.get? name) := by
  obtain ⟨inner, members, named, values, same, rfl, decoded, read, distinct, rfl, rfl⟩ :=
    readOpen_eq_some_iff.mp h
  cases same
  have each : ∀ m ∈ named, ∃ e, ((Value.ofNode? depth m.2).map fun v => (m.1, v)) = some e := by
    intro m hm
    by_cases known : m.1 ∈ names
    · have there : m ∈ named.filter fun m => names.contains m.1 :=
        List.mem_filter.mpr ⟨hm, List.contains_iff_mem.mpr known⟩
      obtain ⟨x, given⟩ := own m.1 known
      rw [Given, lookup_of_mem distinct there] at given
      cases x with
      | none => cases given
      | some v => exact ⟨(m.1, v), by rw [Option.some.inj given]; rfl⟩
    · have there : m ∈ named.filter fun m => !names.contains m.1 :=
        List.mem_filter.mpr ⟨hm, by simpa using known⟩
      obtain ⟨e, -, made⟩ := exists_of_mem_left (mapM_some_iff.mp read) there
      exact ⟨e, made⟩
  obtain ⟨all, whole⟩ := exists_mapM_some each
  have under (name : String) : (Value.object (NameMap.ofList all).entries).get? name =
      all.reverse.lookup name := NameMap.get?_ofList all name
  -- what is read of some of the members is what is read of all, less the others
  have part (p : String → Bool) : ((named.filter fun m => p m.1).mapM fun m =>
      (Value.ofNode? depth m.2).map fun v => (m.1, v)) = some (all.filter fun e => p e.1) :=
    mapM_filter_some whole fun m e made => by
      obtain ⟨v, -, rfl⟩ := Option.map_eq_some_iff.mp made
      rfl
  refine ⟨_, Value.ofNode?_object_iff.mpr ⟨named, all, decoded, whole, rfl⟩, fun name unknown => ?_,
    fun name known => ?_⟩
  · cases read.symm.trans (part fun n => !names.contains n)
    rw [under, NameMap.get?_ofList, ← List.filter_reverse,
      lookup_filter (p := fun n => !names.contains n) (by simpa using unknown)]
  · have mine := part fun n => names.contains n
    have once : ((all.filter fun e => names.contains e.1).map (·.1)).Nodup := by
      rw [names_of_mapM mine]
      exact distinct
    obtain ⟨x, given⟩ := own name known
    rw [under, ← lookup_filter (p := fun n => names.contains n) (by simpa using known),
      List.filter_reverse, lookup_perm (List.reverse_perm _).symm once,
      lookup_of_mapM mine, given.bind_eq]
    exact given

theorem Given.unique {fields : Fields} {depth : Nat} {name : String} {x y : Option Value}
    (h : fields.Given depth name x) (h' : fields.Given depth name y) : x = y :=
  h.bind_eq.symm.trans h'.bind_eq

/-- A field of one record and the field of the same name of another: what they are given as is
related. -/
def Related (fields other : Fields) (depth : Nat) (name : String)
    (r : Option Value → Option Value → Prop) : Prop :=
  ∃ x y, fields.Given depth name x ∧ other.Given depth name y ∧ r x y

/-- **Two objects that give the same members to carry along.** Under the names that the record does
not know they have the same; under the others what is related for the fields. -/
theorem readOpen_related {names : List String} {depth : Nat} {node node' : Node}
    {fields fields' : Fields} {others : NameMap Value}
    (h : readOpen names (depth + 1) node = some (fields, others))
    (h' : readOpen names (depth + 1) node' = some (fields', others))
    (own : ∀ name ∈ names, ∃ r, fields.Related fields' depth name r) :
    ∃ v w, Value.ofNode? (depth + 1) node = some v ∧ Value.ofNode? (depth + 1) node' = some w ∧
      (∀ name, name ∉ names → w.get? name = v.get? name) ∧
      ∀ name ∈ names, ∀ r, fields.Related fields' depth name r → r (v.get? name) (w.get? name) := by
  obtain ⟨v, left, others, mine⟩ := readOpen_plain h fun name known => by
    obtain ⟨r, x, y, given, -, -⟩ := own name known
    exact ⟨x, given⟩
  obtain ⟨w, right, others', mine'⟩ := readOpen_plain h' fun name known => by
    obtain ⟨r, x, y, -, given, -⟩ := own name known
    exact ⟨y, given⟩
  refine ⟨v, w, left, right, fun name unknown => ?_, fun name known r related => ?_⟩
  · rw [others name unknown, others' name unknown]
  · obtain ⟨x, y, given, given', holds⟩ := related
    rw [(mine name known).unique given, (mine' name known).unique given']
    exact holds

section Written

variable {α : Type} {read : Reader α} {fields : Fields} {members : List (String × Option Value)}
  {depth : Nat} {name : String} {a : α} {r : Option Value → Option Value → Prop}

theorem given_written (distinct : (members.map (·.1)).Nodup) {entry y : Option Value}
    (there : members.lookup name = some entry)
    (back : (entry.map fun v => Value.ofNode? depth v.toNode) = y.map some) :
    (written members).Given depth name y := by
  rw [Given, lookup_written distinct, there, Option.join_some, Option.map_map]
  exact back

/-- A field that may be left out, and the member that is written for it. -/
theorem related_of_optional {default : α} {entry : Option Value}
    (h : fields.optional (depth + 1) name default read = some a)
    (distinct : (members.map (·.1)).Nodup) (there : members.lookup name = some entry)
    (absent : a = default →
      ∃ y, (entry.map fun v => Value.ofNode? depth v.toNode) = y.map some ∧ r none y)
    (present : ∀ node, read depth node = some a → ∃ x y, Value.ofNode? depth node = some x ∧
      (entry.map fun v => Value.ofNode? depth v.toNode) = y.map some ∧ r (some x) y) :
    fields.Related (written members) depth name r := by
  unfold optional at h
  split at h
  · rename_i node given
    obtain ⟨x, y, plain, back, holds⟩ := present node h
    refine ⟨some x, y, ?_, given_written distinct there back, holds⟩
    rw [Given, given, Option.map_some, plain]
    rfl
  · rename_i missing
    obtain ⟨y, back, holds⟩ := absent (Option.some.inj h).symm
    refine ⟨none, y, ?_, given_written distinct there back, holds⟩
    rw [Given, missing]
    rfl

variable (toValue : α → Value)
  (plain : ∀ {node a}, read depth node = some a → Value.ofNode? depth node = some (toValue a))
include plain

theorem related_required (h : fields.required (depth + 1) name read = some a)
    (distinct : (members.map (·.1)).Nodup) (there : members.lookup name = some (some (toValue a)))
    (back : Value.ofNode? depth (toValue a).toNode = some (toValue a)) :
    fields.Related (written members) depth name fun x y => y = x := by
  unfold required at h
  split at h
  · rename_i node given
    refine ⟨some (toValue a), some (toValue a), ?_, given_written distinct there ?_, rfl⟩
    · rw [Given, given, Option.map_some, plain h]
      rfl
    · rw [Option.map_some, back]
      rfl
  · cases h

/-- A field that is always written. -/
theorem related_always {default : α} (h : fields.optional (depth + 1) name default read = some a)
    (distinct : (members.map (·.1)).Nodup) (there : members.lookup name = some (some (toValue a)))
    (back : Value.ofNode? depth (toValue a).toNode = some (toValue a)) :
    fields.Related (written members) depth name
      fun x y => y = some (x.getD (toValue default)) := by
  have back : ((some (toValue a)).map fun v => Value.ofNode? depth v.toNode) =
      (some (toValue a)).map some := by
    rw [Option.map_some, back]
    rfl
  refine related_of_optional h distinct there (fun same => ⟨_, back, ?_⟩)
    fun node read => ⟨toValue a, _, plain read, back, rfl⟩
  rw [same]
  rfl

/-- A field that is left out where it has its default. -/
theorem related_unless {default : α} (h : fields.optional (depth + 1) name default read = some a)
    (distinct : (members.map (·.1)).Nodup)
    (there : members.lookup name = some ((some (toValue a)).filter (· ≠ toValue default)))
    (back : Value.ofNode? depth (toValue a).toNode = some (toValue a)) :
    fields.Related (written members) depth name
      fun x y => y = x.filter (· ≠ toValue default) := by
  have back : (((some (toValue a)).filter (· ≠ toValue default)).map
      fun v => Value.ofNode? depth v.toNode) =
        ((some (toValue a)).filter (· ≠ toValue default)).map some := by
    by_cases same : toValue a = toValue default
    · simp [Option.filter, same]
    · simp [Option.filter, same, back]
  refine related_of_optional h distinct there (fun same => ⟨_, back, ?_⟩)
    fun node read => ⟨toValue a, _, plain read, back, rfl⟩
  simp [Option.filter, same]

end Written

end Fields
end Json
end Rehoming
