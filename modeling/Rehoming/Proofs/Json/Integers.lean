import Rehoming.Proofs.Json.Records

/-! Documents in which all numbers are integers of 64 bits, signed or not. It is a property of the
tree that a text is parsed as. Whatever a reader keeps of such a tree has only integers for numbers
too, and what is written for values of that kind is such a document again. -/

namespace Rehoming.Json

namespace Numeral

/-- An integer literal that fits 64 bits, signed or not; minus zero is none. -/
def IsInteger (cs : List Char) : Prop :=
  (parts cs).isInteger = true ∧
    if (parts cs).negative then
      0 < (parts cs).magnitude ∧ (parts cs).magnitude ≤ 9223372036854775808
    else (parts cs).magnitude < 18446744073709551616

/-- Integer literals mean integers. -/
theorem exists_of_isInteger {cs : List Char} (h : IsInteger cs) :
    ∃ i, number? cs = some (.int i) ∧ (Number.int i).Integral := by
  obtain ⟨plain, bounds⟩ := h
  cases sign : (parts cs).negative with
  | false =>
    simp only [sign, Bool.false_eq_true, if_false] at bounds
    refine ⟨(parts cs).magnitude, ?_, ?_, ?_⟩
    · simp [number?, plain, sign, bounds]
    · omega
    · omega
  | true =>
    simp only [sign, if_true] at bounds
    obtain ⟨pos, fits⟩ := bounds
    refine ⟨-((parts cs).magnitude : Int), ?_, ?_, ?_⟩
    · simp [number?, plain, sign, pos, fits]
    · omega
    · omega

/-- What is written for an integer is an integer literal. -/
theorem isInteger_ofInt {i : Int} (h : (Number.int i).Integral) :
    IsInteger (Text.Decimal.ofInt i) := by
  obtain ⟨low, high⟩ := h
  have sign : (integerParts i).negative = decide (i < 0) := rfl
  rw [IsInteger, parts_ofInt, magnitude_integerParts, sign]
  exact ⟨rfl, by split <;> simp_all <;> omega⟩

end Numeral

/-- Numbers in the tree are integers of 64 bits, signed or not. -/
inductive Node.Integral : Node → Prop where
  | null : Integral .null
  | bool {b : Bool} : Integral (.bool b)
  | numeral {cs : List Char} (integer : Numeral.IsInteger cs) : Integral (.numeral cs)
  | text {symbols : List Text.Symbol} : Integral (.text symbols)
  | array {items : List Node} (all : ∀ n ∈ items, n.Integral) : Integral (.array items)
  | object {members : List (List Text.Symbol × Node)} (all : ∀ m ∈ members, m.2.Integral) :
      Integral (.object members)

namespace Value

@[simp] theorem integral_null : Value.null.Integral := .null

@[simp] theorem integral_bool (b : Bool) : (Value.bool b).Integral := .bool

@[simp] theorem integral_string (s : String) : (Value.string s).Integral := .string

@[simp] theorem integral_number {n : Number} : (Value.number n).Integral ↔ n.Integral :=
  ⟨fun | .number h => h, .number⟩

@[simp] theorem integral_array {items : List Value} :
    (Value.array items).Integral ↔ ∀ v ∈ items, v.Integral :=
  ⟨fun | .array h => h, .array⟩

@[simp] theorem integral_object {members : List (String × Value)} :
    (Value.object members).Integral ↔ ∀ m ∈ members, m.2.Integral :=
  ⟨fun | .object h => h, .object⟩

/-- Values read off such a tree have only integers for numbers. -/
theorem ofNode?_integral {node : Node} (h : node.Integral) :
    ∀ {depth : Nat} {v : Value}, ofNode? depth node = some v → v.Integral := by
  induction h with
  | null =>
    intro depth v read
    rw [ofNode?_null] at read
    cases read
    exact .null
  | bool =>
    intro depth v read
    rw [ofNode?_bool] at read
    cases read
    exact .bool
  | numeral integer =>
    intro depth v read
    obtain ⟨i, meaning, integral⟩ := Numeral.exists_of_isInteger integer
    rw [ofNode?_numeral, meaning] at read
    cases read
    exact .number integral
  | text =>
    intro depth v read
    rw [ofNode?_text] at read
    obtain ⟨s, -, rfl⟩ := Option.map_eq_some_iff.mp read
    exact .string
  | array all ih =>
    intro depth v read
    cases depth with
    | zero => cases read
    | succ depth =>
      obtain ⟨vs, items, rfl⟩ := Option.map_eq_some_iff.mp read
      refine .array fun v hv => ?_
      obtain ⟨node, there, item⟩ := mem_of_mapM_some items hv
      exact ih node there item
  | object all ih =>
    intro depth v read
    cases depth with
    | zero => cases read
    | succ depth =>
      obtain ⟨ms, members, made⟩ := Option.bind_eq_some_iff.mp read
      cases made
      refine .object fun m hm => ?_
      obtain ⟨node, there, member⟩ := mem_of_mapM_some members (NameMap.mem_ofList hm)
      obtain ⟨name, -, member⟩ := Option.bind_eq_some_iff.mp member
      obtain ⟨value, item, member⟩ := Option.bind_eq_some_iff.mp member
      cases member
      exact ih node there item

/-- What is written for such a value is such a document. -/
theorem toNode_integral {v : Value} (h : v.Integral) : v.toNode.Integral := by
  induction h with
  | null => exact .null
  | bool => exact .bool
  | number integral =>
    rename_i n
    cases n with
    | int i => exact .numeral (Numeral.isInteger_ofInt integral)
    | real x => exact integral.elim
  | string => exact .text
  | array all ih =>
    rw [toNode, itemNodes_eq]
    refine .array fun n hn => ?_
    obtain ⟨v, hv, rfl⟩ := List.mem_map.mp hn
    exact ih v hv
  | object all ih =>
    rw [toNode, memberNodes_eq]
    refine .object fun m hm => ?_
    obtain ⟨own, there, rfl⟩ := List.mem_map.mp hm
    exact ih own there

end Value

/-! ## Open records -/

namespace Fields

/-- A field that is given is one of the fields. -/
theorem mem_of_lookup {fields : Fields} {name : String} {node : Node}
    (h : fields.lookup name = some node) : (name, node) ∈ fields := by
  obtain ⟨before, after, rfl, -⟩ := List.lookup_eq_some_iff.mp h
  exact List.mem_append_right _ List.mem_cons_self

/-- The fields of a record and its other members come from the members of an object. -/
theorem readOpen_integral {names : List String} {depth : Nat} {node : Node} {fields : Fields}
    {others : NameMap Value} (integral : node.Integral)
    (h : readOpen names depth node = some (fields, others)) :
    (∀ f ∈ fields, f.2.Integral) ∧ ∀ e ∈ others.entries, e.2.Integral := by
  obtain ⟨inner, members, named, values, -, rfl, decoded, read, -, rfl, rfl⟩ :=
    readOpen_eq_some_iff.mp h
  cases integral with
  | object all =>
    have each (f : String × Node) (hf : f ∈ named) : f.2.Integral := by
      obtain ⟨m, hm, made⟩ := mem_of_mapM_some decoded hf
      obtain ⟨name, -, rfl⟩ := Option.map_eq_some_iff.mp made
      exact all m hm
    refine ⟨fun f hf => each f (List.mem_of_mem_filter hf), fun e he => ?_⟩
    obtain ⟨f, hf, made⟩ := mem_of_mapM_some read (NameMap.mem_ofList he)
    obtain ⟨v, item, rfl⟩ := Option.map_eq_some_iff.mp made
    exact Value.ofNode?_integral (each f (List.mem_of_mem_filter hf)) item

/-- What is read from a field has whatever readers make of integral trees. -/
theorem optional_integral {α : Type} {p : α → Prop} {fields : Fields} {depth : Nat} {name : String}
    {default a : α} {read : Reader α} (all : ∀ f ∈ fields, f.2.Integral) (start : p default)
    (made : ∀ node a, node.Integral → read (depth - 1) node = some a → p a)
    (h : fields.optional depth name default read = some a) : p a := by
  unfold optional at h
  split at h
  · rename_i node given
    exact made node a (all _ (mem_of_lookup given)) h
  · cases h
    exact start

end Fields
end Rehoming.Json
