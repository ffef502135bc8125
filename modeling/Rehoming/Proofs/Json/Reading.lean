import Rehoming.Json.Record
import Rehoming.Proofs.Json.Parsing
import Rehoming.Proofs.Sequences

/-! Reading values off the tree that they were written as. What a reader gives nests no
deeper than it allows and has its members in order; any such value is read back. -/

namespace Rehoming

/-! ## Maps -/

namespace NameMap

variable {α : Type}

theorem put_of_last {name : String} {entries : List (String × α)}
    (h : ∀ e ∈ entries, e.1 < name) (value : α) :
    put name value entries = entries ++ [(name, value)] := by
  induction entries with
  | nil => rfl
  | cons first rest ih =>
    have before := h first List.mem_cons_self
    have apart : ¬ name = first.1 := fun same => String.lt_irrefl name (same ▸ before)
    rw [put, if_neg (fun after => String.lt_asymm before after), if_neg apart,
      ih fun e he => h e (List.mem_cons_of_mem _ he), List.cons_append]

theorem foldl_insert {front rest : List (String × α)} (h : Ordered (front ++ rest))
    (m : NameMap α) (hm : m.entries = front) :
    (rest.foldl (fun m e => m.insert e.1 e.2) m).entries = front ++ rest := by
  induction rest generalizing front m with
  | nil => rw [List.foldl_nil, hm, List.append_nil]
  | cons e rest ih =>
    have last : ∀ f ∈ front, f.1 < e.1 := fun f hf =>
      (List.pairwise_append.mp h).2.2 f hf e List.mem_cons_self
    have next : (m.insert e.1 e.2).entries = front ++ [e] := by
      show put e.1 e.2 m.entries = _
      rw [hm, put_of_last last]
    rw [List.foldl_cons, ih (by simpa using h) _ next, List.append_assoc, List.singleton_append]

theorem ofList_entries {entries : List (String × α)} (h : Ordered entries) :
    (ofList entries).entries = entries := foldl_insert h empty rfl

/-- A map is made again from its entries. -/
theorem ofList_self (m : NameMap α) : ofList m.entries = m := by
  have same := ofList_entries m.ordered
  cases m
  cases made : ofList _
  simp_all

theorem mem_ofList {entries : List (String × α)} {e : String × α}
    (h : e ∈ (ofList entries).entries) : e ∈ entries := by
  have run : ∀ (rest : List (String × α)) (m : NameMap α),
      e ∈ (rest.foldl (fun m e => m.insert e.1 e.2) m).entries → e ∈ m.entries ∨ e ∈ rest := by
    intro rest
    induction rest with
    | nil => exact fun m h => .inl h
    | cons f rest ih =>
      intro m h
      rcases ih _ h with h | h
      · rcases mem_put h with rfl | h
        · exact .inr List.mem_cons_self
        · exact .inl h
      · exact .inr (List.mem_cons_of_mem _ h)
  rcases run entries empty h with h | h
  · cases h
  · exact h

end NameMap

namespace Json

/-! ## Texts -/

namespace Token

theorem unit_hexDigit : ∀ n, n < 32 →
    unit '0' '0' (Value.hexDigit (n / 16)) (Value.hexDigit (n % 16)) = n := by decide

theorem unescape_escape (c : Char) (done : List Char) (rest : List Text.Symbol) :
    unescape done ((Value.escape c).map some ++ rest) = unescape (c :: done) rest := by
  unfold Value.escape
  split
  · rename_i h
    subst h
    rfl
  split
  · rename_i h
    subst h
    rfl
  split
  · rename_i h
    subst h
    rfl
  split
  · rename_i h
    subst h
    rfl
  split
  · rename_i h
    subst h
    rfl
  split
  · rename_i h
    subst h
    rfl
  split
  · rename_i h
    subst h
    rfl
  split
  · rename_i control
    have number := unit_hexDigit c.toNat control
    simp only [List.map_cons, List.map_nil, List.cons_append, List.nil_append]
    rw [unescape.eq_def]
    simp only [number, Char.ofNat_toNat]
    rw [if_neg (by simp; omega), if_neg (by simp; omega)]
  · rename_i slash _ _ _ _ _ _
    simp only [List.map_cons, List.map_nil, List.cons_append, List.nil_append]
    rw [unescape.eq_def]
    split <;> simp_all

theorem unescape_escapes (cs done : List Char) :
    unescape done ((cs.flatMap Value.escape).map some) = some (done.reverse ++ cs) := by
  induction cs generalizing done with
  | nil => simp [unescape]
  | cons c cs ih =>
    rw [List.flatMap_cons, List.map_append, unescape_escape, ih, List.reverse_cons,
      List.append_assoc, List.singleton_append]

/-- **Texts are read back.** -/
theorem decode?_escaped (s : String) : decode? (escaped s) = some s := by
  rw [decode?, escaped, unescape_escapes, List.reverse_nil, List.nil_append, Option.map_some,
    String.ofList_toList]

end Token

/-! ## Values -/

/-- Numbers in the value are integers of 64 bits, signed or not. -/
inductive Value.Integral : Value → Prop where
  | null : Integral .null
  | bool {b : Bool} : Integral (.bool b)
  | number {n : Number} (integral : n.Integral) : Integral (.number n)
  | string {s : String} : Integral (.string s)
  | array {items : List Value} (all : ∀ v ∈ items, v.Integral) : Integral (.array items)
  | object {members : List (String × Value)} (all : ∀ m ∈ members, m.2.Integral) :
      Integral (.object members)

/-- A value as readers give it: at most `depth` arrays and objects are open at a time, its
integers have 64 bits, and members stand in the order of their names. -/
inductive Value.Canonical : Nat → Value → Prop where
  | null {depth : Nat} : Canonical depth .null
  | bool {depth : Nat} {b : Bool} : Canonical depth (.bool b)
  | number {depth : Nat} {n : Number} (legible : n.Legible) : Canonical depth (.number n)
  | string {depth : Nat} {s : String} : Canonical depth (.string s)
  | array {depth : Nat} {items : List Value} (all : ∀ v ∈ items, v.Canonical depth) :
      Canonical (depth + 1) (.array items)
  | object {depth : Nat} {members : List (String × Value)} (ordered : NameMap.Ordered members)
      (all : ∀ m ∈ members, m.2.Canonical depth) : Canonical (depth + 1) (.object members)

namespace Value

theorem ofNode?_null (depth : Nat) : ofNode? depth .null = some .null := by cases depth <;> rfl

theorem ofNode?_bool (depth : Nat) (b : Bool) : ofNode? depth (.bool b) = some (.bool b) := by
  cases depth <;> rfl

theorem ofNode?_numeral (depth : Nat) (cs : List Char) :
    ofNode? depth (.numeral cs) = (Numeral.number? cs).map .number := by cases depth <;> rfl

theorem ofNode?_text (depth : Nat) (symbols : List Text.Symbol) :
    ofNode? depth (.text symbols) = (Token.decode? symbols).map .string := by cases depth <;> rfl

theorem ofNode?_canonical : ∀ {depth : Nat} {node : Node} {v : Value},
    ofNode? depth node = some v → v.Canonical depth
  | depth, .null, v, h => by
    rw [ofNode?_null] at h
    cases h
    exact .null
  | depth, .bool b, v, h => by
    rw [ofNode?_bool] at h
    cases h
    exact .bool
  | depth, .numeral cs, v, h => by
    rw [ofNode?_numeral] at h
    obtain ⟨n, read, rfl⟩ := Option.map_eq_some_iff.mp h
    exact .number (Numeral.number?_legible read)
  | depth, .text symbols, v, h => by
    rw [ofNode?_text] at h
    obtain ⟨s, -, rfl⟩ := Option.map_eq_some_iff.mp h
    exact .string
  | 0, .array items, v, h => by cases h
  | 0, .object members, v, h => by cases h
  | depth + 1, .array items, v, h => by
    obtain ⟨vs, read, rfl⟩ := Option.map_eq_some_iff.mp h
    refine .array fun v hv => ?_
    obtain ⟨node, -, hn⟩ := mem_of_mapM_some read hv
    exact ofNode?_canonical hn
  | depth + 1, .object members, v, h => by
    obtain ⟨ms, read, made⟩ := Option.bind_eq_some_iff.mp h
    cases made
    refine .object (NameMap.ofList ms).ordered fun m hm => ?_
    obtain ⟨node, -, hn⟩ := mem_of_mapM_some read (NameMap.mem_ofList hm)
    obtain ⟨name, -, hn⟩ := Option.bind_eq_some_iff.mp hn
    obtain ⟨value, hv, hn⟩ := Option.bind_eq_some_iff.mp hn
    cases hn
    exact ofNode?_canonical hv

/-- **Values are read back.** -/
theorem ofNode?_toNode {depth : Nat} {v : Value} (canonical : v.Canonical depth)
    (integral : v.Integral) : ofNode? depth v.toNode = some v := by
  induction canonical with
  | null => exact ofNode?_null _
  | bool => exact ofNode?_bool _ _
  | @number _ n =>
    cases integral with
    | number integral =>
      cases n with
      | int i => rw [toNode, ofNode?_numeral, Number.chars, Numeral.number?_ofInt integral]; rfl
      | real x => exact integral.elim
  | string => rw [toNode, ofNode?_text, Token.decode?_escaped]; rfl
  | array all ih =>
    cases integral with
    | array integral =>
      rw [toNode, itemNodes_eq, ofNode?, mapM_map_some fun v hv => ih v hv (integral v hv)]
      rfl
  | object ordered all ih =>
    rename_i depth members
    cases integral with
    | object integral =>
      have read : (memberNodes members).mapM (fun m => do
          let name ← Token.decode? m.1
          let value ← ofNode? depth m.2
          some (name, value)) = some members := by
        rw [memberNodes_eq]
        refine mapM_map_some fun m hm => ?_
        rw [Token.decode?_escaped, Option.bind_eq_bind, Option.bind_some, ih m hm (integral m hm)]
        rfl
      rw [toNode, ofNode?, read, Option.bind_eq_bind, Option.bind_some,
        NameMap.ofList_entries ordered]

/-- **Whatever was read is accepted again.** A floating-point number need not be read as the
same one. -/
theorem ofNode?_again {depth : Nat} {v : Value} (canonical : v.Canonical depth) :
    ∃ w, ofNode? depth v.toNode = some w := by
  induction canonical with
  | null => exact ⟨_, ofNode?_null _⟩
  | bool => exact ⟨_, ofNode?_bool _ _⟩
  | number legible =>
    obtain ⟨m, read⟩ := Option.isSome_iff_exists.mp (Numeral.number?_chars legible)
    rw [toNode, ofNode?_numeral, read]
    exact ⟨_, rfl⟩
  | string =>
    rw [toNode, ofNode?_text, Token.decode?_escaped]
    exact ⟨_, rfl⟩
  | array all ih =>
    rename_i depth items
    have each : ∀ node ∈ items.map toNode, ∃ w, ofNode? depth node = some w := by
      intro node hn
      obtain ⟨v, hv, rfl⟩ := List.mem_map.mp hn
      exact ih v hv
    obtain ⟨ws, read⟩ := exists_mapM_some each
    rw [toNode, itemNodes_eq, ofNode?, read]
    exact ⟨_, rfl⟩
  | object ordered all ih =>
    rename_i depth members
    have each : ∀ m ∈ memberNodes members, ∃ w, (do
        let name ← Token.decode? m.1
        let value ← ofNode? depth m.2
        some (name, value)) = some w := by
      intro node hn
      rw [memberNodes_eq] at hn
      obtain ⟨m, hm, rfl⟩ := List.mem_map.mp hn
      obtain ⟨w, read⟩ := ih m hm
      rw [Token.decode?_escaped, Option.bind_eq_bind, Option.bind_some, read]
      exact ⟨_, rfl⟩
    obtain ⟨ws, read⟩ := exists_mapM_some each
    rw [toNode, ofNode?, read]
    exact ⟨_, rfl⟩

end Value
end Json
end Rehoming
