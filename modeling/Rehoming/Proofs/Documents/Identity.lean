import Rehoming.Proofs.Documents.Brigades

/-! What stands first in a document stays there. A reader that gets through a document that
starts with a member has that member first, whatever the rest is. Main statement: if the document
of a brigade is read as some brigade at all, that one has the same id, even where numbers, names or
nesting make it another brigade otherwise. -/

namespace Rehoming

namespace Json

open Text (Symbol)

/-! ## Scanning -/

/-- Tokens that are found stay found. -/
theorem Token.scan_prefix {mode : Mode} {done tokens : List Token} {symbols : List Symbol}
    (h : scan mode done symbols = some tokens) : ∃ more, tokens = done.reverse ++ more := by
  induction symbols generalizing mode done with
  | nil =>
    obtain ⟨ended, -, rfl⟩ := Option.map_eq_some_iff.mp h
    exact ⟨ended.reverse, List.reverse_append⟩
  | cons s rest ih =>
    rw [scan] at h
    split at h
    · rename_i next found step
      obtain ⟨more, rfl⟩ := ih h
      exact ⟨found.reverse ++ more, by rw [List.reverse_append, List.append_assoc]⟩
    · cases h

/-! ## Parsing -/

namespace Node

/-- At the bottom of the stack is an object that starts with this member. -/
inductive Founded (first : List Symbol × Node) : List Frame → Prop where
  | bottom {done : List (List Symbol × Node)} {name : List Symbol}
      (h : done.getLast? = some first) : Founded first [.members done name]
  | above {frame : Frame} {stack : List Frame} (h : Founded first stack) :
      Founded first (frame :: stack)

namespace Founded

variable {first : List Symbol × Node} {stack : List Frame}

/-- What is open at the bottom may grow. -/
theorem grow {done : List (List Symbol × Node)} {name : List Symbol}
    (h : Founded first (.members done name :: stack)) (m : List Symbol × Node)
    (other : List Symbol) : Founded first (.members (m :: done) other :: stack) := by
  cases h with
  | bottom h => exact .bottom (by rw [List.getLast?_cons, h, Option.getD_some])
  | above h => exact .above h

theorem rename {done : List (List Symbol × Node)} {name : List Symbol}
    (h : Founded first (.members done name :: stack)) (other : List Symbol) :
    Founded first (.members done other :: stack) := by
  cases h with
  | bottom h => exact .bottom h
  | above h => exact .above h

theorem of_items {items : List Node} (h : Founded first (.items items :: stack)) :
    Founded first stack := by
  cases h with
  | above h => exact h

end Founded

/-- Whatever comes next, the outermost object starts with this member. -/
def State.StartsWith (first : List Symbol × Node) : State → Prop
  | .value stack => Founded first stack
  | .firstItem stack => Founded first stack
  | .firstName stack => Founded first stack
  | .name done stack => Founded first (.members done [] :: stack)
  | .colon done own stack => Founded first (.members done own :: stack)
  | .complete node [] => ∃ rest, node = .object (first :: rest)
  | .complete _ (frame :: stack) => Founded first (frame :: stack)

theorem Founded.complete {first : List Symbol × Node} {stack : List Frame}
    (h : Founded first stack) (node : Node) : (State.complete node stack).StartsWith first := by
  cases h with
  | bottom h => exact .bottom h
  | above h => exact .above h

theorem Founded.begin {first : List Symbol × Node} {stack : List Frame} (h : Founded first stack)
    {token : Token} {state : State} (step : begin? stack token = some state) :
    state.StartsWith first := by
  cases token <;> cases step
  case null => exact h.complete _
  case bool => exact h.complete _
  case numeral => exact h.complete _
  case text => exact h.complete _
  case openArray => exact h
  case openObject => exact h

/-- An object at the bottom that is closed has its first member first. -/
theorem Founded.close {first : List Symbol × Node} {done : List (List Symbol × Node)}
    {name : List Symbol} {stack : List Frame} (h : Founded first (.members done name :: stack))
    (m : List Symbol × Node) :
    (State.complete (.object (m :: done).reverse) stack).StartsWith first := by
  cases h with
  | bottom h =>
    obtain ⟨front, rfl⟩ := List.getLast?_eq_some_iff.mp h
    exact ⟨front.reverse ++ [m], by simp⟩
  | above h => exact h.complete _

/-- No token changes what the outermost object starts with. -/
theorem State.StartsWith.step {first : List Symbol × Node} {state next : State} {token : Token}
    (h : state.StartsWith first) (step : step? state token = some next) :
    next.StartsWith first := by
  unfold step? at step
  split at step
  · exact Founded.begin h step
  · cases step
    exact Founded.complete h _
  · exact Founded.begin (Founded.above h) step
  · cases step
    exact Founded.complete h _
  · cases step
    exact Founded.above h
  · cases step
    exact Founded.rename h _
  · cases step
    exact h
  · cases step
    exact Founded.above (Founded.of_items h)
  · cases step
    exact Founded.complete (Founded.of_items h) _
  · cases step
    exact Founded.grow h _ _
  · cases step
    exact Founded.close h _
  · cases step

theorem State.StartsWith.run {first : List Symbol × Node} {tokens : List Token} {state : State}
    {node : Node} (h : state.StartsWith first) (parsed : Node.run state tokens = some node) :
    ∃ rest, node = .object (first :: rest) := by
  induction tokens generalizing state with
  | nil =>
    rw [Node.run.eq_def] at parsed
    split at parsed
    · cases parsed
      exact h
    · cases parsed
    · rename_i more
      cases more
  | cons token rest ih =>
    cases step : step? state token with
    | none =>
      rw [Node.run.eq_def] at parsed
      simp [step] at parsed
    | some next =>
      rw [run_step step] at parsed
      exact ih (h.step step) parsed

/-- The first of two or more members that are written is the first member of what is parsed. -/
theorem ofSymbols?_first {n s : String} {m : String × Value} {more : List (String × Value)}
    {node : Node} (parsed : ofSymbols? ((Value.object ((n, .string s) :: m :: more)).compactChars.map
      some) = some node) :
    ∃ rest, node = .object ((escaped n, .text (escaped s)) :: rest) := by
  obtain ⟨tokens, scanned, parsed⟩ := Option.bind_eq_some_iff.mp parsed
  have front : Token.scan .between
      [.comma, .text (escaped s), .colon, .text (escaped n), .openObject]
      ((Value.compactMembers (m :: more)).map some) = some tokens := by
    have text : (Value.string s).compactChars = Value.quote s := rfl
    rw [Token.scan?, Value.compactChars, Value.compactMembers_cons_cons, text, List.map_cons,
      Token.scan_mark rfl, List.append_assoc, List.map_append, Token.scan_quote, List.cons_append,
      List.map_cons, Token.scan_mark rfl, List.map_append, Token.scan_quote, List.map_cons,
      Token.scan_mark rfl] at scanned
    exact scanned
  obtain ⟨others, rfl⟩ := Token.scan_prefix front
  let first : List Symbol × Node := (escaped n, .text (escaped s))
  have begun : run (.name [first] []) others = some node := parsed
  have founded : (State.name [first] []).StartsWith first := Founded.bottom rfl
  exact founded.run begun

end Node

/-! ## Reading -/

/-- A known member that is first is what its field is read from. -/
theorem Fields.readOpen_first {names : List String} {n : String} (known : n ∈ names) {depth : Nat}
    {node : Node} {rest : List (List Symbol × Node)} {fields : Fields} {others : NameMap Value}
    (h : readOpen names (depth + 1) (.object ((escaped n, node) :: rest)) =
      some (fields, others)) : fields.lookup n = some node := by
  rw [readOpen_object] at h
  obtain ⟨named, decoded, h⟩ := Option.bind_eq_some_iff.mp h
  obtain ⟨values, -, h⟩ := Option.bind_eq_some_iff.mp h
  obtain ⟨more, rfl⟩ : ∃ more, named = (n, node) :: more := by
    rw [mapM_some_iff, List.forall₂_cons_left_iff] at decoded
    obtain ⟨own, more, here, -, rfl⟩ := decoded
    rw [Token.decode?_escaped, Option.map_some] at here
    exact ⟨more, by rw [Option.some.inj here]⟩
  split at h
  · cases h
    rw [List.filter_cons, if_pos (List.contains_iff_mem.mpr known), List.lookup_cons_self]
  · cases h

end Json

/-- **A document keeps the id of its brigade.** Whatever brigade it is the document of: if it is
read at all, it is read as a brigade with that id. -/
theorem Brigade.id_of_ofBytes?_toBytes {b found : Brigade} (h : ofBytes? b.toBytes = some found) :
    found.id = b.id := by
  obtain ⟨node, parsed, read⟩ := Option.bind_eq_some_iff.mp h
  rw [toBytes, Json.Node.ofBytes?, Text.Utf8.symbols_encode] at parsed
  obtain ⟨rest, rfl⟩ := Json.Node.ofSymbols?_first parsed
  obtain ⟨⟨fields, others⟩, record, read⟩ := Option.bind_eq_some_iff.mp read
  have first := Json.Fields.readOpen_first (n := "brigade_id") (by decide) record
  obtain ⟨id, given, read⟩ := Option.bind_eq_some_iff.mp read
  have same : id = b.id := by
    rw [Json.Fields.required, first] at given
    exact Option.some.inj (given.symm.trans (Json.Token.decode?_escaped b.id))
  simp only [Option.bind_eq_bind, Option.bind_eq_some_iff] at read
  obtain ⟨domain, -, address, -, counters, -, stack, -, endpoints, -, wg, -, ov, -, psk, -,
    users, -, made⟩ := read
  cases made
  exact same

end Rehoming
