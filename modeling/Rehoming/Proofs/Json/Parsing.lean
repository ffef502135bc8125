import Rehoming.Json.Node
import Rehoming.Proofs.Json.Scanning

/-! Parsing what was written: the tokens of a value are parsed as the tree that has the
value's texts with their escapes and its numbers as numerals. -/

namespace Rehoming.Json

namespace Value

mutual

/-- The syntax tree of a value as it is written. -/
def toNode : Value → Node
  | .null => .null
  | .bool b => .bool b
  | .number n => .numeral n.chars
  | .string s => .text (escaped s)
  | .array items => .array (itemNodes items)
  | .object members => .object (memberNodes members)

def itemNodes : List Value → List Node
  | [] => []
  | v :: rest => v.toNode :: itemNodes rest

def memberNodes : List (String × Value) → List (List Text.Symbol × Node)
  | [] => []
  | (n, v) :: rest => (escaped n, v.toNode) :: memberNodes rest

end

theorem itemNodes_eq (items : List Value) : itemNodes items = items.map toNode := by
  induction items with
  | nil => rfl
  | cons v rest ih => rw [itemNodes, ih, List.map_cons]

theorem memberNodes_eq (members : List (String × Value)) :
    memberNodes members = members.map fun m => (escaped m.1, m.2.toNode) := by
  induction members with
  | nil => rfl
  | cons m rest ih => rw [memberNodes, ih, List.map_cons]

end Value

namespace Node

theorem run_step {state next : State} {token : Token} (h : step? state token = some next)
    (rest : List Token) : run state (token :: rest) = run next rest := by
  rw [run.eq_def]
  simp only [h]

/-- Where an item may stand, a value starts one; only a bracket would not. -/
theorem run_firstItem {token : Token} (h : token ≠ .closeArray) (stack : List Frame)
    (rest : List Token) :
    run (.firstItem stack) (token :: rest) = run (.value (.items [] :: stack)) (token :: rest) := by
  have same : step? (.firstItem stack) token = step? (.value (.items [] :: stack)) token := by
    rw [step?.eq_def, step?.eq_def]
    cases token <;> first | rfl | exact absurd rfl h
  rw [run.eq_def, run.eq_def (.value _)]
  simp only [same]

theorem tokens_eq_cons (v : Value) : ∃ token more, v.tokens = token :: more ∧
    token ≠ .closeArray := by
  cases v with
  | null => exact ⟨_, _, rfl, nofun⟩
  | bool b => exact ⟨_, _, rfl, nofun⟩
  | number n => exact ⟨_, _, rfl, nofun⟩
  | string s => exact ⟨_, _, rfl, nofun⟩
  | array items => exact ⟨_, _, rfl, nofun⟩
  | object members => exact ⟨_, _, rfl, nofun⟩

theorem itemTokens_eq_cons (v : Value) (more : List Value) : ∃ token others,
    Value.itemTokens (v :: more) = token :: others ∧ token ≠ .closeArray := by
  obtain ⟨token, own, hv, other⟩ := tokens_eq_cons v
  cases more with
  | nil =>
    refine ⟨token, own ++ [.closeArray], ?_, other⟩
    rw [Value.itemTokens, hv, List.cons_append]
  | cons w more =>
    refine ⟨token, own ++ .comma :: Value.itemTokens (w :: more), ?_, other⟩
    rw [Value.itemTokens_cons_cons, hv, List.cons_append]

theorem memberTokens_eq_cons (n : String) (v : Value) (more : List (String × Value)) :
    ∃ others, Value.memberTokens ((n, v) :: more) = .text (escaped n) :: others := by
  cases more with
  | nil => exact ⟨_, rfl⟩
  | cons m more => exact ⟨_, rfl⟩

mutual

/-- The parser completes the tree of a value and goes on behind it. -/
theorem run_tokens : ∀ (v : Value) (stack : List Frame) (rest : List Token),
    run (.value stack) (v.tokens ++ rest) = run (.complete v.toNode stack) rest
  | .null, _, rest => run_step rfl rest
  | .bool _, _, rest => run_step rfl rest
  | .number _, _, rest => run_step rfl rest
  | .string _, _, rest => run_step rfl rest
  | .array [], _, rest => by
    rw [Value.tokens, List.cons_append, run_step rfl, Value.itemTokens, List.singleton_append,
      run_step rfl]
    rfl
  | .array (v :: more), stack, rest => by
    have items := run_items (v :: more) (by simp) [] stack rest
    obtain ⟨token, others, first, other⟩ := itemTokens_eq_cons v more
    rw [Value.tokens, List.cons_append, run_step rfl, first, List.cons_append,
      run_firstItem other, ← List.cons_append, ← first, items]
    rfl
  | .object [], _, rest => by
    rw [Value.tokens, List.cons_append, run_step rfl, Value.memberTokens, List.singleton_append,
      run_step rfl]
    rfl
  | .object ((n, v) :: more), stack, rest => by
    have members := run_members ((n, v) :: more) (by simp) [] stack rest
    obtain ⟨others, first⟩ := memberTokens_eq_cons n v more
    rw [first, List.cons_append, run_step rfl] at members
    rw [Value.tokens, List.cons_append, run_step rfl, first, List.cons_append, run_step rfl,
      members]
    rfl

theorem run_items : ∀ (items : List Value), items ≠ [] → ∀ (done : List Node)
    (stack : List Frame) (rest : List Token),
    run (.value (.items done :: stack)) (Value.itemTokens items ++ rest) =
      run (.complete (.array (done.reverse ++ Value.itemNodes items)) stack) rest
  | [], nonempty, _, _, _ => absurd rfl nonempty
  | [v], _, done, stack, rest => by
    have value := run_tokens v (.items done :: stack) (.closeArray :: rest)
    rw [Value.itemTokens, List.append_assoc, List.singleton_append, value, run_step rfl,
      List.reverse_cons]
    rfl
  | v :: w :: more, _, done, stack, rest => by
    have value := run_tokens v (.items done :: stack)
      (.comma :: (Value.itemTokens (w :: more) ++ rest))
    have others := run_items (w :: more) (by simp) (v.toNode :: done) stack rest
    rw [Value.itemTokens_cons_cons, List.append_assoc, List.cons_append, value, run_step rfl,
      others, List.reverse_cons, List.append_assoc]
    rfl

theorem run_members : ∀ (members : List (String × Value)), members ≠ [] →
    ∀ (done : List (List Text.Symbol × Node)) (stack : List Frame) (rest : List Token),
    run (.name done stack) (Value.memberTokens members ++ rest) =
      run (.complete (.object (done.reverse ++ Value.memberNodes members)) stack) rest
  | [], nonempty, _, _, _ => absurd rfl nonempty
  | [(n, v)], _, done, stack, rest => by
    have value := run_tokens v (.members done (escaped n) :: stack) (.closeObject :: rest)
    rw [Value.memberTokens, List.append_assoc, List.cons_append, run_step rfl, List.cons_append,
      run_step rfl, List.singleton_append, value, run_step rfl, List.reverse_cons]
    rfl
  | (n, v) :: m :: more, _, done, stack, rest => by
    have value := run_tokens v (.members done (escaped n) :: stack)
      (.comma :: (Value.memberTokens (m :: more) ++ rest))
    have others := run_members (m :: more) (by simp) ((escaped n, v.toNode) :: done) stack rest
    rw [Value.memberTokens_cons_cons, List.append_assoc, List.cons_append, run_step rfl,
      List.cons_append, run_step rfl, List.cons_append, value, run_step rfl,
      others, List.reverse_cons, List.append_assoc]
    rfl

end

/-- Whatever is scanned as the tokens of a value is parsed as its tree. -/
theorem ofSymbols?_of_scan {symbols : List Text.Symbol} {v : Value}
    (h : Token.scan? symbols = some v.tokens) : ofSymbols? symbols = some v.toNode := by
  have parsed := run_tokens v [] []
  rw [List.append_nil] at parsed
  rw [ofSymbols?, h, Option.bind_some, ofTokens?, parsed]
  rfl

/-- **What is written on one line is parsed as the tree of the value.** -/
theorem ofSymbols?_compact (v : Value) :
    ofSymbols? (v.compactChars.map some) = some v.toNode :=
  ofSymbols?_of_scan (Token.scan?_compact v)

/-- The same with a line ending behind it. -/
theorem ofSymbols?_line (v : Value) :
    ofSymbols? ((v.compactChars ++ ['\n']).map some) = some v.toNode :=
  ofSymbols?_of_scan (Token.scan?_line v)

end Node
end Rehoming.Json
