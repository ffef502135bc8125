import Rehoming.Proofs.Json.Parsing

/-! Parsing what was spread over lines. The blanks in front of items and members lead from one token
to the next, so the tokens are those of the value written on one line. Main statement: the text is
parsed as the tree of the value, also with a line ending behind it. -/

namespace Rehoming.Json

open Text (Symbol)

namespace Value

theorem prettyItems_cons_cons (level : Nat) (v w : Value) (more : List Value) :
    prettyItems level (v :: w :: more) =
      indent (level + 1) ++ prettyChars (level + 1) v ++ ',' :: prettyItems level (w :: more) := rfl

theorem prettyMembers_cons_cons (level : Nat) (n : String) (v : Value) (m : String × Value)
    (more : List (String × Value)) : prettyMembers level ((n, v) :: m :: more) =
      indent (level + 1) ++ quote n ++ ':' :: ' ' :: prettyChars (level + 1) v
        ++ ',' :: prettyMembers level (m :: more) := rfl

end Value

namespace Token

theorem scan_blank {c : Char} (h : start? c = some (.between, [])) (done : List Token)
    (rest : List Symbol) : scan .between done (some c :: rest) = scan .between done rest := by
  rw [scan, step?, h]
  rfl

/-- An indent leads from one token to the next. -/
theorem scan_indent (level : Nat) (done : List Token) (rest : List Symbol) :
    scan .between done ((Value.indent level).map some ++ rest) = scan .between done rest := by
  have spaces (n : Nat) :
      scan .between done ((List.replicate n ' ').map some ++ rest) = scan .between done rest := by
    induction n with
    | zero => rfl
    | succ n ih =>
      rw [List.replicate_succ, List.map_cons, List.cons_append, scan_blank rfl, ih]
  rw [Value.indent, List.map_cons, List.cons_append, scan_blank rfl, spaces]

theorem delimited_indent (level : Nat) (rest : List Symbol) :
    Delimited ((Value.indent level).map some ++ rest) := by
  rw [Value.indent, List.map_cons, List.cons_append]
  exact delimited_cons _ (.inr (.inr (.inr rfl)))

mutual

/-- The scanner finds the tokens of a value at any level and goes on behind it. -/
theorem scan_pretty : ∀ (v : Value) (level : Nat) (done : List Token) (rest : List Symbol),
    Delimited rest →
    scan .between done ((v.prettyChars level).map some ++ rest) =
      scan .between (v.tokens.reverse ++ done) rest
  | .null, _, done, rest, stop => scan_compact .null done rest stop
  | .bool b, _, done, rest, stop => scan_compact (.bool b) done rest stop
  | .number n, _, done, rest, stop => scan_compact (.number n) done rest stop
  | .string s, _, done, rest, stop => scan_compact (.string s) done rest stop
  | .array [], _, done, rest, stop => scan_compact (.array []) done rest stop
  | .object [], _, done, rest, stop => scan_compact (.object []) done rest stop
  | .array (v :: more), level, done, rest, _ => by
    have items := scan_prettyItems (v :: more) level (List.cons_ne_nil _ _) (.openArray :: done) rest
    rw [Value.prettyChars, List.map_cons, List.cons_append, scan_mark rfl, items,
      Value.tokens, List.reverse_cons, List.append_assoc]
    · rfl
    -- The equation holds of any list but the empty one.
    · nofun
  | .object (m :: more), level, done, rest, _ => by
    have members := scan_prettyMembers (m :: more) level (List.cons_ne_nil _ _)
      (.openObject :: done) rest
    rw [Value.prettyChars, List.map_cons, List.cons_append, scan_mark rfl, members,
      Value.tokens, List.reverse_cons, List.append_assoc]
    · rfl
    -- The equation holds of any list but the empty one.
    · nofun

theorem scan_prettyItems : ∀ (items : List Value) (level : Nat), items ≠ [] →
    ∀ (done : List Token) (rest : List Symbol),
    scan .between done ((Value.prettyItems level items).map some ++ rest) =
      scan .between ((Value.itemTokens items).reverse ++ done) rest
  | [], _, nonempty, _, _ => absurd rfl nonempty
  | [v], level, _, done, rest => by
    have value := scan_pretty v (level + 1) done
      ((Value.indent level).map some ++ some ']' :: rest) (delimited_indent level _)
    simp only [Value.prettyItems, List.map_append, List.append_assoc, List.map_singleton,
      List.singleton_append, scan_indent, value]
    rw [scan_mark rfl, Value.itemTokens, List.reverse_append]
    rfl
  | v :: w :: more, level, _, done, rest => by
    have value := scan_pretty v (level + 1) done
      (some ',' :: ((Value.prettyItems level (w :: more)).map some ++ rest))
      (delimited_cons _ (.inl rfl))
    have others := scan_prettyItems (w :: more) level (List.cons_ne_nil _ _)
    simp only [Value.prettyItems_cons_cons, List.map_append, List.append_assoc, List.map_cons,
      List.cons_append, scan_indent, value]
    rw [scan_mark rfl, others, Value.itemTokens_cons_cons, List.reverse_append, List.reverse_cons]
    simp only [List.append_assoc, List.cons_append, List.nil_append]

theorem scan_prettyMembers : ∀ (members : List (String × Value)) (level : Nat), members ≠ [] →
    ∀ (done : List Token) (rest : List Symbol),
    scan .between done ((Value.prettyMembers level members).map some ++ rest) =
      scan .between ((Value.memberTokens members).reverse ++ done) rest
  | [], _, nonempty, _, _ => absurd rfl nonempty
  | [(n, v)], level, _, done, rest => by
    have value := scan_pretty v (level + 1) (.colon :: .text (escaped n) :: done)
      ((Value.indent level).map some ++ some '\x7d' :: rest) (delimited_indent level _)
    simp only [Value.prettyMembers, List.map_append, List.append_assoc, List.map_cons,
      List.map_nil, List.cons_append, List.nil_append, scan_indent, scan_quote]
    rw [scan_mark rfl, scan_blank rfl, value, scan_indent, scan_mark rfl]
    simp [Value.memberTokens]
  | (n, v) :: m :: more, level, _, done, rest => by
    have value := scan_pretty v (level + 1) (.colon :: .text (escaped n) :: done)
      (some ',' :: ((Value.prettyMembers level (m :: more)).map some ++ rest))
      (delimited_cons _ (.inl rfl))
    have others := scan_prettyMembers (m :: more) level (List.cons_ne_nil _ _)
    simp only [Value.prettyMembers_cons_cons, List.map_append, List.append_assoc, List.map_cons,
      List.cons_append, scan_indent, scan_quote]
    rw [scan_mark rfl, scan_blank rfl, value, scan_mark rfl, others]
    simp [Value.memberTokens_cons_cons]

end

theorem scan?_pretty (v : Value) :
    scan? ((v.prettyChars 0 ++ ['\n']).map some) = some v.tokens := by
  have found := scan_pretty v 0 [] [some '\n'] delimited_lineEnding
  rw [scan?, List.map_append, List.map_singleton, found, List.append_nil, scan_lineEnding,
    List.reverse_reverse]

end Token

/-- **What is spread over lines is parsed as the tree of the value.** -/
theorem Node.ofSymbols?_pretty (v : Value) :
    ofSymbols? ((v.prettyChars 0 ++ ['\n']).map some) = some v.toNode :=
  ofSymbols?_of_scan (Token.scan?_pretty v)

end Rehoming.Json
