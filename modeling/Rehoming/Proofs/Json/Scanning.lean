import Rehoming.Json.Printer
import Rehoming.Proofs.Json.Reals

/-! Scanning what was written on one line: the scanner finds the tokens that the value
was written as. A number or a word ends where the next token starts, so what follows a
value matters; what follows an item or a member does not. -/

namespace Rehoming.Json

open Text (Symbol)

/-- What stands between the quotes of a text. -/
def escaped (s : String) : List Symbol := (s.toList.flatMap Value.escape).map some

namespace Value

mutual

/-- The tokens of a value as it is written. -/
def tokens : Value → List Token
  | .null => [.null]
  | .bool b => [.bool b]
  | .number n => [.numeral n.chars]
  | .string s => [.text (escaped s)]
  | .array items => .openArray :: itemTokens items
  | .object members => .openObject :: memberTokens members

/-- The tokens of items up to and with the closing bracket. -/
def itemTokens : List Value → List Token
  | [] => [.closeArray]
  | [v] => tokens v ++ [.closeArray]
  | v :: rest => tokens v ++ .comma :: itemTokens rest

/-- The tokens of members up to and with the closing brace. -/
def memberTokens : List (String × Value) → List Token
  | [] => [.closeObject]
  | [(n, v)] => .text (escaped n) :: .colon :: tokens v ++ [.closeObject]
  | (n, v) :: rest => .text (escaped n) :: .colon :: tokens v ++ .comma :: memberTokens rest

end

theorem compactItems_cons_cons (v w : Value) (more : List Value) :
    compactItems (v :: w :: more) = compactChars v ++ ',' :: compactItems (w :: more) := rfl

theorem itemTokens_cons_cons (v w : Value) (more : List Value) :
    itemTokens (v :: w :: more) = tokens v ++ .comma :: itemTokens (w :: more) := rfl

theorem compactMembers_cons_cons (n : String) (v : Value) (m : String × Value)
    (more : List (String × Value)) : compactMembers ((n, v) :: m :: more) =
      quote n ++ ':' :: compactChars v ++ ',' :: compactMembers (m :: more) := rfl

theorem memberTokens_cons_cons (n : String) (v : Value) (m : String × Value)
    (more : List (String × Value)) : memberTokens ((n, v) :: m :: more) =
      .text (escaped n) :: .colon :: tokens v ++ .comma :: memberTokens (m :: more) := rfl

end Value

namespace Token

/-! ## Texts -/

theorem isHexDigit_hexDigit : ∀ n, n < 16 → isHexDigit (Value.hexDigit n) = true := by decide

/-- However a character is escaped, it becomes part of the text. -/
theorem scan_escape (c : Char) (front : List Symbol) (done : List Token) (rest : List Symbol) :
    scan (.text front) done ((Value.escape c).map some ++ rest) =
      scan (.text (((Value.escape c).map some).reverse ++ front)) done rest := by
  unfold Value.escape
  split
  · rfl
  split
  · rfl
  split
  · rfl
  split
  · rfl
  split
  · rfl
  split
  · rfl
  split
  · rfl
  split
  · have high := isHexDigit_hexDigit (c.toNat / 16) (by omega)
    have low := isHexDigit_hexDigit (c.toNat % 16) (by omega)
    simp only [List.map_cons, List.map_nil, List.cons_append, List.nil_append, scan]
    simp [step?, high, low, show isHexDigit '0' = true from rfl]
  · rename_i quote slash _ _ _ _ _ control
    have step : step? (.text front) (some c) = some (.text (some c :: front), []) := by
      rw [step?.eq_def]
      split <;> simp_all
    simp only [List.map_cons, List.map_nil, List.cons_append, List.nil_append, scan, step]
    rfl

theorem scan_escapes (cs : List Char) (front : List Symbol) (done : List Token)
    (rest : List Symbol) :
    scan (.text front) done ((cs.flatMap Value.escape).map some ++ rest) =
      scan (.text (((cs.flatMap Value.escape).map some).reverse ++ front)) done rest := by
  induction cs generalizing front with
  | nil => rfl
  | cons c cs ih =>
    rw [List.flatMap_cons, List.map_append, List.append_assoc, scan_escape, ih,
      List.reverse_append, List.append_assoc]

theorem scan_quote (s : String) (done : List Token) (rest : List Symbol) :
    scan .between done ((Value.quote s).map some ++ rest) =
      scan .between (.text (escaped s) :: done) rest := by
  have start : scan .between done ((Value.quote s).map some ++ rest) =
      scan (.text []) done ((s.toList.flatMap Value.escape).map some ++ (some '"' :: rest)) := by
    simp only [Value.quote, List.map_cons, List.map_append, List.cons_append, List.append_assoc]
    rfl
  rw [start, scan_escapes, List.append_nil]
  show scan .between ([.text (escaped s).reverse.reverse] ++ done) rest = _
  rw [List.reverse_reverse, List.singleton_append]

/-! ## Numbers and words -/

/-- What may stand behind a value: nothing, or a character that ends it. -/
def Delimited (rest : List Symbol) : Prop :=
  rest = [] ∨ ∃ c more, rest = some c :: more ∧ (c = ',' ∨ c = ']' ∨ c = '\x7d' ∨ c = '\n')

theorem delimited_cons {c : Char} (more : List Symbol)
    (h : c = ',' ∨ c = ']' ∨ c = '\x7d' ∨ c = '\n') : Delimited (some c :: more) :=
  .inr ⟨c, more, rfl, h⟩

theorem scan_number {cs : List Char} (h : ∀ c ∈ cs, isNumberChar c = true) (front : List Char)
    (done : List Token) (rest : List Symbol) :
    scan (.number front) done (cs.map some ++ rest) =
      scan (.number (cs.reverse ++ front)) done rest := by
  induction cs generalizing front with
  | nil => rfl
  | cons c cs ih =>
    have here := h c List.mem_cons_self
    rw [List.map_cons, List.cons_append, scan, step?, if_pos here]
    dsimp only
    rw [List.nil_append, ih fun d hd => h d (List.mem_cons_of_mem _ hd), List.reverse_cons,
      List.append_assoc]
    rfl

/-- A number ends where the next token starts. -/
theorem scan_number_end {front : List Char} (numeral : isNumeral front.reverse = true)
    (done : List Token) {rest : List Symbol} (stop : Delimited rest) :
    scan (.number front) done rest = scan .between (.numeral front.reverse :: done) rest := by
  have ended : finish? (.number front) = some [.numeral front.reverse] := by
    rw [finish?, if_pos numeral]
  rcases stop with rfl | ⟨c, more, rfl, rfl | rfl | rfl | rfl⟩
  · rw [scan, ended]
    rfl
  all_goals
    rw [scan, step?, if_neg (by decide), ended]
    rfl

/-- A word ends where the next token starts. -/
theorem scan_word_end {front : List Char} {token : Token}
    (ended : finish? (.word front) = some [token]) (done : List Token) {rest : List Symbol}
    (stop : Delimited rest) :
    scan (.word front) done rest = scan .between (token :: done) rest := by
  rcases stop with rfl | ⟨c, more, rfl, rfl | rfl | rfl | rfl⟩
  · rw [scan, ended]
    rfl
  all_goals
    rw [scan, step?, if_neg (by decide), ended]
    rfl

theorem start?_number {c : Char} (h : c = '-' ∨ Text.Decimal.isDigit c = true) :
    start? c = some (.number [c], []) := by
  rcases h with rfl | digit
  · rfl
  · have solid : isBlank c = false := by
      rw [← Bool.not_eq_true]
      intro blank
      simp only [isBlank, Bool.or_eq_true, beq_iff_eq] at blank
      rcases blank with ((rfl | rfl) | rfl) | rfl <;> exact absurd digit (by decide)
    rw [start?.eq_def]
    -- no digit is among the characters that are tokens by themselves
    split
    all_goals first
      | exact absurd digit (by decide)
      | skip
    simp [solid, digit]

theorem scan_parts {p : Numeral.Parts} (h : p.WellFormed) (done : List Token)
    {rest : List Symbol} (stop : Delimited rest) :
    scan .between done (p.chars.map some ++ rest) =
      scan .between (.numeral p.chars :: done) rest := by
  obtain ⟨c, cs, made, first⟩ := h.chars_eq_cons
  have chars := h.isNumberChar_chars
  have numeral := h.isNumeral_chars
  rw [made] at chars numeral ⊢
  have start : scan .between done ((c :: cs).map some ++ rest) =
      scan (.number [c]) done (cs.map some ++ rest) := by
    rw [List.map_cons, List.cons_append, scan, step?, start?_number first]
    rfl
  rw [start, scan_number (fun d hd => chars d (List.mem_cons_of_mem _ hd)),
    scan_number_end (by simpa using numeral) done stop]
  simp

theorem scan_numeral (n : Number) (done : List Token) {rest : List Symbol}
    (stop : Delimited rest) :
    scan .between done (n.chars.map some ++ rest) = scan .between (.numeral n.chars :: done) rest := by
  rw [← n.chars_parts]
  exact scan_parts n.parts_wellFormed done stop

/-! ## Values -/

theorem scan_word (v : Value) (h : v = .null ∨ v = .bool true ∨ v = .bool false)
    (done : List Token) {rest : List Symbol} (stop : Delimited rest) :
    scan .between done (v.compactChars.map some ++ rest) =
      scan .between (v.tokens.reverse ++ done) rest := by
  rcases h with rfl | rfl | rfl
  · show scan (.word ['l', 'l', 'u', 'n']) done rest = _
    exact scan_word_end rfl done stop
  · show scan (.word ['e', 'u', 'r', 't']) done rest = _
    exact scan_word_end rfl done stop
  · show scan (.word ['e', 's', 'l', 'a', 'f']) done rest = _
    exact scan_word_end rfl done stop

/-- A character that is a token by itself. -/
theorem scan_mark {c : Char} {token : Token} (h : start? c = some (.between, [token]))
    (done : List Token) (rest : List Symbol) :
    scan .between done (some c :: rest) = scan .between (token :: done) rest := by
  rw [scan, step?, h]
  rfl

mutual

/-- The scanner finds the tokens of a value and goes on behind it. -/
theorem scan_compact : ∀ (v : Value) (done : List Token) (rest : List Symbol), Delimited rest →
    scan .between done (v.compactChars.map some ++ rest) =
      scan .between (v.tokens.reverse ++ done) rest
  | .null, done, _, stop => scan_word _ (.inl rfl) done stop
  | .bool true, done, _, stop => scan_word _ (.inr (.inl rfl)) done stop
  | .bool false, done, _, stop => scan_word _ (.inr (.inr rfl)) done stop
  | .number n, done, _, stop => scan_numeral n done stop
  | .string s, done, rest, _ => scan_quote s done rest
  | .array items, done, rest, _ => by
    have items := scan_items items (.openArray :: done) rest
    rw [Value.compactChars, List.map_cons, List.cons_append, scan_mark rfl, items,
      Value.tokens, List.reverse_cons, List.append_assoc]
    rfl
  | .object members, done, rest, _ => by
    have members := scan_members members (.openObject :: done) rest
    rw [Value.compactChars, List.map_cons, List.cons_append, scan_mark rfl, members,
      Value.tokens, List.reverse_cons, List.append_assoc]
    rfl

theorem scan_items : ∀ (items : List Value) (done : List Token) (rest : List Symbol),
    scan .between done ((Value.compactItems items).map some ++ rest) =
      scan .between ((Value.itemTokens items).reverse ++ done) rest
  | [], done, rest => scan_mark rfl done rest
  | [v], done, rest => by
    have value := scan_compact v done (some ']' :: rest)
      (delimited_cons rest (.inr (.inl rfl)))
    rw [Value.compactItems, List.map_append, List.append_assoc, List.map_singleton,
      List.singleton_append, value, scan_mark rfl, Value.itemTokens, List.reverse_append]
    rfl
  | v :: w :: more, done, rest => by
    have value := scan_compact v done
      (some ',' :: ((Value.compactItems (w :: more)).map some ++ rest))
      (delimited_cons _ (.inl rfl))
    have others := scan_items (w :: more)
    rw [Value.compactItems_cons_cons, List.map_append, List.append_assoc, List.map_cons,
      List.cons_append, value, scan_mark rfl, others, Value.itemTokens_cons_cons,
      List.reverse_append, List.reverse_cons]
    simp only [List.append_assoc, List.cons_append, List.nil_append]

theorem scan_members : ∀ (members : List (String × Value)) (done : List Token)
    (rest : List Symbol),
    scan .between done ((Value.compactMembers members).map some ++ rest) =
      scan .between ((Value.memberTokens members).reverse ++ done) rest
  | [], done, rest => scan_mark rfl done rest
  | [(n, v)], done, rest => by
    have value := scan_compact v (.colon :: .text (escaped n) :: done) (some '\x7d' :: rest)
      (delimited_cons rest (.inr (.inr (.inl rfl))))
    rw [Value.compactMembers, List.append_assoc, List.map_append, List.append_assoc, scan_quote,
      List.cons_append, List.map_cons, List.cons_append, scan_mark rfl, List.map_append,
      List.append_assoc, List.map_singleton, List.singleton_append, value, scan_mark rfl]
    simp [Value.memberTokens]
  | (n, v) :: m :: more, done, rest => by
    have value := scan_compact v (.colon :: .text (escaped n) :: done)
      (some ',' :: ((Value.compactMembers (m :: more)).map some ++ rest))
      (delimited_cons _ (.inl rfl))
    have others := scan_members (m :: more)
    rw [Value.compactMembers_cons_cons, List.append_assoc, List.map_append, List.append_assoc,
      scan_quote, List.cons_append, List.map_cons, List.cons_append, scan_mark rfl,
      List.map_append, List.append_assoc, List.map_cons, List.cons_append, value, scan_mark rfl,
      others]
    simp [Value.memberTokens_cons_cons]

end

/-- **What is written on one line is scanned as its tokens.** -/
theorem scan?_compact (v : Value) :
    scan? (v.compactChars.map some) = some v.tokens := by
  have found := scan_compact v [] [] (.inl rfl)
  rw [List.append_nil, List.append_nil] at found
  rw [scan?, found]
  simp [scan, finish?]

/-- A line ending is a blank: it leads back to where tokens begin. -/
theorem scan_lineEnding (done : List Token) : scan .between done [some '\n'] = some done.reverse :=
  rfl

theorem delimited_lineEnding : Delimited [some '\n'] :=
  delimited_cons [] (.inr (.inr (.inr rfl)))

theorem scan?_line (v : Value) :
    scan? ((v.compactChars ++ ['\n']).map some) = some v.tokens := by
  have found := scan_compact v [] [some '\n'] delimited_lineEnding
  rw [scan?, List.map_append, List.map_singleton, found, List.append_nil, scan_lineEnding,
    List.reverse_reverse]

end Token
end Rehoming.Json
