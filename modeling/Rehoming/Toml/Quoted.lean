import Rehoming.Text.Decimal

/-! Quoted text in TOML: with escapes between double quotes and without between
single ones, on one line or, between three quotes, on several. Also the keys, which
may be quoted on one line. -/

namespace Rehoming.Toml

def isBlank (c : Char) : Bool := c == ' ' || c == '\t'

/-- What may stand in a comment or between quotes: no control characters but tabs. -/
def isPlain (c : Char) : Bool := c == '\t' || (' ' ≤ c && c != '\x7f')

def skipBlanks (cs : List Char) : List Char := cs.dropWhile isBlank

/-- The text after the end of a line. -/
def newline? : List Char → Option (List Char)
  | '\n' :: rest => some rest
  | '\r' :: '\n' :: rest => some rest
  | _ => none

namespace Quoted

private def hexValue? (c : Char) : Option Nat :=
  if Text.Decimal.isDigit c then some (c.toNat - 48)
  else if 'a' ≤ c ∧ c ≤ 'f' then some (c.toNat - 87)
  else if 'A' ≤ c ∧ c ≤ 'F' then some (c.toNat - 55)
  else none

/-- The character with a number in hexadecimal digits. -/
private def scalar? (digits : List Char) : Option Char := do
  let values ← digits.mapM hexValue?
  let n := values.foldl (fun n v => 16 * n + v) 0
  if n.isValidChar then some (Char.ofNat n) else none

/-- The character that an escape of one letter stands for. -/
private def letterEscape? (c : Char) : Option Char :=
  match c with
  | 'b' => some '\x08'
  | 't' => some '\t'
  | 'n' => some '\n'
  | 'f' => some '\x0c'
  | 'r' => some '\r'
  | '"' => some '"'
  | '\\' => some '\\'
  | _ => none

/-- The character of an escape, and the text after it. -/
def escape? : List Char → Option (Char × List Char)
  | 'u' :: rest =>
    if rest.length < 4 then none else (scalar? (rest.take 4)).map fun c => (c, rest.drop 4)
  | 'U' :: rest =>
    if rest.length < 8 then none else (scalar? (rest.take 8)).map fun c => (c, rest.drop 8)
  | c :: rest => (letterEscape? c).map fun c => (c, rest)
  | [] => none

/-- The rest of a text on one line, with what follows the quote that ends it. -/
def line? (quote : Char) :
    (fuel : Nat) → (done : List Char) → List Char → Option (String × List Char)
  | 0, _, _ => none
  | _, _, [] => none
  | fuel + 1, done, c :: rest =>
    if c = quote then some (String.ofList done.reverse, rest)
    else if c = '\\' ∧ quote = '"' then
      match escape? rest with
      | some (c, rest) => line? quote fuel (c :: done) rest
      | none => none
    else if isPlain c then line? quote fuel (c :: done) rest
    else none

/-- The text from the next character on that is neither a blank nor ends a line,
if a line ends before that. -/
def continued? (fuel : Nat) (cs : List Char) : Option (List Char) :=
  let rec skip : Nat → List Char → List Char
    | 0, cs => cs
    | fuel + 1, cs =>
      match newline? (skipBlanks cs) with
      | some rest => skip fuel rest
      | none => skipBlanks cs
  (newline? (skipBlanks cs)).map (skip fuel)

/-- The rest of a text on several lines. Of up to five quotes that end it, all but
three belong to the text. -/
def lines? (quote : Char) :
    (fuel : Nat) → (done : List Char) → List Char → Option (String × List Char)
  | 0, _, _ => none
  | _, _, [] => none
  | fuel + 1, done, c :: rest =>
    let quotes := ((c :: rest).takeWhile (· == quote)).length
    if 3 ≤ quotes then
      let extra := min (quotes - 3) 2
      some (String.ofList (done.reverse ++ List.replicate extra quote), rest.drop (extra + 2))
    else if c = '\\' ∧ quote = '"' then
      match escape? rest with
      | some (c, rest) => lines? quote fuel (c :: done) rest
      | none =>
        match continued? fuel rest with
        | some rest => lines? quote fuel done rest
        | none => none
    else if isPlain c then lines? quote fuel (c :: done) rest
    else
      match newline? (c :: rest) with
      | some rest => lines? quote fuel ('\n' :: done) rest
      | none => none

/-- A text of either kind. A line end right after three opening quotes is no part
of it. -/
def read? : List Char → Option (String × List Char)
  | [] => none
  | quote :: cs =>
    if quote ≠ '"' ∧ quote ≠ '\'' then none
    else if [quote, quote].isPrefixOf cs then
      let body := cs.drop 2
      lines? quote (cs.length + 1) [] ((newline? body).getD body)
    else line? quote (cs.length + 1) [] cs

end Quoted

/-! ## Keys -/

private def isBareKeyChar (c : Char) : Bool :=
  Text.Decimal.isDigit c || ('a' ≤ c && c ≤ 'z') || ('A' ≤ c && c ≤ 'Z') || c == '_' || c == '-'

/-- A single key. -/
def key? : List Char → Option (String × List Char)
  | [] => none
  | c :: rest =>
    if c = '"' ∨ c = '\'' then Quoted.line? c (rest.length + 1) [] rest
    else
      let name := (c :: rest).takeWhile isBareKeyChar
      if name.isEmpty then none
      else some (String.ofList name, (c :: rest).dropWhile isBareKeyChar)

/-- Keys with dots between, and blanks around them. -/
private def keys? : (fuel : Nat) → List Char → Option (List String × List Char)
  | 0, _ => none
  | fuel + 1, cs => do
    let (name, rest) ← key? (skipBlanks cs)
    match skipBlanks rest with
    | '.' :: rest =>
      let (names, rest) ← keys? fuel rest
      some (name :: names, rest)
    | rest => some ([name], rest)

/-- So deep may values nest, and so long may the path to a value be. -/
def depthLimit : Nat := 80

/-- The path to a value: all keys but the last, and the last. -/
def path? (cs : List Char) : Option (List String × String × List Char) := do
  let (names, rest) ← keys? (cs.length + 1) cs
  let last ← names.getLast?
  if names.length < depthLimit then some (names.dropLast, last, rest) else none

end Rehoming.Toml
