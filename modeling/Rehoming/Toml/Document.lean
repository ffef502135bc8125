import Rehoming.Toml.Quoted
import Rehoming.Toml.Scalar
import Rehoming.Toml.Table

/-! Reading TOML documents. -/

namespace Rehoming.Toml

/-- The text after the blanks, line ends and comments at the front. -/
def skipVoid : (comment : Bool) → List Char → List Char
  | _, [] => []
  | comment, c :: rest =>
    if c = '\n' ∨ (c = '\r' ∧ rest.head? = some '\n') then skipVoid false rest
    else if comment then if isPlain c then skipVoid true rest else c :: rest
    else if isBlank c then skipVoid false rest
    else if c = '#' then skipVoid true rest
    else c :: rest

/-- The text of the next line, if nothing but blanks and a comment are left of this
one. -/
def nextLine? (cs : List Char) : Option (List Char) :=
  let rest :=
    match skipBlanks cs with
    | '#' :: rest => rest.dropWhile isPlain
    | rest => rest
  if rest.isEmpty then some [] else newline? rest

/-- A value that is a word or a number. A blank may stand between date and time. -/
private def scalar? (cs : List Char) : Option (Value × List Char) :=
  let word := cs.takeWhile Scalar.isScalarChar
  let rest := cs.dropWhile Scalar.isScalarChar
  if word = ['t', 'r', 'u', 'e'] then some (.bool true, rest)
  else if word = ['f', 'a', 'l', 's', 'e'] then some (.bool false, rest)
  else if Scalar.afterDate? word = some [] then
    match rest with
    | ' ' :: more =>
      if Scalar.isTimeOfDate (more.takeWhile Scalar.isScalarChar) then
        some (.dateTime, more.dropWhile Scalar.isScalarChar)
      else some (.dateTime, rest)
    | _ => some (.dateTime, rest)
  else if Scalar.isDateTime word then some (.dateTime, rest)
  else
    match Scalar.int? word with
    | some i => some (.integer i, rest)
    | none => if Scalar.isFloat word then some (.float, rest) else none

mutual

/-- A value, where `depth` arrays and inline tables are open. -/
private def value? : (fuel depth : Nat) → List Char → Option (Value × List Char)
  | 0, _, _ => none
  | fuel + 1, depth, cs =>
    match cs with
    | '[' :: rest =>
      if depth + 1 < depthLimit then items? fuel (depth + 1) [] (skipVoid false rest) else none
    | '{' :: rest =>
      if depth + 1 < depthLimit then
        match skipBlanks rest with
        | '}' :: rest => some (.table .inline [], rest)
        | _ => members? fuel (depth + 1) [] rest
      else none
    | c :: _ =>
      if c = '"' ∨ c = '\'' then (Quoted.read? cs).map fun r => (.string r.1, r.2)
      else scalar? cs
    | [] => none

/-- Items up to the bracket that ends them; a comma may follow the last one. -/
private def items? :
    (fuel depth : Nat) → (done : List Value) → List Char → Option (Value × List Char)
  | 0, _, _, _ => none
  | _, _, done, ']' :: rest => some (.array done.reverse, rest)
  | fuel + 1, depth, done, cs => do
    let (value, rest) ← value? fuel depth cs
    match skipVoid false rest with
    | ',' :: rest => items? fuel depth (value :: done) (skipVoid false rest)
    | ']' :: rest => some (.array (value :: done).reverse, rest)
    | _ => none

/-- Members up to the brace that ends them. -/
private def members? :
    (fuel depth : Nat) → (done : Members) → List Char → Option (Value × List Char)
  | 0, _, _, _ => none
  | fuel + 1, depth, done, cs => do
    let (path, name, rest) ← path? cs
    match rest with
    | '=' :: rest =>
      let (value, rest) ← value? fuel depth (skipBlanks rest)
      let done ← done.define? .inlineDotted path name value
      match skipBlanks rest with
      | ',' :: rest => members? fuel depth done rest
      | '}' :: rest => some (.table .inline done, rest)
      | _ => none
    | _ => none

end

/-- Reads statements line by line. The header is the path of the last one. -/
private def statements? :
    (fuel : Nat) → (header : List String) → Members → List Char → Option Members
  | 0, _, _, _ => none
  | fuel + 1, header, root, cs =>
    match skipBlanks cs with
    | [] => some root
    | '[' :: '[' :: rest => do
      let (path, name, rest) ← path? rest
      match rest with
      | ']' :: ']' :: rest =>
        statements? fuel (path ++ [name]) (← root.appendTable? path name) (← nextLine? rest)
      | _ => none
    | '[' :: rest => do
      let (path, name, rest) ← path? rest
      match rest with
      | ']' :: rest =>
        statements? fuel (path ++ [name]) (← root.openTable? path name) (← nextLine? rest)
      | _ => none
    | cs =>
      match nextLine? cs with
      | some rest => statements? fuel header root rest
      | none => do
        let (path, name, rest) ← path? cs
        match rest with
        | '=' :: rest =>
          let (value, rest) ← value? (2 * rest.length + 2) 0 (skipBlanks rest)
          statements? fuel header (← root.defineBelow? header path name value) (← nextLine? rest)
        | _ => none

/-- The members of a document. A byte order mark may stand in front. -/
def ofText? (text : String) : Option Members :=
  let cs :=
    match text.toList with
    | '\ufeff' :: rest => rest
    | cs => cs
  statements? (cs.length + 1) [] [] cs

end Rehoming.Toml
