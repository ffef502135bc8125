import Rehoming.Json.Value

/-! How JSON values are written: on one line without blanks, or spread over lines
with two blanks a level. -/

namespace Rehoming.Json

namespace Number

/-- From this decimal exponent on a floating-point number is written with one. -/
def largestPlain : Int := 16

/-- Down to this decimal exponent it is not. -/
def smallestPlain : Int := -5

/-- Digits with a point, or with an exponent where the point would be far away. -/
def realChars (x : Binary64) : List Char :=
  let (digits, place) := if x.isZero then (0, 0) else x.shortest
  let ds := Text.Decimal.ofNat digits
  let exponent : Int := place + ds.length - 1
  let body :=
    if exponent < smallestPlain ∨ largestPlain ≤ exponent then
      let tail := ds.drop 1
      ds.take 1 ++ (if tail.isEmpty then [] else '.' :: tail)
        ++ ['e', if exponent < 0 then '-' else '+'] ++ Text.Decimal.ofNat exponent.natAbs
    else if 0 ≤ place then ds ++ List.replicate place.toNat '0' ++ ['.', '0']
    else if exponent < 0 then
      ['0', '.'] ++ List.replicate (exponent.natAbs - 1) '0' ++ ds
    else
      ds.take (exponent.toNat + 1) ++ '.' :: ds.drop (exponent.toNat + 1)
  if x.negative then '-' :: body else body

def chars : Number → List Char
  | .int i => Text.Decimal.ofInt i
  | .real x => realChars x

end Number

namespace Value

def hexDigit (n : Nat) : Char := if n < 10 then Char.ofNat (48 + n) else Char.ofNat (87 + n)

/-- Only quotes, backslashes and control characters are escaped. -/
def escape (c : Char) : List Char :=
  if c = '"' then ['\\', '"']
  else if c = '\\' then ['\\', '\\']
  else if c = '\x08' then ['\\', 'b']
  else if c = '\x0c' then ['\\', 'f']
  else if c = '\n' then ['\\', 'n']
  else if c = '\r' then ['\\', 'r']
  else if c = '\t' then ['\\', 't']
  else if c.toNat < 0x20 then
    ['\\', 'u', '0', '0', hexDigit (c.toNat / 16), hexDigit (c.toNat % 16)]
  else [c]

def quote (s : String) : List Char := '"' :: (s.toList.flatMap escape ++ ['"'])

def scalarChars : Value → List Char
  | .null => ['n', 'u', 'l', 'l']
  | .bool true => ['t', 'r', 'u', 'e']
  | .bool false => ['f', 'a', 'l', 's', 'e']
  | .number n => n.chars
  | .string s => quote s
  | _ => []

mutual

/-- On one line, without blanks. -/
def compactChars : Value → List Char
  | .array items => '[' :: compactItems items
  | .object members => '\x7b' :: compactMembers members
  | v => v.scalarChars

/-- Items up to and with the closing bracket. -/
def compactItems : List Value → List Char
  | [] => [']']
  | [v] => compactChars v ++ [']']
  | v :: rest => compactChars v ++ ',' :: compactItems rest

/-- Members up to and with the closing brace. -/
def compactMembers : List (String × Value) → List Char
  | [] => ['\x7d']
  | [(n, v)] => quote n ++ ':' :: compactChars v ++ ['\x7d']
  | (n, v) :: rest => quote n ++ ':' :: compactChars v ++ ',' :: compactMembers rest

end

def indent (level : Nat) : List Char := '\n' :: List.replicate (2 * level) ' '

mutual

/-- Each item and member on a line of its own, `level` levels in. -/
def prettyChars (level : Nat) : Value → List Char
  | .array [] => ['[', ']']
  | .array items => '[' :: prettyItems level items
  | .object [] => ['\x7b', '\x7d']
  | .object members => '\x7b' :: prettyMembers level members
  | v => v.scalarChars

def prettyItems (level : Nat) : List Value → List Char
  | [] => []
  | [v] => indent (level + 1) ++ prettyChars (level + 1) v ++ indent level ++ [']']
  | v :: rest => indent (level + 1) ++ prettyChars (level + 1) v ++ ',' :: prettyItems level rest

def prettyMembers (level : Nat) : List (String × Value) → List Char
  | [] => []
  | [(n, v)] =>
    indent (level + 1) ++ quote n ++ ':' :: ' ' :: prettyChars (level + 1) v ++ indent level
      ++ ['\x7d']
  | (n, v) :: rest =>
    indent (level + 1) ++ quote n ++ ':' :: ' ' :: prettyChars (level + 1) v
      ++ ',' :: prettyMembers level rest

end

def compact (v : Value) : String := String.ofList v.compactChars

def pretty (v : Value) : String := String.ofList (v.prettyChars 0)

end Value
end Rehoming.Json
