import Rehoming.Text.Utf8
import Rehoming.Text.Decimal

/-! The tokens of a JSON text. A text token keeps what stands between its quotes,
escapes included, and a numeral token keeps its characters: what they mean matters
only where the value is kept. -/

namespace Rehoming.Json

open Text (Symbol)

inductive Token where
  | openObject
  | closeObject
  | openArray
  | closeArray
  | colon
  | comma
  | null
  | bool (value : Bool)
  | numeral (chars : List Char)
  | text (symbols : List Symbol)
  deriving DecidableEq

namespace Token

/-- Digits, at least one. -/
def digits? (cs : List Char) : Option (List Char) :=
  match cs.dropWhile Text.Decimal.isDigit with
  | rest => if rest.length < cs.length then some rest else none

/-- Whether an exponent follows, or nothing. -/
def endsWell : List Char → Bool
  | [] => true
  | e :: rest =>
    (e == 'e' || e == 'E') &&
      match rest with
      | '+' :: ds => digits? ds == some []
      | '-' :: ds => digits? ds == some []
      | ds => digits? ds == some []

/-- Whether a fraction or an exponent follows, or nothing. -/
def endsInteger : List Char → Bool
  | '.' :: ds =>
    match digits? ds with
    | some rest => endsWell rest
    | none => false
  | rest => endsWell rest

/-- Digits without superfluous zeros, a fraction, an exponent; only the digits are
needed. -/
def isUnsigned : List Char → Bool
  | '0' :: rest => endsInteger rest
  | cs =>
    match digits? cs with
    | some rest => endsInteger rest
    | none => false

/-- A sign may stand in front. -/
def isNumeral : List Char → Bool
  | '-' :: rest => isUnsigned rest
  | cs => isUnsigned cs

/-- Where the reader stands: between tokens, or within one, of which the front is
kept in reverse. -/
inductive Mode where
  | between
  | number (front : List Char)
  | word (front : List Char)
  | text (front : List Symbol)
  | escape (front : List Symbol)
  | hex (left : Nat) (front : List Symbol)

def isNumberChar (c : Char) : Bool :=
  Text.Decimal.isDigit c || c == '-' || c == '+' || c == '.' || c == 'e' || c == 'E'

def isLetter (c : Char) : Bool := 'a' ≤ c && c ≤ 'z'

def isHexDigit (c : Char) : Bool :=
  Text.Decimal.isDigit c || ('a' ≤ c && c ≤ 'f') || ('A' ≤ c && c ≤ 'F')

def isBlank (c : Char) : Bool := c == ' ' || c == '\n' || c == '\t' || c == '\r'

/-- The token that a number or a word makes once it has ended. -/
def finish? : Mode → Option (List Token)
  | .between => some []
  | .number front => if isNumeral front.reverse then some [.numeral front.reverse] else none
  | .word front =>
    match front.reverse with
    | ['n', 'u', 'l', 'l'] => some [.null]
    | ['t', 'r', 'u', 'e'] => some [.bool true]
    | ['f', 'a', 'l', 's', 'e'] => some [.bool false]
    | _ => none
  | _ => none

/-- A character between tokens: the mode it leads to, and the token it is. -/
def start? (c : Char) : Option (Mode × List Token) :=
  match c with
  | '{' => some (.between, [.openObject])
  | '}' => some (.between, [.closeObject])
  | '[' => some (.between, [.openArray])
  | ']' => some (.between, [.closeArray])
  | ':' => some (.between, [.colon])
  | ',' => some (.between, [.comma])
  | '"' => some (.text [], [])
  | c =>
    if isBlank c then some (.between, [])
    else if c == '-' || Text.Decimal.isDigit c then some (.number [c], [])
    else if isLetter c then some (.word [c], [])
    else none

/-- One character after a token's front. Control characters and unknown escapes
are refused; which character an escape names is not looked at. -/
def step? (mode : Mode) (s : Symbol) : Option (Mode × List Token) :=
  match mode, s with
  | .text front, some '"' => some (.between, [.text front.reverse])
  | .text front, some '\\' => some (.escape (s :: front), [])
  | .text front, some c => if c.toNat < 0x20 then none else some (.text (s :: front), [])
  | .text front, none => some (.text (none :: front), [])
  | .escape front, some c =>
    if c == 'u' then some (.hex 4 (s :: front), [])
    else if ['"', '\\', '/', 'b', 'f', 'n', 'r', 't'].contains c then
      some (.text (s :: front), [])
    else none
  | .hex left front, some c =>
    if isHexDigit c then
      some (if left ≤ 1 then .text (s :: front) else .hex (left - 1) (s :: front), [])
    else none
  | .number front, some c =>
    if isNumberChar c then some (.number (c :: front), [])
    else do
      let ended ← finish? (.number front)
      let (mode, more) ← start? c
      some (mode, more ++ ended)
  | .word front, some c =>
    if isLetter c then some (.word (c :: front), [])
    else do
      let ended ← finish? (.word front)
      let (mode, more) ← start? c
      some (mode, more ++ ended)
  | .between, some c => start? c
  | _, none => none

/-- The tokens of the symbols, after those in `done`, which are in reverse. -/
def scan (mode : Mode) (done : List Token) : List Symbol → Option (List Token)
  | [] => (finish? mode).map fun ended => (ended ++ done).reverse
  | s :: rest =>
    match step? mode s with
    | some (mode, more) => scan mode (more ++ done) rest
    | none => none

def scan? (symbols : List Symbol) : Option (List Token) := scan .between [] symbols

def hexValue (c : Char) : Nat :=
  if Text.Decimal.isDigit c then c.toNat - 48
  else if 'a' ≤ c then c.toNat - 87
  else c.toNat - 55

def unit (a b c d : Char) : Nat :=
  ((hexValue a * 16 + hexValue b) * 16 + hexValue c) * 16 + hexValue d

def plainEscape (c : Char) : Char :=
  match c with
  | 'b' => '\x08'
  | 'f' => '\x0c'
  | 'n' => '\n'
  | 'r' => '\r'
  | 't' => '\t'
  | c => c

/-- The characters that the content of a text token stands for, after those in
`done`, which are in reverse. Two escapes may name the two halves of one character;
a half that stands alone is refused, and so is a byte that is no character. -/
def unescape (done : List Char) : List Symbol → Option (List Char)
  | [] => some done.reverse
  | some '\\' :: some 'u' :: some a :: some b :: some c :: some d :: rest =>
    let high := unit a b c d
    if 0xD800 ≤ high && high ≤ 0xDBFF then
      match rest with
      | some '\\' :: some 'u' :: some a :: some b :: some c :: some d :: rest =>
        let low := unit a b c d
        if 0xDC00 ≤ low && low ≤ 0xDFFF then
          unescape (Char.ofNat (0x10000 + (high - 0xD800) * 0x400 + (low - 0xDC00)) :: done) rest
        else none
      | _ => none
    else if 0xDC00 ≤ high && high ≤ 0xDFFF then none
    else unescape (Char.ofNat high :: done) rest
  | some '\\' :: some c :: rest => unescape (plainEscape c :: done) rest
  | some c :: rest => unescape (c :: done) rest
  | none :: _ => none

/-- The text that the content of a text token stands for. -/
def decode? (symbols : List Symbol) : Option String := (unescape [] symbols).map String.ofList

end Token
end Rehoming.Json
