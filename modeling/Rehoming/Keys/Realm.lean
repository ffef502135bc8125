import Rehoming.Event
import Rehoming.Keys.Authority

/-! The file of realm keys: a public key on each line. Only RSA keys count, and a
line that is malformed costs nobody else their key. -/

namespace Rehoming.Keys

open Crypto

structure RealmKey where
  fingerprint : String
  key : Rsa.PublicKey
  comment : String
  deriving DecidableEq

namespace RealmKey

/-- What a line of the file turns out to be. Lines are numbered from one. -/
inductive Line where
  | key (key : RealmKey)
  | empty
  /-- A key of a kind that does not matter here. -/
  | foreign (number : Nat) (kind : String)
  | malformed (number : Nat) (error : Error)

def isSegmentChar (c : Char) : Bool :=
  ('A' ≤ c && c ≤ 'Z') || ('a' ≤ c && c ≤ 'z') || Text.Decimal.isDigit c
    || ['+', '-', '/', '=', '@', '.'].contains c

/-- The characters up to a blank, and those after it. -/
def segment? (cs : List Char) : Option (List Char × List Char) :=
  let front := cs.takeWhile isSegmentChar
  match cs.drop front.length with
  | [] => some (front, [])
  | ' ' :: rest => some (front, rest)
  | _ => none

/-- The public key and the comment on a line, without regard to their values. -/
def split? (cs : List Char) : Option (Ssh.RsaPublic × List Char) := do
  let (kind, rest) ← segment? cs
  let (symbols, comment) ← segment? rest
  guard (kind = Ssh.rsaName.toList ∧ !symbols.isEmpty)
  let blob ← (Base64.decode (Text.Utf8.encode symbols)).toOption
  let key ← Ssh.RsaPublic.ofBlob? blob
  some (key, Text.trimEnd comment)

/-- Reads the key on a line that has no blanks around it. -/
def ofLine (cs : List Char) : Except Error RealmKey := do
  match split? cs with
  | none => .error (.invalidKey "realm key: malformed")
  | some (parts, comment) =>
    let modulus ← positive "modulus" parts.modulus
    let exponent ← positive "public exponent" parts.exponent
    let key : Rsa.PublicKey := ⟨modulus, exponent⟩
    match key.checkForeign with
    | .error fault => .error (.invalidKey ("ssh-rsa public key: " ++ fault.message))
    | .ok () => .ok ⟨parts.fingerprint, key, String.ofList comment⟩

/-- The lines of a text; behind the end of the last one no further line begins. -/
def lines (cs : List Char) : List (List Char) :=
  let pieces := cs.splitOn '\n'
  if pieces.getLast? = some [] then pieces.dropLast else pieces

def readLine (number : Nat) (cs : List Char) : Line :=
  let cs := Text.trim cs
  match cs with
  | [] => .empty
  | '#' :: _ => .empty
  | cs =>
    let kind := cs.takeWhile fun c => !Text.isBlank c
    if kind = Ssh.rsaName.toList then
      match ofLine cs with
      | .ok key => .key key
      | .error e => .malformed number e
    else .foreign number (String.ofList kind)

/-- What is reported of a line. -/
def Line.event? : Line → Option Event
  | .foreign number kind => some (.foreignRealmKey number kind)
  | .malformed number error => some (.realmKeySkipped number error)
  | _ => none

/-- What the lines of a file are, in order. -/
def readLines (content : String) : List Line :=
  (lines content.toList).zipIdx.map fun l => readLine (l.2 + 1) l.1

/-- The keys of a file, in order. -/
def ofText (content : String) : List RealmKey :=
  (readLines content).filterMap fun
    | .key key => some key
    | _ => none

/-- The first key with a fingerprint. -/
def find (content fingerprint : String) : Except Error Rsa.PublicKey :=
  match (ofText content).find? fun k => k.fingerprint == fingerprint with
  | some k => .ok k.key
  | none => .error (.invalidKey ("realm key not found: " ++ fingerprint))

end RealmKey
end Rehoming.Keys
