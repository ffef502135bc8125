import Rehoming.Bytes

/-! UTF-8. A byte string is read as a list of symbols: the characters it encodes,
and a mark for each byte that belongs to no character, so that text can be
scanned even where some of its bytes are not valid. Bytes below 0x80 always stand
for themselves, whatever surrounds them. -/

namespace Rehoming.Text

/-- A character, or `none` for a byte that is part of no character. -/
abbrev Symbol := Option Char

namespace Utf8

def encode (cs : List Char) : Bytes := cs.flatMap String.utf8EncodeChar

def ofString (s : String) : Bytes := encode s.toList

def isTail (b : UInt8) : Bool := 0x80 ≤ b && b ≤ 0xBF

def tail (b : UInt8) : Nat := b.toNat % 64

/-- The character at the front of the bytes, with the bytes after it: shortest
form only, no surrogates, nothing above U+10FFFF. -/
def next? : Bytes → Option (Char × Bytes)
  | [] => none
  | a :: rest =>
    if a < 0x80 then some (Char.ofNat a.toNat, rest)
    else if 0xC2 ≤ a && a ≤ 0xDF then
      match rest with
      | b :: rest =>
        if isTail b then some (Char.ofNat (a.toNat % 32 * 64 + tail b), rest) else none
      | _ => none
    else if 0xE0 ≤ a && a ≤ 0xEF then
      match rest with
      | b :: c :: rest =>
        let n := a.toNat % 16 * 4096 + tail b * 64 + tail c
        if isTail b && isTail c && 0x800 ≤ n && !(0xD800 ≤ n && n ≤ 0xDFFF) then
          some (Char.ofNat n, rest)
        else none
      | _ => none
    else if 0xF0 ≤ a && a ≤ 0xF4 then
      match rest with
      | b :: c :: d :: rest =>
        let n := a.toNat % 8 * 262144 + tail b * 4096 + tail c * 64 + tail d
        if isTail b && isTail c && isTail d && 0x10000 ≤ n && n ≤ 0x10FFFF then
          some (Char.ofNat n, rest)
        else none
      | _ => none
    else none

/-- Reads at most `fuel` symbols; `fuel` is the number of bytes. -/
def scan : (fuel : Nat) → Bytes → List Symbol → List Symbol
  | 0, _, done => done.reverse
  | _, [], done => done.reverse
  | fuel + 1, b :: rest, done =>
    match next? (b :: rest) with
    | some (c, rest) => scan fuel rest (some c :: done)
    | none => scan fuel rest (none :: done)

def symbols (bs : Bytes) : List Symbol := scan bs.length bs []

/-- The characters of a list of symbols, unless one is not a character. -/
def characters? (symbols : List Symbol) : Option (List Char) := symbols.mapM id

/-- The text that the bytes encode, if all of them do. -/
def decode? (bs : Bytes) : Option String := (characters? (symbols bs)).map String.ofList

end Utf8
end Rehoming.Text
