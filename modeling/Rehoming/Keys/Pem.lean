import Rehoming.Base64

/-! Key files in armour: base64 between a line that begins a block and one that
ends it, both with a label. Text may stand before the block, but after it only the
end of its last line. -/

namespace Rehoming.Keys.Pem

private def lf : UInt8 := 10
private def cr : UInt8 := 13

private def beginMark : Bytes := Text.Utf8.ofString "-----BEGIN "
private def endMark : Bytes := Text.Utf8.ofString "-----END "
private def dashes : Bytes := Text.Utf8.ofString "-----"

/-- The bytes from the mark that begins a block on. The mark stands at the start of
a line, and no zero byte comes before it. -/
private def skipPreamble : (lineStart : Bool) → Bytes → Option Bytes
  | _, [] => none
  | lineStart, b :: rest =>
    if lineStart ∧ beginMark.isPrefixOf (b :: rest) then some (b :: rest)
    else if b = 0 then none
    else skipPreamble (b == lf) rest

private def isLabelChar (b : UInt8) : Bool := 0x21 ≤ b && b ≤ 0x7E && b != 0x2D
private def isLabelBlank (b : UInt8) : Bool := b == 0x20 || b == 0x09

/-- Blanks in a label stand alone, and not in front. -/
private def isLabel (bs : Bytes) : Bool :=
  bs.all (fun b => isLabelChar b || isLabelBlank b) && !(bs.head?.any isLabelBlank)
    && !((bs.zip (bs.drop 1)).any fun ab => isLabelBlank ab.1 && isLabelBlank ab.2)

/-- The bytes after the end of a line at the front. -/
private def afterLineEnd : Bytes → Option Bytes
  | 13 :: 10 :: rest => some rest
  | 13 :: rest => some rest
  | 10 :: rest => some rest
  | _ => none

/-- The bytes before the end of a line at the back. -/
private def beforeLineEnd (bs : Bytes) : Option Bytes :=
  match bs.reverse with
  | 10 :: 13 :: rest => some rest.reverse
  | 10 :: rest => some rest.reverse
  | 13 :: rest => some rest.reverse
  | _ => none

private def dropEnd? (tail bs : Bytes) : Option Bytes :=
  if tail.isSuffixOf bs then some (bs.take (bs.length - tail.length)) else none

/-- The content of lines that are exactly `width` wide, but for the last one. -/
private def join (width : Nat) : (fuel : Nat) → (done : List Bytes) → Bytes → Option Bytes
  | 0, _, _ => none
  | fuel + 1, done, bs =>
    if bs.length ≤ width then some (bs :: done).reverse.flatten
    else
      match afterLineEnd (bs.drop width) with
      | some rest => join width fuel (bs.take width :: done) rest
      | none => none

/-- What stands in the block of a text, which must have the given label. -/
def decode? (label : String) (width : Nat) (text : Bytes) : Option Bytes := do
  let block ← skipPreamble true text
  let afterMark := block.drop beginMark.length
  let found := afterMark.takeWhile (· != 0x2D)
  guard (isLabel found ∧ found = Text.Utf8.ofString label)
  let rest := afterMark.drop found.length
  guard (dashes.isPrefixOf rest)
  let body ← afterLineEnd (rest.drop dashes.length)
  let body := (beforeLineEnd body).getD body
  let body ← dropEnd? (endMark ++ found ++ dashes) body
  let body ← beforeLineEnd body
  let symbols ← join width (body.length + 1) [] body
  (Base64.decode symbols).toOption

end Rehoming.Keys.Pem
