import Rehoming.Text.Decimal

/-! Addresses of four octets, written as decimal numbers with dots between. -/

namespace Rehoming

structure Ipv4 where
  a : UInt8
  b : UInt8
  c : UInt8
  d : UInt8
  deriving DecidableEq, Inhabited

namespace Ipv4

def octets (ip : Ipv4) : List UInt8 := [ip.a, ip.b, ip.c, ip.d]

def chars (ip : Ipv4) : List Char :=
  ['.'].intercalate (ip.octets.map fun o => Text.Decimal.ofNat o.toNat)

def toText (ip : Ipv4) : String := String.ofList ip.chars

instance : ToString Ipv4 := ⟨toText⟩

/-- A decimal number up to 255 without superfluous zeros. -/
def octet? (cs : List Char) : Option UInt8 :=
  let n := Text.Decimal.toNat cs
  if cs.all Text.Decimal.isDigit && 0 < cs.length && cs.length ≤ 3 && n ≤ 255
      && (cs.length == 1 || cs.head? != some '0') then
    some (UInt8.ofNat n)
  else none

def ofChars? (cs : List Char) : Option Ipv4 :=
  match (cs.splitOn '.').map octet? with
  | [some a, some b, some c, some d] => some ⟨a, b, c, d⟩
  | _ => none

def ofText? (s : String) : Option Ipv4 := ofChars? s.toList

end Ipv4
end Rehoming
