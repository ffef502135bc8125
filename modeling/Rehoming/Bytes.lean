/-! Byte strings as lists, with fixed-width numbers in both byte orders and
hexadecimal text. Lists keep every definition below open to induction; the
compiled list operations run in constant stack. -/

namespace Rehoming

abbrev Bytes := List UInt8

namespace Bytes

/-- The lowest `width` base-256 digits of `n`, least significant first. -/
def ofNatLE : (width n : Nat) → Bytes
  | 0, _ => []
  | width + 1, n => UInt8.ofNat n :: ofNatLE width (n / 256)

/-- The lowest `width` base-256 digits of `n`, most significant first. -/
def ofNatBE (width n : Nat) : Bytes := (ofNatLE width n).reverse

def toNatLE (bs : Bytes) : Nat := bs.foldr (fun b n => b.toNat + 256 * n) 0

def toNatBE (bs : Bytes) : Nat := bs.foldl (fun n b => 256 * n + b.toNat) 0

theorem length_ofNatLE (width n : Nat) : (ofNatLE width n).length = width := by
  induction width generalizing n with
  | zero => rfl
  | succ width ih => simp [ofNatLE, ih]

theorem length_ofNatBE (width n : Nat) : (ofNatBE width n).length = width := by
  simp [ofNatBE, length_ofNatLE]

theorem toNatLE_cons (b : UInt8) (bs : Bytes) :
    toNatLE (b :: bs) = b.toNat + 256 * toNatLE bs := rfl

theorem toNatLE_ofNatLE (width n : Nat) : toNatLE (ofNatLE width n) = n % (1 <<< (8 * width)) := by
  induction width generalizing n with
  | zero => simp [ofNatLE, toNatLE, Nat.mod_one]
  | succ width ih =>
    have shift : 1 <<< (8 * (width + 1)) = 256 * (1 <<< (8 * width)) := by
      rw [Nat.mul_succ, Nat.shiftLeft_add, Nat.shiftLeft_eq _ 8, Nat.mul_comm]
    rw [ofNatLE, toNatLE_cons, ih, shift, Nat.mod_mul]
    simp

/-- The number of base-256 digits that `n` needs; zero needs none. -/
def width (n : Nat) : Nat := if n = 0 then 0 else n.log2 / 8 + 1

/-- The shortest big-endian digits of `n`. -/
def ofNat (n : Nat) : Bytes := ofNatBE (width n) n

/-- Bytes combined pairwise; the result is as long as the shorter operand. -/
def xor (a b : Bytes) : Bytes := List.zipWith (· ^^^ ·) a b

theorem xor_xor_cancel (a k : Bytes) (h : a.length ≤ k.length) : xor (xor a k) k = a := by
  induction a generalizing k with
  | nil => simp [xor]
  | cons x a ih =>
    match k with
    | [] => simp at h
    | y :: k =>
      have tail : xor (xor a k) k = a := ih k (by simpa using h)
      have head : (x ^^^ y) ^^^ y = x := by rw [UInt8.xor_assoc, UInt8.xor_self, UInt8.xor_zero]
      exact List.cons_eq_cons.2 ⟨head, tail⟩

/-- The bytes cut into pieces of `size`, the last one possibly shorter. -/
def chunks (size : Nat) (bs : Bytes) : List Bytes :=
  (List.range ((bs.length + size - 1) / size)).foldl
    (fun (st : List Bytes × Bytes) _ => (st.2.take size :: st.1, st.2.drop size)) ([], bs)
    |>.1.reverse

/-- Little-endian 32-bit words; a last piece below four bytes is dropped. -/
def words32LE : Bytes → List UInt32
  | a :: b :: c :: d :: rest =>
    (a.toUInt32 ||| b.toUInt32 <<< 8 ||| c.toUInt32 <<< 16 ||| d.toUInt32 <<< 24) :: words32LE rest
  | _ => []

/-- Big-endian 32-bit words; a last piece below four bytes is dropped. -/
def words32BE : Bytes → List UInt32
  | a :: b :: c :: d :: rest =>
    (a.toUInt32 <<< 24 ||| b.toUInt32 <<< 16 ||| c.toUInt32 <<< 8 ||| d.toUInt32) :: words32BE rest
  | _ => []

def ofWord32LE (w : UInt32) : Bytes :=
  [w.toUInt8, (w >>> 8).toUInt8, (w >>> 16).toUInt8, (w >>> 24).toUInt8]

def ofWord32BE (w : UInt32) : Bytes :=
  [(w >>> 24).toUInt8, (w >>> 16).toUInt8, (w >>> 8).toUInt8, w.toUInt8]

private def hexDigit (n : Nat) : Char :=
  if n < 10 then Char.ofNat (48 + n) else Char.ofNat (87 + n)

private def hexValue (c : Char) : Option Nat :=
  if '0' ≤ c ∧ c ≤ '9' then some (c.toNat - 48)
  else if 'a' ≤ c ∧ c ≤ 'f' then some (c.toNat - 87)
  else none

/-- Two lowercase hexadecimal digits a byte. -/
def toHex (bs : Bytes) : String :=
  String.ofList (bs.flatMap fun b => [hexDigit (b.toNat / 16), hexDigit (b.toNat % 16)])

/-- Reads lowercase hexadecimal digits in pairs. -/
def ofHex? (s : String) : Option Bytes :=
  let rec pairs : List Char → Bytes → Option Bytes
    | [], done => some done.reverse
    | [_], _ => none
    | a :: b :: rest, done =>
      match hexValue a, hexValue b with
      | some x, some y => pairs rest (UInt8.ofNat (16 * x + y) :: done)
      | _, _ => none
  pairs s.toList []

end Bytes
end Rehoming
