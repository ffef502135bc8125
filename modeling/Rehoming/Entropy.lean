import Rehoming.Crypto.Sha256

/-! Random bytes as a value. A source gives as many bytes as one asks for, always
the same ones, and splits into numbered sources whose bytes have nothing to do
with each other: whoever seals several things gives each of them its own. -/

namespace Rehoming

structure Entropy where
  seed : Bytes
  deriving DecidableEq

namespace Entropy

def bytes (e : Entropy) (count : Nat) : Bytes :=
  ((List.range ((count + 31) / 32)).flatMap fun i =>
    Crypto.Sha256.digest (0 :: (Bytes.ofNatBE 8 i ++ e.seed))).take count

def child (e : Entropy) (i : Nat) : Entropy :=
  ⟨Crypto.Sha256.digest (1 :: (Bytes.ofNatBE 8 i ++ e.seed))⟩

end Entropy
end Rehoming
