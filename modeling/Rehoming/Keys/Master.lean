import Rehoming.Error
import Rehoming.Json.Record
import Rehoming.Json.Printer
import Rehoming.Base64
import Rehoming.Crypto.Curve25519
import Rehoming.Crypto.Salsa20
import Rehoming.Crypto.Blake2b
import Rehoming.Entropy

/-! The master key pair, the keys of routers, and the boxes that secrets are sealed
in. Anyone can seal a box for a public key; the sender's key is made for that one
box, and only the private half of the recipient's key opens it. -/

namespace Rehoming.Keys

open Crypto

/-- Keys of both halves have this many bytes. -/
def boxKeySize : Nat := 32

/-- What `text` encodes in base64, which is named `what` where that fails. -/
def decodeField (text what : String) : Except Error Bytes :=
  match Base64.decodeText text with
  | .ok bytes => .ok bytes
  | .error fault => .error (.encoding ("base64 " ++ what ++ ": " ++ fault.message))

/-- Key bytes, which must have the size of a key. -/
def keyBytes (bytes : Bytes) (what : String) : Except Error Bytes :=
  if bytes.length = boxKeySize then .ok bytes
  else .error (.invalidKey s!"{what}: expected {boxKeySize} bytes, got {bytes.length}")

/-- The public key of a router, which brigades that it serves are sealed to. -/
structure RouterKey where
  bytes : Bytes
  deriving DecidableEq, Inhabited

namespace RouterKey

def ofText (text : String) : Except Error RouterKey := do
  let bytes ← decodeField text "router public key"
  return ⟨← keyBytes bytes "router public key"⟩

def toText (key : RouterKey) : String := Base64.encodeText key.bytes

def describe (key : RouterKey) : String := "RouterKey(\"" ++ key.toText ++ "\")"

end RouterKey

/-- A key pair; incoming secrets are sealed to the public half of the master's. -/
structure MasterKey where
  secret : Bytes
  publicKey : RouterKey
  deriving DecidableEq

namespace MasterKey

def ofSecret (secret : Bytes) : MasterKey := ⟨secret, ⟨Curve25519.publicOf secret⟩⟩

def generate (entropy : Entropy) : MasterKey := ofSecret (entropy.bytes boxKeySize)

open Json in
private def halves : Reader (String × String) := fun depth node => do
  let fields ← Fields.read ["public", "private"] depth node
  let publicHalf ← fields.required depth "public" Reader.text
  let privateHalf ← fields.required depth "private" Reader.text
  some (publicHalf, privateHalf)

/-- Reads the two halves of a pair, which must belong together. -/
def ofJson (text : String) : Except Error MasterKey := do
  match (Json.Node.ofString? text).bind (Json.Reader.run halves) with
  | none => .error (.invalidKey "master key pair: malformed")
  | some (publicHalf, privateHalf) =>
    let secret ← keyBytes (← decodeField privateHalf "master private key") "master private key"
    let stated ← keyBytes (← decodeField publicHalf "master public key") "master public key"
    let key := ofSecret secret
    if key.publicKey.bytes = stated then .ok key
    else .error (.invalidKey "master key pair: public key does not match private key")

def toJson (key : MasterKey) : String :=
  (Json.Value.object [("public", .string key.publicKey.toText),
    ("private", .string (Base64.encodeText key.secret))]).pretty

/-- What is shown of a pair: never its secret half. -/
def describe (key : MasterKey) : String :=
  "MasterKeypair \x7b public: \"" ++ key.publicKey.toText ++ "\", secret: \"[REDACTED]\" \x7d"

end MasterKey

namespace SealedBox

/-- The key of the box between a secret and a public value. -/
def boxKey (secret publicValue : Bytes) : Bytes :=
  Salsa20.subkey (Curve25519.agree secret publicValue) (List.replicate 16 0)

/-- The nonce follows from the two public values. -/
def nonce (sender recipient : Bytes) : Bytes := Blake2b.digest 24 (sender ++ recipient)

/-- Seals under a sender's key made from `entropy`; its public half comes first. -/
def encrypt (recipient : RouterKey) (entropy : Entropy) (plaintext : Bytes) : Bytes :=
  let sender := MasterKey.generate entropy
  sender.publicKey.bytes ++
    Salsa20.encrypt (boxKey sender.secret recipient.bytes)
      (nonce sender.publicKey.bytes recipient.bytes) plaintext

def decrypt? (recipient : MasterKey) (sealed : Bytes) : Option Bytes :=
  let sender := sealed.take boxKeySize
  if sealed.length < boxKeySize + 16 then none
  else
    Salsa20.decrypt? (boxKey recipient.secret sender) (nonce sender recipient.publicKey.bytes)
      (sealed.drop boxKeySize)

end SealedBox
end Rehoming.Keys
