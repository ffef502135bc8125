import Rehoming.Keys.Authority
import Rehoming.Keys.Master
import Rehoming.Crypto.ChaCha20
import Rehoming.Zstd.Frame

/-! The ciphers that snapshots are protected with, and how they are compressed before,
as one value. What is done with bundles and plans is written for any suite; the standard
one is what files hold. -/

namespace Rehoming

open Crypto Keys

structure CipherSuite where
  /-- Wraps a secret for an authority, if it is short enough. -/
  wrap? : Rsa.PublicKey → Entropy → Bytes → Option Bytes
  unwrap? : Rsa.PrivateKey → Bytes → Option Bytes
  /-- Encrypts under key material and a nonce. -/
  encrypt : (material nonce plaintext : Bytes) → Bytes
  decrypt? : (material nonce ciphertext : Bytes) → Option Bytes
  /-- Seals a box for a public key, if that can be done. -/
  sealBox? : RouterKey → Entropy → Bytes → Option Bytes
  openBox? : MasterKey → Bytes → Option Bytes
  /-- Zstandard data of a content, of which there are many. -/
  compress : Bytes → Bytes

namespace CipherSuite

/-- What derived keys for payloads are for. -/
def payloadInfo : Bytes := Text.Utf8.ofString "brigade-snapshot-payload"

def standard : CipherSuite where
  wrap? key entropy secret := key.encrypt? (entropy.bytes 32) secret
  unwrap? key ciphertext := key.decrypt? ciphertext
  encrypt material nonce plaintext :=
    ChaCha20.encrypt (Sha256.deriveKey material payloadInfo) nonce plaintext
  decrypt? material nonce ciphertext :=
    ChaCha20.decrypt? (Sha256.deriveKey material payloadInfo) nonce ciphertext
  sealBox? key entropy plaintext := some (SealedBox.encrypt key entropy plaintext)
  openBox? := SealedBox.decrypt?
  -- the plainest encoder there is: it stores the content
  compress := Zstd.compress

/-- Wraps a secret for an authority. -/
def wrap (suite : CipherSuite) (key : Rsa.PublicKey) (entropy : Entropy) (secret : Bytes) :
    Except Error Bytes :=
  match suite.wrap? key entropy secret with
  | some ciphertext => .ok ciphertext
  | none => .error (.encryptionFailed "authority secret: message too long")

/-- Undoes `wrap`. -/
def unwrap (suite : CipherSuite) (key : AuthorityKey) (ciphertext : Bytes) : Except Error Bytes :=
  match suite.unwrap? key.privateKey ciphertext with
  | some secret => .ok secret
  | none => .error (.decryptionFailed "authority secret")

/-- The secret that a field of a document holds, wrapped and in base64. Errors name
the field. -/
def unwrapField (suite : CipherSuite) (key : AuthorityKey) (text what : String) :
    Except Error Bytes := do
  let ciphertext ← decodeField text what
  match suite.unwrap? key.privateKey ciphertext with
  | some secret => return secret
  | none => throw (.decryptionFailed what)

def sealFor (suite : CipherSuite) (key : RouterKey) (entropy : Entropy) (plaintext : Bytes) :
    Except Error Bytes :=
  match suite.sealBox? key entropy plaintext with
  | some sealed => .ok sealed
  | none => .error (.encryptionFailed "sealed box: aead::Error")

def openSealed (suite : CipherSuite) (key : MasterKey) (sealed : Bytes) : Except Error Bytes :=
  match suite.openBox? key sealed with
  | some plaintext => .ok plaintext
  | none => .error (.decryptionFailed "sealed box")

end CipherSuite
end Rehoming
