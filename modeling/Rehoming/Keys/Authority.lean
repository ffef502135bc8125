import Rehoming.Error
import Rehoming.Keys.Pem
import Rehoming.Keys.Der
import Rehoming.Keys.Ssh

/-! The RSA key of an authority, which secrets are wrapped for, and the fingerprint
that authorities and realms are known by. -/

namespace Rehoming.Keys

open Crypto

/-- The fingerprint of a public key. -/
def fingerprint (key : Rsa.PublicKey) : String := (Ssh.RsaPublic.ofKey key).fingerprint

/-- A public key on a line, with a comment behind it unless that is empty. -/
def publicLine (key : Rsa.PublicKey) (comment : String) : String :=
  let line := Ssh.rsaName ++ " " ++ Base64.encodeText (Ssh.RsaPublic.ofKey key).blob
  if comment.isEmpty then line else line ++ " " ++ comment

/-- The value of an integer in a key that must be above zero. -/
def positive (what : String) (content : Bytes) : Except Error Nat :=
  match Ssh.positive? content with
  | some n => .ok n
  | none => .error (.invalidKey ("ssh-rsa " ++ what ++ " is not positive"))

structure AuthorityKey where
  privateKey : Rsa.PrivateKey
  fingerprint : String
  deriving DecidableEq

namespace AuthorityKey

def ofPrivate (key : Rsa.PrivateKey) : AuthorityKey := ⟨key, Keys.fingerprint key.publicKey⟩

def publicKey (key : AuthorityKey) : Rsa.PublicKey := key.privateKey.publicKey

/-- What is shown of a key: never its private part. -/
def describe (key : AuthorityKey) : String :=
  "AuthorityKey \x7b fingerprint: \"" ++ key.fingerprint ++ "\", private: \"[REDACTED]\" \x7d"

/-- Checks a key that was read from a file of a form with this name. -/
private def checked (form : String) (key : Option Rsa.PrivateKey) : Except Error Rsa.PrivateKey :=
  match key with
  | none => .error (.invalidKey (form ++ ": malformed"))
  | some key =>
    match key.check with
    | .error fault => .error (.invalidKey (form ++ ": " ++ fault.message))
    | .ok () => .ok key

private def ofContainer (text : Bytes) : Except Error Rsa.PrivateKey :=
  let container := (Pem.decode? "OPENSSH PRIVATE KEY" 70 text).bind Ssh.Container.ofBytes?
  match container with
  | none => .error (.invalidKey "OpenSSH private key: malformed")
  | some .locked =>
    .error (.invalidKey "passphrase-protected OpenSSH keys are not supported")
  | some (.key (.other _ _)) => .error (.invalidKey "OpenSSH key is not an RSA key")
  | some (.key (.rsa key)) => do
    let modulus ← positive "modulus" key.modulus
    let publicExponent ← positive "public exponent" key.publicExponent
    let privateExponent ← positive "private exponent" key.privateExponent
    let p ← positive "prime p" key.p
    let q ← positive "prime q" key.q
    let key ← checked "OpenSSH RSA key" (some ⟨⟨modulus, publicExponent⟩, privateExponent, p, q⟩)
    if (Rsa.inverse? q p).isNone then
      .error (.invalidKey ("OpenSSH RSA key: " ++ Rsa.KeyFault.factors.message))
    else .ok key

/-- Whether `part` occurs in `text`. -/
private def occurs (part text : Bytes) : Bool :=
  part.isPrefixOf text ||
    match text with
    | [] => false
    | _ :: rest => occurs part rest

/-- Reads a key file. Which of the three forms it has is told by a phrase anywhere
in the text. -/
def ofText (text : String) : Except Error AuthorityKey := do
  let bytes := Text.Utf8.ofString text
  let has (phrase : String) : Bool := occurs (Text.Utf8.ofString phrase) bytes
  let key ←
    if has "BEGIN OPENSSH PRIVATE KEY" then ofContainer bytes
    else if has "BEGIN RSA PRIVATE KEY" then
      checked "PKCS#1 PEM" ((Pem.decode? "RSA PRIVATE KEY" 64 bytes).bind Der.rsaKey?)
    else if has "BEGIN PRIVATE KEY" then
      checked "PKCS#8 PEM" ((Pem.decode? "PRIVATE KEY" 64 bytes).bind Der.generalKey?)
    else .error (.invalidKey "no RSA, PKCS#8 or OpenSSH private key block found")
  return ofPrivate key

end AuthorityKey
end Rehoming.Keys
