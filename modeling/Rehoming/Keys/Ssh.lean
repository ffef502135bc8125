import Rehoming.Crypto.Rsa
import Rehoming.Text.Utf8
import Rehoming.Base64

/-! Keys as secure shells write them: fields with their length in front. A public
key is such fields in base64; a private key is a container around them. -/

namespace Rehoming.Keys.Ssh

open Crypto

/-- What is left to read. -/
abbrev Read (α : Type) := Bytes → Option (α × Bytes)

def nat32 : Read Nat := fun bs =>
  if 4 ≤ bs.length then some (Bytes.toNatBE (bs.take 4), bs.drop 4) else none

/-- A field with its length in front, which is below a mebibyte. -/
def field : Read Bytes := fun bs => do
  let (n, bs) ← nat32 bs
  if n < 1 <<< 20 ∧ n ≤ bs.length then some (bs.take n, bs.drop n) else none

def writeField (content : Bytes) : Bytes := Bytes.ofNatBE 4 content.length ++ content

/-- A signed integer in its shortest form, which may be empty. -/
def integer : Read Bytes := fun bs => do
  let (content, bs) ← field bs
  match content with
  | [0] => none
  | 0 :: b :: _ => if b < 128 then none else some (content, bs)
  | _ => some (content, bs)

/-- The value of a signed integer above zero. -/
def positive? : Bytes → Option Nat
  | [] => none
  | b :: rest => if b < 128 then some (Bytes.toNatBE (b :: rest)) else none

/-- A number as a signed integer. -/
def ofNat (n : Nat) : Bytes :=
  match Bytes.ofNat n with
  | [] => []
  | b :: rest => if b < 128 then b :: rest else 0 :: b :: rest

/-! ## Kinds of keys -/

/-- What a field of a key holds. -/
inductive Part where
  | number
  | bytes
  /-- Exactly so many bytes. -/
  | exactly (size : Nat)
  /-- Bytes that the text must equal. -/
  | text (value : String)
  /-- A point of a curve, both of whose coordinates have so many bytes. -/
  | point (size : Nat)
  /-- A scalar of so many bytes, which may have a zero byte in front. -/
  | scalar (size : Nat)
  /-- A single byte without a length. -/
  | flags

def Part.read : Part → Read Bytes
  | .number => integer
  | .bytes => field
  | .exactly size => fun bs => do
    let (content, bs) ← field bs
    if content.length = size then some (content, bs) else none
  | .text value => fun bs => do
    let (content, bs) ← field bs
    if content = Text.Utf8.ofString value then some (content, bs) else none
  | .point size => fun bs => do
    let (content, bs) ← field bs
    if content.length = 2 * size + 1 ∧ content.head? = some 4 then some (content, bs) else none
  | .scalar size => fun bs => do
    let (content, bs) ← field bs
    if content.length = size ∨ (content.length = size + 1 ∧ content.head? = some 0) then
      some (content, bs)
    else none
  | .flags => fun bs =>
    match bs with
    | b :: bs => some ([b], bs)
    | [] => none

def readParts : List Part → Read (List Bytes)
  | [], bs => some ([], bs)
  | part :: rest, bs => do
    let (content, bs) ← part.read bs
    let (more, bs) ← readParts rest bs
    some (content :: more, bs)

/-- The fields of a public key, and those that the private key has behind them. -/
structure Kind where
  name : String
  publicParts : List Part
  privateParts : List Part

def rsaName : String := "ssh-rsa"

private def curve (name : String) (size : Nat) : Kind :=
  ⟨"ecdsa-sha2-" ++ name, [.text name, .point size], [.scalar size]⟩

/-- The kinds of keys besides RSA that a container may hold. -/
def otherKinds : List Kind :=
  [⟨"ssh-ed25519", [.exactly 32], [.exactly 64]⟩,
   curve "nistp256" 32, curve "nistp384" 48, curve "nistp521" 66,
   ⟨"ssh-dss", [.number, .number, .number, .number], [.number]⟩,
   ⟨"sk-ssh-ed25519@openssh.com", [.exactly 32, .bytes], [.flags, .bytes, .bytes]⟩,
   ⟨"sk-ecdsa-sha2-nistp256@openssh.com", [.text "nistp256", .point 32, .bytes],
     [.flags, .bytes, .bytes]⟩]

def kind? (name : Bytes) : Option Kind :=
  otherKinds.find? fun k => Text.Utf8.ofString k.name == name

/-! ## Public keys -/

/-- The integers of an RSA public key. -/
structure RsaPublic where
  exponent : Bytes
  modulus : Bytes
  deriving DecidableEq

inductive PublicPart where
  | rsa (key : RsaPublic)
  | other (name : Bytes) (parts : List Bytes)
  deriving DecidableEq

def PublicPart.read : Read PublicPart := fun bs => do
  let (name, bs) ← field bs
  if name = Text.Utf8.ofString rsaName then
    let (exponent, bs) ← integer bs
    let (modulus, bs) ← integer bs
    some (.rsa ⟨exponent, modulus⟩, bs)
  else
    let kind ← kind? name
    let (parts, bs) ← readParts kind.publicParts bs
    some (.other name parts, bs)

/-- The fields of an RSA public key: its kind, exponent and modulus. -/
def RsaPublic.blob (key : RsaPublic) : Bytes :=
  writeField (Text.Utf8.ofString rsaName) ++ writeField key.exponent ++ writeField key.modulus

def RsaPublic.ofKey (key : Rsa.PublicKey) : RsaPublic := ⟨ofNat key.exponent, ofNat key.modulus⟩

/-- An RSA public key that nothing follows. -/
def RsaPublic.ofBlob? (bs : Bytes) : Option RsaPublic :=
  match PublicPart.read bs with
  | some (.rsa key, []) => some key
  | _ => none

/-- The digest that tells keys apart, in base64 without padding. -/
def RsaPublic.fingerprint (key : RsaPublic) : String :=
  let symbols := (Base64.encode (Sha256.digest key.blob)).filter (· != Base64.pad)
  "SHA256:" ++ String.ofList (symbols.map fun b => Char.ofNat b.toNat)

/-! ## Private keys -/

/-- The integers of an RSA private key, as far as they matter. -/
structure RsaPrivate where
  modulus : Bytes
  publicExponent : Bytes
  privateExponent : Bytes
  p : Bytes
  q : Bytes

inductive PrivatePart where
  | rsa (key : RsaPrivate)
  | other (name : Bytes) (parts : List Bytes)

/-- The key and the public half that belongs to it. -/
private def readPrivate : Read (PrivatePart × PublicPart) := fun bs => do
  let (name, bs) ← field bs
  if name = Text.Utf8.ofString rsaName then
    let (modulus, bs) ← integer bs
    let (publicExponent, bs) ← integer bs
    let (privateExponent, bs) ← integer bs
    let (_, bs) ← integer bs
    let (p, bs) ← integer bs
    let (q, bs) ← integer bs
    some ((.rsa { modulus, publicExponent, privateExponent, p, q },
      .rsa ⟨publicExponent, modulus⟩), bs)
  else
    let kind ← kind? name
    let (parts, bs) ← readParts kind.publicParts bs
    let (secrets, bs) ← readParts kind.privateParts bs
    some ((.other name secrets, .other name parts), bs)

/-- What a container holds: a key, or ciphertext that takes a passphrase. -/
inductive Container where
  | locked
  | key (part : PrivatePart)

/-- Ciphers by name, with the size of a block and of what follows the ciphertext. -/
def ciphers : List (String × Nat × Nat) :=
  [("3des-cbc", 8, 0), ("aes128-cbc", 16, 0), ("aes192-cbc", 16, 0), ("aes256-cbc", 16, 0),
   ("aes128-ctr", 16, 0), ("aes192-ctr", 16, 0), ("aes256-ctr", 16, 0),
   ("aes128-gcm@openssh.com", 16, 16), ("aes256-gcm@openssh.com", 16, 16),
   ("chacha20-poly1305@openssh.com", 8, 16)]

/-- Whether a key derivation is in use. -/
private def derivation : Read Bool := fun bs => do
  let (name, bs) ← field bs
  let (options, bs) ← field bs
  if name = Text.Utf8.ofString "none" then
    if options.isEmpty then some (false, bs) else none
  else if name = Text.Utf8.ofString "bcrypt" then
    let (_, rest) ← field options
    let (_, rest) ← nat32 rest
    if rest.isEmpty then some (true, bs) else none
  else none

/-- The section of a key that is not encrypted: two equal check words, the key, a
comment, and padding that counts up from one to the end of a block of eight. -/
private def openSection? (publicPart : PublicPart) (bs : Bytes) : Option PrivatePart := do
  guard (bs.length % 8 = 0)
  let (first, bs) ← nat32 bs
  let (second, bs) ← nat32 bs
  guard (first = second)
  let ((key, half), bs) ← readPrivate bs
  guard (half = publicPart)
  let (comment, bs) ← field bs
  guard (Text.Utf8.decode? comment).isSome
  guard (bs.length < 8 ∧ bs = (List.range bs.length).map fun i => UInt8.ofNat (i + 1))
  some key

def containerMagic : Bytes := Text.Utf8.ofString "openssh-key-v1" ++ [0]

def Container.ofBytes? (bs : Bytes) : Option Container := do
  guard (containerMagic.isPrefixOf bs)
  let (cipher, bs) ← field (bs.drop containerMagic.length)
  let (derived, bs) ← derivation bs
  let (count, bs) ← nat32 bs
  guard (count = 1)
  let (publicKey, bs) ← field bs
  let (publicPart, rest) ← PublicPart.read publicKey
  guard rest.isEmpty
  let (content, bs) ← field bs
  if cipher = Text.Utf8.ofString "none" then
    guard (!derived ∧ bs.isEmpty)
    (openSection? publicPart content).map .key
  else
    let (_, block, tag) ← ciphers.find? fun c => Text.Utf8.ofString c.1 == cipher
    guard (content.length % block = 0 ∧ bs.length = tag)
    some .locked

end Rehoming.Keys.Ssh
