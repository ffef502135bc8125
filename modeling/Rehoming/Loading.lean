import Rehoming.Host
import Rehoming.Settings
import Rehoming.Keys.Realm

/-! Reading keys, settings and documents from files, printing documents, and writing a
document so that either all of it is in its place in the end, or what was there before. -/

namespace Rehoming

open Keys
open Json (Value Reader)

variable {m : Type → Type} [Monad m] {Temp : Type}

namespace Host

/-- Fails in a context. -/
def fail {α : Type} (context : String) (cause : Cause) : ExceptT Failure m α :=
  throw ⟨[context], cause⟩

/-- A step that fails in contexts. -/
def orFail (contexts : List String) (step : m (Except OsError Unit)) :
    ExceptT Failure m Unit := do
  match ← step with
  | .ok () => return
  | .error e => throw ⟨contexts, .os e⟩

def readBytes (host : Host m Temp) (context : String) (path : FilePath) :
    ExceptT Failure m Bytes := do
  match ← host.read path with
  | .ok bytes => return bytes
  | .error e => fail (context ++ path.text) (.os e)

def readText (host : Host m Temp) (context : String) (path : FilePath) :
    ExceptT Failure m String := do
  match Text.Utf8.decode? (← host.readBytes context path) with
  | some text => return text
  | none => fail (context ++ path.text) (.os .invalidText)

/-- What comes of the content of a file. -/
def accept {α : Type} (context : String) (path : FilePath) (x : Except Error α) :
    ExceptT Failure m α :=
  match x with
  | .ok a => return a
  | .error e => fail (context ++ path.text) (.refused e)

/-! ## Keys and settings -/

def loadAuthority (host : Host m Temp) (log : Event → m Unit) (path : FilePath) :
    ExceptT Failure m AuthorityKey := do
  let text ← host.readText "reading authority key: " path
  let key ← accept "parsing authority key: " path (AuthorityKey.ofText text)
  log (.authorityLoaded path.text key.fingerprint)
  return key

def loadMaster (host : Host m Temp) (path : FilePath) : ExceptT Failure m MasterKey := do
  let text ← host.readText "reading master key: " path
  accept "parsing master key: " path (MasterKey.ofJson text)

def loadRealm (host : Host m Temp) (log : Event → m Unit) (path : FilePath)
    (fingerprint : String) : ExceptT Failure m Crypto.Rsa.PublicKey := do
  let text ← host.readText "reading realms keys: " path
  for event in (RealmKey.readLines text).filterMap RealmKey.Line.event? do
    log event
  let key ← accept "in " path (RealmKey.find text fingerprint)
  log (.realmResolved path.text fingerprint)
  return key

/-- Settings that are not there are the usual ones. -/
def loadSettings (host : Host m Temp) (path : FilePath) : ExceptT Failure m Settings := do
  if ← host.fileExists path then
    let text ← host.readText "reading config: " path
    match Settings.ofText? text with
    | some settings => return settings
    | none => fail ("parsing config: " ++ path.text) .badSettings
  else return .default

/-! ## Documents -/

def loadDocument {α : Type} (host : Host m Temp) (what : String) (read : Reader α)
    (path : FilePath) : ExceptT Failure m α := do
  let bytes ← host.readBytes ("reading " ++ what ++ ": ") path
  match (Json.Node.ofBytes? bytes).bind (Reader.run read) with
  | some a => return a
  | none => fail ("parsing " ++ what ++ ": " ++ path.text) .badDocument

/-- No file means no pins. -/
def loadPins (host : Host m Temp) (path : Option FilePath) : ExceptT Failure m Pins :=
  match path with
  | some path => host.loadDocument "mapping file" Pins.reader path
  | none => return .empty

/-- The line about a document, in the pieces in which it is printed, each with what is
said if it cannot be. -/
def linePieces (value : Value) : List (String × List String) :=
  [(value.compact, ["writing JSON to stdout"]), ("\n", [])]

/-- The line about a document. -/
def line (value : Value) : String := String.join ((linePieces value).map (·.1))

/-- Prints a document on a line of its own. -/
def printDocument (host : Host m Temp) (value : Value) : ExceptT Failure m Unit := do
  for piece in linePieces value do
    orFail piece.2 (host.print piece.1)
  orFail [] host.flush

/-- A step in writing a temporary file, which is given up if the step fails. -/
def orDiscard (host : Host m Temp) (temp : Temp) (contexts : OsError → List String)
    (step : m (Except OsError Unit)) : ExceptT Failure m Unit := do
  match ← step with
  | .ok () => return
  | .error e =>
    host.discard temp
    throw ⟨contexts e, .os e⟩

/-- Puts a document in its place, spread over lines, once all of it is in a file. -/
def replaceDocument (host : Host m Temp) (path : FilePath) (value : Value) :
    ExceptT Failure m Unit := do
  let directory := path.directory
  match ← host.createTemp directory with
  | .error e => fail ("creating temp file in " ++ directory.text) (.os e)
  | .ok temp =>
    host.orDiscard temp (fun _ => ["serializing " ++ path.text])
      (host.append temp (Text.Utf8.encode (value.prettyChars 0)))
    host.orDiscard temp (fun _ => []) (host.append temp [10])
    host.orDiscard temp (fun _ => ["syncing " ++ path.text]) (host.sync temp)
    host.orDiscard temp
      (fun e => ["writing " ++ path.text, "failed to persist temporary file: " ++ e.message])
      (host.persist temp path)

end Host
end Rehoming
