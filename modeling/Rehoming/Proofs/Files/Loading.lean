import Rehoming.Loading
import Rehoming.Proofs.Files.Hosts

/-! Loading leaves the disk as it is, whether it fails or not, and what is loaded is what the disk
holds. Main statements: each kind of file is loaded if it is there and is what it should be, unless
the host has trouble. -/

namespace Rehoming

open Keys

/-! ## What a disk holds -/

namespace Disk

variable {α : Type}

/-- The text in the file at a path. -/
def text? (d : Disk) (path : FilePath) : Option String :=
  (d.content? path).bind Text.Utf8.decode?

/-- The key in the file at a path. -/
def key? (d : Disk) (parse : String → Except Error α) (path : FilePath) : Option α :=
  (d.text? path).bind fun text => (parse text).toOption

/-- The document in the file at a path. -/
def document? (d : Disk) (read : Json.Reader α) (path : FilePath) : Option α :=
  (d.content? path).bind fun bytes => (Json.Node.ofBytes? bytes).bind (Json.Reader.run read)

/-- Where there is no file, the usual settings hold. -/
def settings? (d : Disk) (path : FilePath) : Option Settings :=
  if d.fileExists path then (d.text? path).bind Settings.ofText? else some .default

/-- No file means no pins. -/
def pins? (d : Disk) : Option FilePath → Option Pins
  | some path => d.document? Pins.reader path
  | none => some .empty

end Disk

/-! ## What is loaded -/

namespace Host

variable {S α : Type} {view : S → View} {v : View} {host : Host (StateM S) Location}

theorem readBytes_reads (lawful : host.Lawful view) (context : String) (path : FilePath) :
    Reads view v (host.readBytes context path) (v.disk.content? path) := by
  refine Runs.bind (Runs.lift (lawful.read v path)) fun result v' h => ?_
  cases result with
  | ok bytes =>
    obtain ⟨rfl, found⟩ := h
    refine Runs.pure ⟨rfl, ?_⟩
    rw [Disk.content?, found]
    rfl
  | error e =>
    obtain ⟨rfl, trouble | failed⟩ := h
    · exact Runs.throw ⟨rfl, .inl trouble⟩ _
    · refine Runs.throw ⟨rfl, .inr ?_⟩ _
      rw [Disk.content?, failed]
      rfl

theorem readText_reads (lawful : host.Lawful view) (context : String) (path : FilePath) :
    Reads view v (host.readText context path) (v.disk.text? path) := by
  refine Reads.bind (readBytes_reads lawful context path) fun bytes _ => ?_
  cases Text.Utf8.decode? bytes with
  | some text => exact Reads.pure text
  | none => exact Reads.throw _

theorem accept_reads (context : String) (path : FilePath) (x : Except Error α) :
    Reads view v (accept context path x) x.toOption := by
  cases x with
  | ok a => exact Reads.pure a
  | error e => exact Reads.throw _

theorem loadAuthority_reads (lawful : host.Lawful view) {log : Event → StateM S Unit}
    (quiet : Quiet view log) (path : FilePath) :
    Reads view v (host.loadAuthority log path) (v.disk.key? AuthorityKey.ofText path) := by
  refine Reads.bind (readText_reads lawful _ path) fun text _ => ?_
  refine Reads.keep (accept_reads _ path _) fun key => ?_
  exact Reads.afterOnce quiet _ (Reads.pure key)

theorem loadMaster_reads (lawful : host.Lawful view) (path : FilePath) :
    Reads view v (host.loadMaster path) (v.disk.key? MasterKey.ofJson path) :=
  Reads.bind (readText_reads lawful _ path) fun _ _ => accept_reads _ path _

theorem loadRealm_reads (lawful : host.Lawful view) {log : Event → StateM S Unit}
    (quiet : Quiet view log) (path : FilePath) (fingerprint : String) :
    Reads view v (host.loadRealm log path fingerprint)
      (v.disk.key? (RealmKey.find · fingerprint) path) := by
  refine Reads.bind (readText_reads lawful _ path) fun text _ => ?_
  refine Reads.afterEach quiet _ ?_
  refine Reads.keep (accept_reads _ path _) fun key => ?_
  exact Reads.afterOnce quiet _ (Reads.pure key)

theorem loadSettings_reads (lawful : host.Lawful view) (path : FilePath) :
    Reads view v (host.loadSettings path) (v.disk.settings? path) := by
  refine Runs.bind (Runs.lift (lawful.fileExists v path)) fun answer v' h => ?_
  obtain ⟨rfl, truly⟩ := h
  cases answer with
  | true =>
    have written : v'.disk.settings? path = (v'.disk.text? path).bind Settings.ofText? :=
      if_pos truly.symm
    rw [written]
    refine Reads.bind (readText_reads lawful _ path) fun text _ => ?_
    cases Settings.ofText? text with
    | some settings => exact Reads.pure settings
    | none => exact Reads.throw _
  | false =>
    have usual : v'.disk.settings? path = some .default := if_neg (by simp [← truly])
    rw [usual]
    exact Reads.pure _

theorem loadDocument_reads (lawful : host.Lawful view) (what : String) (read : Json.Reader α)
    (path : FilePath) :
    Reads view v (host.loadDocument what read path) (v.disk.document? read path) := by
  refine Reads.bind (readBytes_reads lawful _ path) fun bytes _ => ?_
  cases (Json.Node.ofBytes? bytes).bind (Json.Reader.run read) with
  | some a => exact Reads.pure a
  | none => exact Reads.throw _

theorem loadPins_reads (lawful : host.Lawful view) (path : Option FilePath) :
    Reads view v (host.loadPins path) (v.disk.pins? path) := by
  cases path with
  | some path => exact loadDocument_reads lawful _ Pins.reader path
  | none => exact Reads.pure _

end Host
end Rehoming
