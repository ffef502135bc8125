import Rehoming.Proofs.Documents.Bundles
import Rehoming.Proofs.Files.Output
import Rehoming.Proofs.Files.Printing
import Rehoming.Proofs.Text.Order

/-! What is handed from one side to the other: plans and printed maps, reservations and bundles.
Main statement: each of these documents is read as the value that it was written for. -/

namespace Rehoming

open Json

variable {S : Type} {view : S → View} {v : View} {host : Host (StateM S) Location}

/-- A plan that is put in its place is there as its document, spread over lines. -/
theorem Host.replaceDocument_plan (lawful : host.Lawful view) (path : FilePath)
    (plan : RestorePlan) :
    Runs view v (host.replaceDocument path plan.toValue)
      (fun _ after => after.disk.content? path = some plan.document)
      (fun after => v.Spared after ∧ (v.troubled ∨ ¬ v.disk.Takes path)) := by
  refine (replaceDocument_runs lawful path plan.toValue).mono (fun _ after done => ?_) fun _ => id
  obtain ⟨location, placed, rfl⟩ := done
  rw [Disk.content?, View.holding, View.onDisk, Disk.read_put placed]
  rfl

namespace Pins

/-- The entries of the printed line, one after another. -/
theorem members_line (pins : Pins) :
    (Node.ofBytes? (Text.Utf8.ofString pins.line)).bind
      (Reader.run (Reader.members Ipv4.reader)) = some pins.entries := by
  rw [pins.node_line, Option.bind_some]
  exact Reader.members_toNode (fun ip => Brigade.address_reader ip _) pins

/-- The order of the names is that of their bytes. -/
theorem entries_bytes (pins : Pins) :
    (pins.entries.map fun e => Text.Utf8.ofString e.1).Pairwise (· < ·) :=
  List.pairwise_map.mpr (pins.ordered.imp fun before => Text.Utf8.ofString_lt_iff.mpr before)

theorem loadPins_reads_line (lawful : host.Lawful view) {path : FilePath} {pins : Pins}
    (holds : v.disk.content? path = some (Text.Utf8.ofString pins.line)) :
    Reads view v (host.loadPins (some path)) (some pins) := by
  have given : v.disk.pins? (some path) = some pins := by
    rw [Disk.pins?, Disk.document?, holds, Option.bind_some, pins.read_line]
  exact given ▸ Host.loadPins_reads lawful (some path)

end Pins

/-- **Documents that are handed on are read back.** Whatever texts are in it, however many nodes and
snapshots it has, what is stored of a plan is its document, and that is read as the plan. What is
printed of a map is its line, and a run of the mapping program prints just this line about the map
that its files make. The line has the names in the order of their bytes, and what is loaded from a
file with it is the map. A reservation is read off its compact document; and so is a bundle, as long
as its times and its count are such as a document can give. -/
theorem documents_read_back (lawful : host.Lawful view) (v : View) (path : FilePath) :
    (∀ plan : RestorePlan,
      Runs view v (host.replaceDocument path plan.toValue)
        (fun _ after => after.disk.content? path = some plan.document)
        (fun after => v.Spared after ∧ (v.troubled ∨ ¬ v.disk.Takes path)) ∧
      RestorePlan.ofDocument? plan.document = some plan) ∧
    (∀ pins : Pins,
      Runs view v (host.printDocument pins.toValue) (fun _ after => after = v.saying pins.line)
        (fun after => v.troubled ∧ v.Cut pins.line after) ∧
      (Node.ofBytes? (Text.Utf8.ofString pins.line)).bind (Reader.run Pins.reader) = some pins ∧
      (Node.ofBytes? (Text.Utf8.ofString pins.line)).bind
        (Reader.run (Reader.members Ipv4.reader)) = some pins.entries ∧
      (pins.entries.map fun e => Text.Utf8.ofString e.1).Pairwise (· < ·) ∧
      (v.disk.content? path = some (Text.Utf8.ofString pins.line) →
        Reads view v (host.loadPins (some path)) (some pins))) ∧
    (∀ (args : MappingArguments) (suite : CipherSuite) (around : Surroundings),
      Makes view v (args.run host suite around) (args.mapping? suite around v.disk)
        (fun pins after => after = v.saying pins.line)
        (fun pins after => v.troubled ∧ v.Cut pins.line after)) ∧
    (∀ reservation : Reservation,
      Reservation.ofDocument? reservation.document = some reservation) ∧
    (∀ bundle : Bundle, Bundle.ofDocument? bundle.document = some bundle ↔ bundle.Valid) :=
  ⟨fun plan => ⟨Host.replaceDocument_plan lawful path plan, plan.ofDocument?_document⟩,
    fun pins => ⟨Host.printDocument_runs lawful pins.toValue, pins.read_line, pins.members_line,
      pins.entries_bytes, Pins.loadPins_reads_line lawful⟩,
    fun args suite around => args.run_makes lawful suite around,
    Reservation.ofDocument?_document, fun _ => Bundle.ofDocument?_document_iff⟩

/-- Names that have to be escaped, that are not of one byte each, or that are empty. -/
def Pins.unusualNames : Pins :=
  .ofList [("\uffff", ⟨10, 0, 0, 1⟩), ("😀", ⟨10, 0, 0, 2⟩), ("\"\n\u0001", ⟨0, 0, 0, 0⟩),
    ("", ⟨255, 255, 255, 255⟩)]

/-- As early and as late as can be, with a leap second at the end of time, and as many errors. -/
def Bundle.farthest : Bundle :=
  { (default : Bundle) with
    updateTime := ⟨Timestamp.daysFromDate Timestamp.minYear 1 1 * 86400, 1⟩
    globalTime := ⟨Timestamp.daysFromDate Timestamp.maxYear 12 31 * 86400 + 86399, 1999999999⟩
    errorsCount := 18446744073709551615
    envelopes := [{ (default : Envelope) with
      localTime := ⟨951782400, 20000⟩, shares := .ofList [("b", "\t"), ("a", "é")] }] }

/-- With nothing but a printed map. -/
def Machine.courier : Machine where
  disk := {
    entries := [(["pins.json"], .file (Text.Utf8.ofString Pins.unusualNames.line))], working := [] }
  reports := []
  printed := ""
  attempts := 0
  trouble := fun _ _ => none

theorem documents_read_back_courier : Machine.host.Lawful Machine.toView ∧
    Machine.courier.disk.content? ⟨"pins.json"⟩ = some (Text.Utf8.ofString Pins.unusualNames.line) ∧
    Reads Machine.toView Machine.courier.toView (Machine.host.loadPins (some ⟨"pins.json"⟩))
      (some Pins.unusualNames) ∧
    ((Machine.host.printDocument Pins.unusualNames.toValue).run.run Machine.courier).2.printed =
      Pins.unusualNames.line ∧
    Bundle.farthest.Valid ∧
    Bundle.ofDocument? Bundle.farthest.document = some Bundle.farthest := by
  obtain ⟨-, maps, -, -, bundles⟩ :=
    documents_read_back Machine.host_lawful Machine.courier.toView ⟨"pins.json"⟩
  obtain ⟨prints, -, -, -, loads⟩ := maps Pins.unusualNames
  have holds : Machine.courier.disk.content? ⟨"pins.json"⟩ =
      some (Text.Utf8.ofString Pins.unusualNames.line) := by decide +kernel
  have done : ((Machine.host.printDocument Pins.unusualNames.toValue).run.run
      Machine.courier).1 = .ok () := by decide +kernel
  have said := prints Machine.courier rfl
  rw [done] at said
  have valid : Bundle.farthest.Valid := by
    refine ⟨by decide, by decide, by decide, fun e he => ?_⟩
    obtain rfl := List.mem_singleton.mp he
    exact ⟨by decide, by decide⟩
  exact ⟨Machine.host_lawful, holds, loads holds,
    (congrArg View.printed said).trans String.empty_append, valid, (bundles _).mpr valid⟩

end Rehoming
