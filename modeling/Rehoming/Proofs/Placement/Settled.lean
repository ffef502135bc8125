import Rehoming.Proofs.Placement.Mirrored
import Rehoming.Proofs.Placement.Sequential

/-! Pins that keep all brigades where they are. Main statement: a topology accepts them exactly if
it has room for a mirrored run without any, and then a run with them decides the same, in either
mode. -/

namespace Rehoming

variable {t : Topology} {pins : CheckedPins} {brigades : List Brigade}

/-- All that is pinned are these brigades, to their own addresses. -/
structure CheckedPins.Keep (pins : CheckedPins) (brigades : List Brigade) : Prop where
  own : ∀ b ∈ brigades, pins.get? b.id = some b.address
  all : pins.pins.entries.Perm (brigades.map fun b => (b.id, b.address))

namespace CheckedPins.Keep

theorem target (keep : pins.Keep brigades) {b : Brigade} (hb : b ∈ brigades) :
    pins.target b = CheckedPins.target .none b := by
  rw [CheckedPins.target, keep.own b hb]
  rfl

/-- Such pins are accepted where all brigades could keep their addresses without any. -/
theorem fit_iff (keep : pins.Keep brigades) :
    pins.Fit t ↔ Mirrored.Placeable t .none brigades := by
  have addresses : (pins.pins.entries.map (·.2)).Perm
      (brigades.map (CheckedPins.target .none)) := by
    have pairs := keep.all.map (·.2)
    rwa [List.map_map] at pairs
  constructor
  · rintro ⟨declared, distinct⟩
    refine ⟨fun b hb => declared (b.id, b.address) ?_, addresses.nodup_iff.mp distinct⟩
    exact keep.all.mem_iff.mpr (List.mem_map_of_mem hb)
  · rintro ⟨declared, distinct⟩
    refine ⟨fun e he => ?_, addresses.nodup_iff.mpr distinct⟩
    obtain ⟨b, hb, rfl⟩ := List.mem_map.mp (keep.all.mem_iff.mp he)
    exact declared b hb

theorem placeable (keep : pins.Keep brigades) (fits : Mirrored.Placeable t .none brigades) :
    Mirrored.Placeable t pins brigades where
  declared b hb := keep.target hb ▸ fits.declared b hb
  distinct := List.map_congr_left (fun _ hb => keep.target hb) ▸ fits.distinct

theorem places (keep : pins.Keep brigades) :
    Mirrored.places t pins brigades = Mirrored.places t .none brigades :=
  List.map_congr_left fun b hb => by rw [keep.target hb]

/-- Nobody is left for the queue. -/
theorem sequential_places (keep : pins.Keep brigades) :
    Sequential.queue pins brigades = [] ∧
      Sequential.places t pins brigades = Mirrored.places t .none brigades := by
  have fixed : Sequential.fixed pins brigades = brigades :=
    List.filter_eq_self.mpr fun b hb => by rw [keep.own b hb]; rfl
  have none : Sequential.queue pins brigades = [] :=
    List.filter_eq_nil_iff.mpr fun b hb => by rw [keep.own b hb]; exact Bool.false_ne_true
  refine ⟨none, ?_⟩
  rw [Sequential.places, none, fixed, List.zip_nil_right, List.append_nil, ← keep.places]
  rfl

end CheckedPins.Keep

/-- A run in which misfits are fatal only completes where there are none. -/
theorem Mirrored.placeable_of_complete
    (done : (Assignment.mirrored t pins .fatal [] brigades).failure = none) :
    Placeable t pins brigades := by
  by_contra h
  obtain ⟨before, b, after, rfl, fits, misfit⟩ := exists_misfit h
  by_cases there : t.Declares (pins.target b)
  · have taken := misfit.resolve_left (not_not_intro there)
    rw [mirrored_of_misfit fits (findFree_taken b.id there (List.mem_reverse.mpr taken))] at done
    cases done
  · rw [mirrored_of_misfit fits (findFree_nowhere b.id there)] at done
    cases done

/-- How a run may be told that all brigades are to stay where they are: as a mirrored one without
pins, or by pins. -/
inductive Staying (brigades : List Brigade) : PlacementMode → CheckedPins → Prop where
  | mirrored : Staying brigades .mirrored .none
  | pinned {mode : PlacementMode} {pins : CheckedPins} (keep : pins.Keep brigades) :
      Staying brigades mode pins

namespace Staying

variable {mode : PlacementMode}

theorem fit (staying : Staying brigades mode pins)
    (fits : Mirrored.Placeable t .none brigades) : pins.Fit t := by
  cases staying with
  | mirrored => exact ⟨nofun, .nil⟩
  | pinned keep => exact keep.fit_iff.mpr fits

/-- Nobody else is pinned. -/
theorem pinned_mem (staying : Staying brigades mode pins) :
    ∀ e ∈ pins.pins.entries, e.1 ∈ brigades.map (·.id) := by
  intro e he
  cases staying with
  | mirrored => cases he
  | pinned keep =>
    obtain ⟨b, hb, rfl⟩ := List.mem_map.mp (keep.all.mem_iff.mp he)
    exact List.mem_map_of_mem hb

/-- **Whichever way it was told, a run does the same.** It completes exactly if all brigades can
keep their addresses, and then it has placed each of them there. -/
theorem make (staying : Staying brigades mode pins) (fit : pins.Fit t) :
    ((Assignment.make t mode .fatal pins brigades).failure = none ↔
        Mirrored.Placeable t .none brigades) ∧
      (Mirrored.Placeable t .none brigades → Assignment.make t mode .fatal pins brigades =
        ⟨(Mirrored.places t .none brigades).map Assignment.placeAt, none⟩) := by
  cases staying with
  | mirrored =>
    have run (fits : Mirrored.Placeable t .none brigades) :
        Assignment.mirrored t .none .fatal [] brigades =
          ⟨(Mirrored.places t .none brigades).map Assignment.placeAt, none⟩ :=
      Mirrored.mirrored_of_placeable fits
    exact ⟨⟨Mirrored.placeable_of_complete, fun fits => congrArg (·.failure) (run fits)⟩, run⟩
  | pinned keep =>
    have fits := keep.fit_iff.mp fit
    have run : Assignment.make t mode .fatal pins brigades =
        ⟨(Mirrored.places t .none brigades).map Assignment.placeAt, none⟩ := by
      cases mode with
      | mirrored =>
        rw [Assignment.make, Mirrored.mirrored_of_placeable (keep.placeable fits), keep.places]
      | sequential =>
        obtain ⟨none, places⟩ := keep.sequential_places (t := t)
        rw [Assignment.make, Sequential.sequential_eq fit, none, places]
        rfl
    exact ⟨⟨fun _ => fits, fun _ => congrArg (·.failure) run⟩, fun _ => run⟩

end Staying
end Rehoming
