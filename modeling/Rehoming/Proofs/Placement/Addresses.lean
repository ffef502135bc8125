import Mathlib.Data.List.Nodup
import Rehoming.Placement
import Rehoming.Proofs.Json.Reading

/-! Which addresses a topology has, and what pins that it accepted are worth: each
names an address of the topology, no two the same one, and each belongs to a brigade
that is there. -/

namespace Rehoming

namespace Topology

/-- Some node has the address among its slots. -/
def Declares (t : Topology) (address : Ipv4) : Prop := ∃ n ∈ t.nodes, address ∈ n.slots

theorem locate_eq_none_iff {t : Topology} {address : Ipv4} :
    t.locate address = none ↔ ¬ t.Declares address := by
  simp [locate, Declares, List.findIdx?_eq_none_iff]

theorem locate_isSome_iff {t : Topology} {address : Ipv4} :
    (t.locate address).isSome = true ↔ t.Declares address := by
  rw [Option.isSome_iff_ne_none, ne_eq, locate_eq_none_iff, not_not]

/-- Node number `k` is the first one that declares the address. -/
def FirstAt (t : Topology) (address : Ipv4) (k : Nat) : Prop :=
  ∃ n, t.nodes[k]? = some n ∧ address ∈ n.slots ∧ ∀ m ∈ t.nodes.take k, address ∉ m.slots

theorem locate_eq_some_iff {t : Topology} {address : Ipv4} {k : Nat} :
    t.locate address = some k ↔ t.FirstAt address k := by
  rw [locate, List.findIdx?_eq_some_iff_getElem, FirstAt]
  constructor
  · rintro ⟨hk, hn, before⟩
    refine ⟨_, List.getElem?_eq_getElem hk, by simpa using hn, fun m hm => ?_⟩
    obtain ⟨j, hj, rfl⟩ := List.mem_take_iff_getElem.mp hm
    simpa using before j (Nat.lt_of_lt_of_le hj (Nat.min_le_left ..))
  · rintro ⟨n, hn, mem, before⟩
    obtain ⟨hk, rfl⟩ := List.getElem?_eq_some_iff.mp hn
    refine ⟨hk, by simpa using mem, fun j hj => ?_⟩
    have earlier : t.nodes[j] ∈ t.nodes.take k :=
      List.mem_take_iff_getElem.mpr ⟨j, Nat.lt_min.mpr ⟨hj, Nat.lt_trans hj hk⟩, rfl⟩
    simpa using before _ earlier

instance (t : Topology) (address : Ipv4) (k : Nat) : Decidable (t.FirstAt address k) :=
  decidable_of_iff _ locate_eq_some_iff

theorem Declares.firstAt {t : Topology} {address : Ipv4} (h : t.Declares address) :
    ∃ k, t.FirstAt address k := by
  obtain ⟨k, hk⟩ := Option.isSome_iff_exists.mp (locate_isSome_iff.mpr h)
  exact ⟨k, locate_eq_some_iff.mp hk⟩

/-- The first node that has an address, together with the address. -/
def home (t : Topology) (address : Ipv4) : Nat × Ipv4 := ((t.locate address).getD 0, address)

theorem home_eq {t : Topology} {address : Ipv4} {k : Nat} (h : t.FirstAt address k) :
    t.home address = (k, address) := by
  rw [home, locate_eq_some_iff.mpr h, Option.getD_some]

theorem home_fst_eq_iff {t : Topology} {address : Ipv4} {k : Nat} (h : t.Declares address) :
    (t.home address).1 = k ↔ t.FirstAt address k := by
  obtain ⟨j, hj⟩ := h.firstAt
  rw [home_eq hj, ← locate_eq_some_iff, locate_eq_some_iff.mpr hj, Option.some_inj]

end Topology

/-! ## Accepted pins -/

/-- The pins of brigades with these ids, in order. -/
def keptPins (ids : List String) (entries : List (String × Ipv4)) : List (String × Ipv4) :=
  entries.filter fun e => ids.contains e.1

/-- Accepted pins, with those of brigades with these ids added one after another. -/
def Pins.adding (ids : List String) (accepted : Pins) (entries : List (String × Ipv4)) : Pins :=
  (keptPins ids entries).foldl (fun m e => m.insert e.1 e.2) accepted

/-- What is added up from nothing is what is left when the other pins are taken out. -/
theorem Pins.adding_empty (ids : List String) (pins : Pins) :
    Pins.adding ids .empty pins.entries = pins.filter fun id => ids.contains id :=
  NameMap.ofList_self (pins.filter fun id => ids.contains id)

section

variable {ids : List String} {id : String} (address : Ipv4) (rest : List (String × Ipv4))

theorem keptPins_present (present : id ∈ ids) :
    keptPins ids ((id, address) :: rest) = (id, address) :: keptPins ids rest := by
  simp [keptPins, present]

theorem keptPins_absent (absent : id ∉ ids) :
    keptPins ids ((id, address) :: rest) = keptPins ids rest := by
  simp [keptPins, absent]

theorem Pins.adding_present (accepted : Pins) (present : id ∈ ids) :
    Pins.adding ids accepted ((id, address) :: rest) =
      Pins.adding ids (accepted.insert id address) rest := by
  rw [adding, keptPins_present address rest present, List.foldl_cons, adding]

theorem Pins.adding_absent (accepted : Pins) (absent : id ∉ ids) :
    Pins.adding ids accepted ((id, address) :: rest) = Pins.adding ids accepted rest := by
  rw [adding, keptPins_absent address rest absent, adding]

end

/-! ## One pin after another -/

namespace Topology

section

variable {t : Topology} {ids : List String} {taken : List Ipv4} {accepted : Pins} {id : String}
  {address : Ipv4} {rest : List (String × Ipv4)}

theorem checkEntries_absent (absent : id ∉ ids) :
    t.checkEntries ids taken accepted ((id, address) :: rest) =
      ⟨(t.checkEntries ids taken accepted rest).result,
        .pinIgnored id address :: (t.checkEntries ids taken accepted rest).events⟩ := by
  rw [checkEntries, if_pos (by simpa using absent)]
  rfl

variable (present : id ∈ ids)
include present

theorem checkEntries_undeclared (nowhere : ¬ t.Declares address) :
    t.checkEntries ids taken accepted ((id, address) :: rest) =
      .fail (.pinNotFound address id) := by
  rw [checkEntries, if_neg (by simpa using present), if_pos]
  rw [Option.isNone_iff_eq_none, locate_eq_none_iff]
  exact nowhere

variable (declared : t.Declares address)
include declared

theorem checkEntries_taken (again : address ∈ taken) :
    t.checkEntries ids taken accepted ((id, address) :: rest) =
      .fail (.pinDuplicated address id) := by
  rw [checkEntries, if_neg (by simpa using present), if_neg, if_pos (by simpa using again)]
  rw [Option.isNone_iff_eq_none, locate_eq_none_iff]
  exact not_not_intro declared

theorem checkEntries_free (free : address ∉ taken) :
    t.checkEntries ids taken accepted ((id, address) :: rest) =
      t.checkEntries ids (address :: taken) (accepted.insert id address) rest := by
  rw [checkEntries, if_neg (by simpa using present), if_neg, if_neg (by simpa using free)]
  rw [Option.isNone_iff_eq_none, locate_eq_none_iff]
  exact not_not_intro declared

end

/-- Pins are accepted exactly if their addresses are in the topology, differ from
those already taken, and differ from each other. -/
theorem checkEntries_ok_iff {t : Topology} {ids : List String} {taken : List Ipv4}
    {accepted : Pins} {entries : List (String × Ipv4)} {checked : CheckedPins} :
    (t.checkEntries ids taken accepted entries).result = .ok checked ↔
      checked = ⟨Pins.adding ids accepted entries⟩ ∧
        (∀ e ∈ keptPins ids entries, t.Declares e.2 ∧ e.2 ∉ taken) ∧
        ((keptPins ids entries).map (·.2)).Nodup := by
  induction entries generalizing taken accepted with
  | nil =>
    simp only [checkEntries, Logged.pure_def, Except.ok.injEq, keptPins, Pins.adding,
      List.filter_nil, List.foldl_nil, List.not_mem_nil, false_implies, implies_true,
      List.map_nil, List.nodup_nil, and_true]
    exact eq_comm
  | cons e rest ih =>
    obtain ⟨id, address⟩ := e
    by_cases present : id ∈ ids
    · rw [keptPins_present address rest present, Pins.adding_present address rest accepted present]
      by_cases declared : t.Declares address
      · by_cases again : address ∈ taken
        · rw [checkEntries_taken present declared again]
          simp [Logged.fail, again]
        · rw [checkEntries_free present declared again, ih]
          simp only [List.mem_cons, not_or, List.map_cons, List.nodup_cons, List.mem_map,
            not_exists, not_and, forall_eq_or_imp]
          grind
      · rw [checkEntries_undeclared present declared]
        simp [Logged.fail, declared]
    · rw [keptPins_absent address rest present, Pins.adding_absent address rest accepted present,
        checkEntries_absent present]
      exact ih

end Topology

/-- What holds of all pins that a topology has accepted. -/
structure CheckedPins.Fit (t : Topology) (pins : CheckedPins) : Prop where
  declared : ∀ e ∈ pins.pins.entries, t.Declares e.2
  distinct : (pins.pins.entries.map (·.2)).Nodup

theorem Topology.checkPins_ok_iff {t : Topology} {pins : Pins} {ids : List String}
    {checked : CheckedPins} :
    (t.checkPins pins ids).result = .ok checked ↔
      checked = ⟨pins.filter fun id => ids.contains id⟩ ∧ checked.Fit t := by
  rw [checkPins, checkEntries_ok_iff, Pins.adding_empty]
  refine and_congr_right fun same => ?_
  subst same
  exact ⟨fun h => ⟨fun e he => (h.1 e he).1, h.2⟩,
    fun h => ⟨fun e he => ⟨h.declared e he, List.not_mem_nil⟩, h.distinct⟩⟩

theorem CheckedPins.mem_of_get? {pins : CheckedPins} {id : String} {address : Ipv4}
    (h : pins.get? id = some address) : (id, address) ∈ pins.pins.entries := by
  obtain ⟨before, after, he, -⟩ := List.lookup_eq_some_iff.mp h
  rw [he]
  simp

namespace CheckedPins.Fit

variable {t : Topology} {pins : CheckedPins}

theorem declares (fit : pins.Fit t) {id : String} {address : Ipv4}
    (h : pins.get? id = some address) : t.Declares address :=
  fit.declared _ (mem_of_get? h)

/-- An address is the pin of one brigade at most. -/
theorem get?_inj (fit : pins.Fit t) {id other : String} {address : Ipv4}
    (h : pins.get? id = some address) (h' : pins.get? other = some address) : id = other := by
  have same := List.inj_on_of_nodup_map fit.distinct (mem_of_get? h) (mem_of_get? h') rfl
  exact congrArg (·.1) same

end CheckedPins.Fit
end Rehoming
