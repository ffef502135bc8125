import Rehoming.Proofs.Json.Members
import Rehoming.Proofs.Placement.Addresses
import Rehoming.Proofs.Text.Order

/-! Screening pins, against a reference in which nothing comes after anything else: which pins
count, which of them are at fault, and which of those has the smallest id. Main statement: pins are
accepted exactly if none that counts is at fault, and refused for the first one otherwise. -/

namespace Rehoming

/-! ## Pins that count -/

namespace Pins

/-- The pin of a brigade that is there. -/
structure Counts (pins : Pins) (ids : List String) (id : String) (address : Ipv4) : Prop where
  present : id ∈ ids
  pinned : pins.get? id = some address

variable {pins : Pins} {ids : List String} {id : String} {address : Ipv4}

theorem mem_of_get? (h : pins.get? id = some address) : (id, address) ∈ pins.entries := by
  have found : (⟨pins⟩ : CheckedPins).get? id = some address := h
  exact CheckedPins.mem_of_get? found

theorem counts_iff : pins.Counts ids id address ↔ (id, address) ∈ keptPins ids pins.entries := by
  rw [keptPins, List.mem_filter, List.contains_iff_mem]
  constructor
  · rintro ⟨present, pinned⟩
    exact ⟨mem_of_get? pinned, present⟩
  · rintro ⟨there, present⟩
    exact ⟨present, NameMap.get?_of_mem there⟩

/-- Reports that these pins have been passed over. -/
def passedOver (pins : Pins) : List Event := pins.entries.map fun e => .pinIgnored e.1 e.2

end Pins

namespace Topology

/-- What is wrong with a pin that counts: no node has its address, or it is the address of another
one that counts, whose id has smaller bytes. -/
inductive PinFault (t : Topology) (pins : Pins) (ids : List String) (id : String) :
    Error → Prop where
  | undeclared {address : Ipv4} (pin : pins.Counts ids id address)
    (nowhere : ¬ t.Declares address) : PinFault t pins ids id (.pinNotFound address id)
  | shared {address : Ipv4} {other : String} (pin : pins.Counts ids id address)
    (earlier : pins.Counts ids other address)
    (before : Text.Utf8.ofString other < Text.Utf8.ofString id) :
    PinFault t pins ids id (.pinDuplicated address id)

/-- No pin of an id with smaller bytes is at fault. -/
structure FirstFault (t : Topology) (pins : Pins) (ids : List String) (id : String) (e : Error) :
    Prop where
  fault : t.PinFault pins ids id e
  first : ∀ other, Text.Utf8.ofString other < Text.Utf8.ofString id →
    ∀ e', ¬ t.PinFault pins ids other e'

/-- All pins that count have an address of their own in the topology. -/
structure SoundPins (t : Topology) (pins : Pins) (ids : List String) : Prop where
  declared : ∀ id address, pins.Counts ids id address → t.Declares address
  distinct : ∀ id other address, pins.Counts ids id address → pins.Counts ids other address →
    id = other

variable {t : Topology} {pins : Pins} {ids : List String}

theorem SoundPins.faultless (sound : t.SoundPins pins ids) (id : String) (e : Error) :
    ¬ t.PinFault pins ids id e := by
  intro fault
  cases fault with
  | undeclared pin nowhere => exact nowhere (sound.declared _ _ pin)
  | shared pin earlier before =>
    rw [sound.distinct _ _ _ earlier pin] at before
    exact List.lt_irrefl _ before

theorem FirstFault.unique {id other : String} {e e' : Error} (h : t.FirstFault pins ids id e)
    (h' : t.FirstFault pins ids other e') : id = other ∧ e = e' := by
  have same : id = other := by
    rcases lt_trichotomy id other with less | same | more
    · exact absurd h.fault (h'.first id (Text.Utf8.ofString_lt_iff.mpr less) e)
    · exact same
    · exact absurd h'.fault (h.first other (Text.Utf8.ofString_lt_iff.mpr more) e')
  subst same
  refine ⟨rfl, ?_⟩
  -- of two that share an address that no node has, the other one comes first
  have apart {address address' : Ipv4} {sharer : String} (pin : pins.Counts ids id address)
      (nowhere : ¬ t.Declares address) (pin' : pins.Counts ids id address')
      (earlier : pins.Counts ids sharer address')
      (before : Text.Utf8.ofString sharer < Text.Utf8.ofString id) : False := by
    obtain rfl : address = address' := Option.some.inj (pin.pinned.symm.trans pin'.pinned)
    exact h.first sharer before _ (.undeclared earlier nowhere)
  cases h.fault with
  | undeclared pin nowhere =>
    cases h'.fault with
    | undeclared pin' _ => rw [Option.some.inj (pin.pinned.symm.trans pin'.pinned)]
    | shared pin' earlier before => exact (apart pin nowhere pin' earlier before).elim
  | shared pin earlier before =>
    cases h'.fault with
    | undeclared pin' nowhere => exact (apart pin' nowhere pin earlier before).elim
    | shared pin' _ _ => rw [Option.some.inj (pin.pinned.symm.trans pin'.pinned)]

/-! ## How a check goes -/

/-- Reports on the pins of brigades that are not there. -/
def ignored (ids : List String) (entries : List (String × Ipv4)) : List Event :=
  (entries.filter fun e => !ids.contains e.1).map fun e => .pinIgnored e.1 e.2

/-- Why a pin is refused that comes behind others, where some addresses were gone before. -/
inductive Refused (t : Topology) (ids : List String) (taken : List Ipv4)
    (before : List (String × Ipv4)) (id : String) (address : Ipv4) : Error → Prop where
  | undeclared (nowhere : ¬ t.Declares address) :
    Refused t ids taken before id address (.pinNotFound address id)
  | taken (again : address ∈ taken ∨ address ∈ (keptPins ids before).map (·.2)) :
    Refused t ids taken before id address (.pinDuplicated address id)

/-- Either all pins pass, or one is refused where those before it have passed. -/
theorem checkEntries_cases (t : Topology) (ids : List String) (taken : List Ipv4)
    (accepted : Pins) (entries : List (String × Ipv4)) :
    t.checkEntries ids taken accepted entries =
        ⟨.ok ⟨Pins.adding ids accepted entries⟩, ignored ids entries⟩ ∨
      ∃ before id address after e, entries = before ++ (id, address) :: after ∧
        t.checkEntries ids taken accepted entries = ⟨.error e, ignored ids before⟩ ∧
        (∃ checked, (t.checkEntries ids taken accepted before).result = .ok checked) ∧
        id ∈ ids ∧ Refused t ids taken before id address e := by
  induction entries generalizing taken accepted with
  | nil => exact .inl rfl
  | cons entry rest ih =>
    obtain ⟨id, address⟩ := entry
    by_cases present : id ∈ ids
    · have heard (more : List (String × Ipv4)) :
          ignored ids ((id, address) :: more) = ignored ids more := by
        simp [ignored, present]
      by_cases declared : t.Declares address
      · by_cases again : address ∈ taken
        · exact .inr ⟨[], id, address, rest, _, rfl, checkEntries_taken present declared again,
            ⟨_, rfl⟩, present, .taken (.inl again)⟩
        · have step (more : List (String × Ipv4)) :
              t.checkEntries ids taken accepted ((id, address) :: more) =
                t.checkEntries ids (address :: taken) (accepted.insert id address) more :=
            checkEntries_free present declared again
          rw [step, heard, Pins.adding_present address rest accepted present]
          rcases ih (address :: taken) (accepted.insert id address) with
            run | ⟨before, id', address', after, e, rfl, run, passed, there, why⟩
          · exact .inl run
          · refine .inr ⟨(id, address) :: before, id', address', after, e, rfl, ?_, ?_, there, ?_⟩
            · rw [run, heard]
            · rw [step]
              exact passed
            · cases why with
              | undeclared nowhere => exact .undeclared nowhere
              | taken again' =>
                refine .taken ?_
                rw [keptPins_present address before present, List.map_cons]
                rwa [List.mem_cons, or_assoc, or_left_comm, ← List.mem_cons] at again'
      · exact .inr ⟨[], id, address, rest, _, rfl, checkEntries_undeclared present declared,
          ⟨_, rfl⟩, present, .undeclared declared⟩
    · have step (more : List (String × Ipv4)) :
          t.checkEntries ids taken accepted ((id, address) :: more) =
            ⟨(t.checkEntries ids taken accepted more).result,
              .pinIgnored id address :: (t.checkEntries ids taken accepted more).events⟩ :=
        checkEntries_absent present
      have told (more : List (String × Ipv4)) :
          ignored ids ((id, address) :: more) = .pinIgnored id address :: ignored ids more := by
        simp [ignored, present]
      rw [step, told, Pins.adding_absent address rest accepted present]
      rcases ih taken accepted with
        run | ⟨before, id', address', after, e, rfl, run, passed, there, why⟩
      · exact .inl (by rw [run])
      · refine .inr ⟨(id, address) :: before, id', address', after, e, rfl, ?_, ?_, there, ?_⟩
        · rw [run, told]
        · rw [step]
          exact passed
        · have kept : keptPins ids ((id, address) :: before) = keptPins ids before :=
            keptPins_absent address before present
          cases why with
          | undeclared nowhere => exact .undeclared nowhere
          | taken again => exact .taken (by rwa [kept])

/-! ## All pins of a map -/

section

variable {before after : List (String × Ipv4)} {id : String} {address : Ipv4}

/-- The pins with smaller ids are those before a pin. -/
theorem mem_before_iff (split : pins.entries = before ++ (id, address) :: after)
    (entry : String × Ipv4) : entry ∈ before ↔ entry ∈ pins.entries ∧ entry.1 < id := by
  have ordered := pins.ordered
  rw [NameMap.Ordered, split, List.pairwise_append] at ordered
  obtain ⟨-, behind, ahead⟩ := ordered
  constructor
  · intro there
    exact ⟨split ▸ List.mem_append_left _ there, ahead entry there _ List.mem_cons_self⟩
  · intro ⟨there, less⟩
    rw [split, List.mem_append, List.mem_cons] at there
    rcases there with there | rfl | there
    · exact there
    · exact absurd less (String.lt_irrefl _)
    · exact absurd ((List.pairwise_cons.mp behind).1 entry there) (String.lt_asymm less)

theorem mem_kept_before_iff (split : pins.entries = before ++ (id, address) :: after)
    (other : String) (address' : Ipv4) : (other, address') ∈ keptPins ids before ↔
      pins.Counts ids other address' ∧ Text.Utf8.ofString other < Text.Utf8.ofString id := by
  rw [Pins.counts_iff, keptPins, keptPins, List.mem_filter, List.mem_filter,
    mem_before_iff split, Text.Utf8.ofString_lt_iff, and_right_comm]

/-- A pin that is refused where those before it have passed is the first one at fault. -/
theorem Refused.firstFault {e : Error} (split : pins.entries = before ++ (id, address) :: after)
    (present : id ∈ ids) {checked : CheckedPins}
    (passed : (t.checkEntries ids [] .empty before).result = .ok checked)
    (why : Refused t ids [] before id address e) : t.FirstFault pins ids id e := by
  have kept (other : String) (address' : Ipv4) : (other, address') ∈ keptPins ids before ↔ _ :=
    mem_kept_before_iff split other address'
  obtain ⟨-, fits, distinct⟩ := checkEntries_ok_iff.mp passed
  have pin : pins.Counts ids id address := by
    refine ⟨present, NameMap.get?_of_mem ?_⟩
    rw [split]
    exact List.mem_append_right _ List.mem_cons_self
  refine ⟨?_, fun other less e' fault => ?_⟩
  · cases why with
    | undeclared nowhere => exact .undeclared pin nowhere
    | taken again =>
      rcases again with none | again
      · cases none
      · obtain ⟨⟨other, shared⟩, there, rfl⟩ := List.mem_map.mp again
        obtain ⟨earlier, less⟩ := (kept other shared).mp there
        exact .shared pin earlier less
  · cases fault with
    | undeclared pin' nowhere => exact nowhere (fits _ ((kept _ _).mpr ⟨pin', less⟩)).1
    | @shared address' sharer pin' earlier before' =>
      have here := (kept _ _).mpr ⟨pin', less⟩
      have there := (kept _ _).mpr ⟨earlier, List.lt_trans before' less⟩
      obtain rfl : sharer = other :=
        congrArg (·.1) (List.inj_on_of_nodup_map distinct there here rfl)
      exact List.lt_irrefl _ before'

/-- What is reported before a pin is looked at. -/
theorem ignored_before (split : pins.entries = before ++ (id, address) :: after) :
    ignored ids before =
      Pins.passedOver (pins.filter fun other => !ids.contains other && decide (other < id)) := by
  have only : pins.entries.filter (fun entry => decide (entry.1 < id)) = before := by
    have ordered := pins.ordered
    rw [NameMap.Ordered, split, List.pairwise_append] at ordered
    obtain ⟨-, behind, -⟩ := ordered
    rw [split, List.filter_append, List.filter_eq_self.mpr, List.filter_eq_nil_iff.mpr,
      List.append_nil]
    · intro entry there
      rw [decide_eq_true_eq]
      rcases List.mem_cons.mp there with rfl | there
      · exact String.lt_irrefl _
      · exact String.lt_asymm ((List.pairwise_cons.mp behind).1 entry there)
    · intro entry there
      exact decide_eq_true ((mem_before_iff split entry).mp there).2
  rw [ignored, ← only, List.filter_filter]
  rfl

end

/-- What a check comes to: pins that are sound, or a first fault. -/
inductive Screened (t : Topology) (pins : Pins) (ids : List String) :
    Logged CheckedPins → Prop where
  | accepted (sound : t.SoundPins pins ids) : Screened t pins ids
      ⟨.ok ⟨pins.filter fun id => ids.contains id⟩,
        Pins.passedOver (pins.filter fun id => !ids.contains id)⟩
  | refused {id : String} {e : Error} (fault : t.FirstFault pins ids id e) : Screened t pins ids
      ⟨.error e,
        Pins.passedOver (pins.filter fun other => !ids.contains other && decide (other < id))⟩

theorem checkPins_screened (t : Topology) (pins : Pins) (ids : List String) :
    Screened t pins ids (t.checkPins pins ids) := by
  rw [checkPins]
  rcases checkEntries_cases t ids [] .empty pins.entries with
    run | ⟨before, id, address, after, e, split, run, ⟨checked, passed⟩, present, why⟩
  · have kept (id : String) (address : Ipv4) :
        pins.Counts ids id address ↔ (id, address) ∈ keptPins ids pins.entries := Pins.counts_iff
    obtain ⟨-, fits, distinct⟩ := checkEntries_ok_iff.mp (congrArg Logged.result run)
    rw [run, Pins.adding_empty]
    refine .accepted ⟨fun id address pin => (fits _ ((kept _ _).mp pin)).1,
      fun id other address pin pin' => ?_⟩
    exact congrArg (·.1)
      (List.inj_on_of_nodup_map distinct ((kept _ _).mp pin) ((kept _ _).mp pin') rfl)
  · rw [run, ignored_before split]
    exact .refused (why.firstFault split present passed)

/-- Pins that do not count change nothing in how a check ends. -/
theorem checkEntries_kept (taken : List Ipv4) (accepted : Pins)
    (entries : List (String × Ipv4)) :
    t.checkEntries ids taken accepted (keptPins ids entries) =
      ⟨(t.checkEntries ids taken accepted entries).result, []⟩ := by
  induction entries generalizing taken accepted with
  | nil => rfl
  | cons entry rest ih =>
    obtain ⟨id, address⟩ := entry
    by_cases present : id ∈ ids
    · rw [keptPins_present address rest present]
      by_cases declared : t.Declares address
      · by_cases again : address ∈ taken
        · rw [checkEntries_taken present declared again, checkEntries_taken present declared again]
          rfl
        · rw [checkEntries_free present declared again, checkEntries_free present declared again,
            ih]
      · rw [checkEntries_undeclared present declared, checkEntries_undeclared present declared]
        rfl
    · rw [keptPins_absent address rest present, ih, checkEntries_absent present]

theorem checkPins_kept (t : Topology) (pins : Pins) (ids : List String) :
    t.checkPins (pins.filter fun id => ids.contains id) ids =
      ⟨(t.checkPins pins ids).result, []⟩ := checkEntries_kept [] .empty pins.entries

/-- Only which ids there are counts, not in what order, or how often. -/
theorem checkPins_congr {ids ids' : List String} (same : ∀ id, id ∈ ids ↔ id ∈ ids') :
    t.checkPins pins ids' = t.checkPins pins ids := by
  have contains (id : String) : ids'.contains id = ids.contains id := by
    rw [Bool.eq_iff_iff, List.contains_iff_mem, List.contains_iff_mem, same]
  have entries (taken : List Ipv4) (accepted : Pins) (entries : List (String × Ipv4)) :
      t.checkEntries ids' taken accepted entries = t.checkEntries ids taken accepted entries := by
    induction entries generalizing taken accepted with
    | nil => rfl
    | cons entry rest ih => simp only [checkEntries, contains, ih]
  rw [checkPins, entries, checkPins]

/-- **Pins are screened exactly.** For all pins, which are in the order of their ids' bytes, and all
ids: the pins are accepted exactly if those that count have an address of their own each. Then these
are what is accepted, and the others are reported, each once and in order. Otherwise the first one
at fault is what the error is about, and the others before it have been reported. What does not
count makes no difference to how it ends, nor do the order of the ids and how often one is there. -/
theorem checkPins_exact (t : Topology) (pins : Pins) :
    (pins.entries.map fun e => Text.Utf8.ofString e.1).Pairwise (· < ·) ∧
    (∀ ids : List String,
      let check := t.checkPins pins ids
      let others := pins.filter fun id => !ids.contains id
      ((∃ checked, check.result = .ok checked) ↔ t.SoundPins pins ids) ∧
      (∀ checked, check.result = .ok checked →
        (∀ id address, checked.get? id = some address ↔ pins.Counts ids id address) ∧
          check.events = Pins.passedOver others) ∧
      (∀ e, check.result = .error e ↔ ∃ id, t.FirstFault pins ids id e) ∧
      (∀ id e, t.FirstFault pins ids id e →
        check.events = Pins.passedOver (others.filter fun other => other < id)) ∧
      t.checkPins (pins.filter fun id => ids.contains id) ids = ⟨check.result, []⟩) ∧
    ∀ ids ids' : List String, (∀ id, id ∈ ids ↔ id ∈ ids') →
      t.checkPins pins ids' = t.checkPins pins ids := by
  refine ⟨?_, fun ids => ?_, fun ids ids' => checkPins_congr⟩
  · exact List.pairwise_map.mpr (pins.ordered.imp Text.Utf8.ofString_lt_iff.mpr)
  · intro check others
    have screened : Screened t pins ids check := checkPins_screened t pins ids
    have unaffected : t.checkPins (pins.filter fun id => ids.contains id) ids =
        ⟨check.result, []⟩ := checkPins_kept t pins ids
    have accepted (id : String) (address : Ipv4) :
        (pins.filter fun id => ids.contains id).get? id = some address ↔
          pins.Counts ids id address := by
      rw [Pins.counts_iff]
      have found {m : Pins} : m.get? id = some address ↔ (id, address) ∈ m.entries :=
        ⟨Pins.mem_of_get?, NameMap.get?_of_mem⟩
      exact found
    clear_value check
    cases screened with
    | accepted sound =>
      refine ⟨⟨fun _ => sound, fun _ => ⟨_, rfl⟩⟩, ?_, fun e => ⟨nofun, ?_⟩, ?_, unaffected⟩
      · intro checked made
        cases made
        exact ⟨accepted, rfl⟩
      · intro ⟨id, fault⟩
        exact absurd fault.fault (sound.faultless id e)
      · intro id e fault
        exact absurd fault.fault (sound.faultless id e)
    | @refused id e fault =>
      refine ⟨⟨nofun, fun sound => absurd fault.fault (sound.faultless id e)⟩, nofun,
        fun e' => ⟨?_, ?_⟩, fun id' e' fault' => ?_, unaffected⟩
      · intro same
        cases same
        exact ⟨id, fault⟩
      · intro ⟨id', fault'⟩
        rw [(fault.unique fault').2]
      · obtain ⟨rfl, -⟩ := fault.unique fault'
        have both : others.filter (fun other => decide (other < id)) =
            pins.filter fun other => !ids.contains other && decide (other < id) := by
          simp only [others, NameMap.filter, List.filter_filter, Bool.and_comm]
        rw [both]

/-- Two pins for brigades that are not there have the addresses of others or none, and the last pin
has no address in the topology either; what is reported is that one address is asked for twice. -/
theorem checkPins_exact_shared :
    let t : Topology := ⟨"r", [{ (default : Node) with slots := [⟨10, 0, 0, 5⟩, ⟨10, 0, 0, 6⟩] }]⟩
    let pins : Pins := .ofList [("a", ⟨10, 0, 0, 5⟩), ("b", ⟨10, 0, 0, 5⟩), ("c", ⟨10, 9, 9, 9⟩),
      ("d", ⟨10, 0, 0, 5⟩), ("e", ⟨10, 9, 9, 9⟩)]
    let ids := ["e", "d", "b", "b"]
    let ids' := ["b", "d", "e"]
    t.FirstFault pins ids "d" (.pinDuplicated ⟨10, 0, 0, 5⟩ "d") ∧
      (∀ id, id ∈ ids ↔ id ∈ ids') ∧
      (t.checkPins pins ids').result = .error (.pinDuplicated ⟨10, 0, 0, 5⟩ "d") ∧
      (t.checkPins pins ids').events =
        [.pinIgnored "a" ⟨10, 0, 0, 5⟩, .pinIgnored "c" ⟨10, 9, 9, 9⟩] := by
  intro t pins ids ids'
  obtain ⟨-, exact, congr⟩ := checkPins_exact t pins
  obtain ⟨-, -, errors, reports, -⟩ := exact ids
  have refused : (t.checkPins pins ids).result = .error (.pinDuplicated ⟨10, 0, 0, 5⟩ "d") := by
    decide +kernel
  obtain ⟨id, fault⟩ := (errors _).mp refused
  have named : id = "d" := by
    cases fault.fault
    rfl
  subst named
  have same : ∀ id, id ∈ ids ↔ id ∈ ids' := by
    simp only [ids, ids', List.mem_cons, List.not_mem_nil]
    grind
  rw [congr ids ids' same]
  exact ⟨fault, same, refused, (reports _ _ fault).trans (by decide +kernel)⟩

end Topology
end Rehoming
