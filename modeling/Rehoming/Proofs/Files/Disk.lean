import Mathlib.Data.List.Basic
import Rehoming.Disk
import Rehoming.Proofs.Sequences

/-! What putting and removing files does to a disk. Names are only followed through directories,
so a file more or less does not change where a path leads. Main statements: a temporary file that
is removed was never there, and a file that was put where a path leads is read under that path. -/

namespace Rehoming
namespace Disk

variable {d d' : Disk}

/-! ## Entries -/

theorem lookup_filter_ne {α : Type} {here there : Location} (h : here ≠ there)
    (entries : List (Location × α)) :
    (entries.filter fun e => e.1 ≠ there).lookup here = entries.lookup here := by
  induction entries with
  | nil => rfl
  | cons e rest ih =>
    by_cases gone : e.1 = there
    · have other : (here == e.1) = false := by simpa [gone] using h
      rw [List.filter_cons_of_neg (by simpa using gone), List.lookup_cons, other, ih]
    · rw [List.filter_cons_of_pos (by simpa using gone), List.lookup_cons, List.lookup_cons, ih]

theorem entry?_put_self {location : Location} (h : location ≠ []) (entry : DiskEntry) :
    Disk.entry? (d.put location entry) location = some entry := by
  simp [ entry?, put, h]

theorem entry?_put_ne {here there : Location} (h : here ≠ there) (entry : DiskEntry) :
    Disk.entry? (d.put there entry) here = d.entry? here := by
  have other : (here == there) = false := by simpa using h
  rw [ entry?, entry?, put, List.lookup_cons, other]
  dsimp only [remove]
  rw [lookup_filter_ne h]

theorem contentAt_put {location : Location} (h : location ≠ []) (content : Bytes) :
    (d.put location (.file content)).contentAt location = content := by
  rw [contentAt, entry?_put_self h]

theorem ne_nil_of_entry?_none {location : Location} (h : d.entry? location = none) :
    location ≠ [] := by
  rintro rfl
  simp [ entry?] at h

/-- What was put where nothing was can be removed without a trace. -/
theorem remove_put {location : Location} (free : d.entry? location = none) (entry : DiskEntry) :
    (d.put location entry).remove location = d := by
  have absent : ∀ e ∈ d.entries, e.1 ≠ location := by
    rw [ entry?, if_neg (by simpa using ne_nil_of_entry?_none free),
      List.lookup_eq_none_iff] at free
    intro e he same
    simpa [same] using free e he
  have kept : d.entries.filter (fun e => e.1 ≠ location) = d.entries := by
    refine List.filter_eq_self.mpr fun e he => ?_
    simpa using absent e he
  rw [put, remove, remove]
  dsimp only
  rw [List.filter_cons_of_neg (by simp), kept, kept]

theorem put_put (location : Location) (first second : DiskEntry) :
    (d.put location first).put location second = d.put location second := by
  simp [put, remove]

/-! ## Following names -/

/-- The same directories, and the same place to begin from. -/
structure Alike (d d' : Disk) : Prop where
  working : d.working = d'.working
  directories : ∀ location, d.entry? location = some .directory ↔
    d'.entry? location = some .directory

theorem Alike.symm (h : d.Alike d') : d'.Alike d :=
  ⟨h.working.symm, fun location => (h.directories location).symm⟩

/-- A file that takes the place of no directory. -/
theorem alike_put {location : Location} (h : d.entry? location ≠ some .directory)
    (content : Bytes) : d.Alike (d.put location (.file content)) := by
  refine ⟨rfl, fun here => ?_⟩
  by_cases same : here = location
  · subst same
    have proper : here ≠ [] := by
      rintro rfl
      exact h rfl
    simp [h, entry?_put_self proper]
  · rw [ entry?_put_ne same]

theorem start_congr (h : d.Alike d') (path : FilePath) : d.start path = d'.start path := by
  rw [start, start, h.working]

/-- A name that a file can have. -/
structure Proper (name : String) : Prop where
  nonempty : name ≠ ""
  here : name ≠ "."
  up : name ≠ ".."
  short : ¬ maxName < name.utf8ByteSize

section

variable {name : String} {here : Location} {rest : List String}

/-- At other names it does not matter what there is: they lead on, or nowhere. -/
theorem walk_improper (improper : ¬ Proper name) (here : Location) :
    (∃ next, ∀ (d : Disk) rest, d.walk here (name :: rest) = d.walk next rest) ∨
      ∃ e, ∀ (d : Disk) rest, d.walk here (name :: rest) = .error e := by
  by_cases idle : name = "" ∨ name = "."
  · exact .inl ⟨here, fun d rest => by rw [walk, if_pos idle]⟩
  by_cases up : name = ".."
  · exact .inl ⟨here.dropLast, fun d rest => by rw [walk, if_neg idle, if_pos up]⟩
  by_cases long : maxName < name.utf8ByteSize
  · exact .inr ⟨.nameTooLong, fun d rest => by rw [walk, if_neg idle, if_neg up, if_pos long]⟩
  · obtain ⟨nonempty, other⟩ := not_or.mp idle
    exact absurd ⟨nonempty, other, up, long⟩ improper

theorem walk_missing (h : Proper name) (missing : d.entry? (here ++ [name]) = none) :
    d.walk here (name :: rest) = .error .notFound := by
  rw [walk, if_neg (by simp [h.nonempty, h.here]), if_neg h.up, if_neg h.short, missing]

theorem walk_into (h : Proper name) (directory : d.entry? (here ++ [name]) = some .directory) :
    d.walk here (name :: rest) = d.walk (here ++ [name]) rest := by
  rw [walk, if_neg (by simp [h.nonempty, h.here]), if_neg h.up, if_neg h.short, directory]

theorem walk_file (h : Proper name) {content : Bytes}
    (file : d.entry? (here ++ [name]) = some (.file content)) :
    d.walk here (name :: rest) =
      if rest.isEmpty then .ok (here ++ [name], .file content) else .error .notDirectory := by
  rw [walk, if_neg (by simp [h.nonempty, h.here]), if_neg h.up, if_neg h.short, file]

end

/-- The way to a directory leads through directories only, so it is one on any such disk, and
more names may follow. -/
theorem walk_append (h : d.Alike d') {here there : Location} {names : List String}
    (way : d.walk here names = .ok (there, .directory)) (more : List String) :
    d'.walk here (names ++ more) = d'.walk there more := by
  induction names generalizing here with
  | nil =>
    cases way
    rfl
  | cons name rest ih =>
    rw [List.cons_append]
    by_cases proper : Proper name
    · cases entry : d.entry? (here ++ [name]) with
      | none =>
        rw [walk_missing proper entry] at way
        cases way
      | some found =>
        cases found with
        | directory =>
          rw [walk_into proper entry] at way
          rw [walk_into proper ((h.directories _).mp entry)]
          exact ih way
        | file content =>
          rw [walk_file proper entry] at way
          split at way <;> cases way
    · obtain ⟨next, leads⟩ | ⟨e, stops⟩ := walk_improper proper here
      · rw [leads] at way ⊢
        exact ih way
      · rw [stops] at way
        cases way

theorem walk_directory (h : d.Alike d') {here there : Location} {names : List String}
    (way : d.walk here names = .ok (there, .directory)) :
    d'.walk here names = .ok (there, .directory) := by
  have same := walk_append h way []
  rw [List.append_nil] at same
  rw [same, walk]

/-- A file's name stands last, with no slash behind it. -/
theorem eq_append_of_trimmed {names : List String}
    (named : (names.reverse.dropWhile (· == "")).reverse.getLastD "." ≠ ".")
    (bare : ¬ (names.reverse.dropWhile (· == "")).reverse.length < names.length) :
    ∃ front name, names = front ++ [name] ∧ name ≠ "" := by
  have suffix : names.reverse.dropWhile (· == "") <:+ names.reverse := List.dropWhile_suffix _
  have whole : names.reverse.dropWhile (· == "") = names.reverse := by
    refine suffix.eq_of_length ?_
    have := suffix.length_le
    rw [List.length_reverse] at this bare ⊢
    omega
  rcases List.eq_nil_or_concat names with rfl | ⟨front, name, rfl⟩
  · exact absurd rfl named
  · refine ⟨front, name, List.concat_eq_append, ?_⟩
    rintro rfl
    have longer : front.reverse.dropWhile (· == "") = "" :: front.reverse := by simpa using whole
    have shorter := (List.dropWhile_suffix (p := (· == "")) (l := front.reverse)).length_le
    rw [longer, List.length_cons] at shorter
    omega

theorem trimmed_append (front : List String) {name : String} (h : name ≠ "") :
    ((front ++ [name]).reverse.dropWhile (· == "")).reverse = front ++ [name] := by
  rw [List.reverse_append, List.reverse_singleton, List.singleton_append,
    List.dropWhile_cons_of_neg (by simpa using h), List.reverse_cons, List.reverse_reverse]

/-- **Where a file gets its place.** A path with a proper last name leads to a directory, in which
no directory has that name. -/
theorem place_eq_ok_iff {path : FilePath} {location : Location} :
    d.place path = .ok location ↔ ∃ here front there name,
      d.start path = .ok (here, front ++ [name]) ∧ d.walk here front = .ok (there, .directory)
      ∧ Proper name ∧ d.entry? (there ++ [name]) ≠ some .directory
      ∧ location = there ++ [name] := by
  constructor
  · intro h
    obtain ⟨⟨here, names⟩, began, h⟩ := bind_ok_iff.mp h
    obtain ⟨⟨there, entry⟩, way, h⟩ := bind_ok_iff.mp h
    obtain ⟨directory, h⟩ := refusing_ok_iff.mp h
    obtain ⟨moving, h⟩ := refusing_ok_iff.mp h
    obtain ⟨short, h⟩ := refusing_ok_iff.mp h
    obtain ⟨bare, h⟩ := refusing_ok_iff.mp h
    obtain ⟨free, h⟩ := refusing_ok_iff.mp h
    have placed := Except.ok.inj h
    obtain ⟨front, name, rfl, nonempty⟩ :=
      eq_append_of_trimmed (fun same => moving (.inl same)) bare
    rw [trimmed_append front nonempty] at way moving short free placed
    rw [List.getLastD_concat] at moving short free placed
    rw [List.dropLast_concat] at way
    cases not_not.mp directory
    have proper : Proper name :=
      ⟨nonempty, fun same => moving (.inl same), fun same => moving (.inr same), short⟩
    exact ⟨here, front, there, name, began, way, proper, free, placed.symm⟩
  · intro ⟨here, front, there, name, began, way, proper, free, same⟩
    subst same
    have trimmed := trimmed_append front proper.nonempty
    refine bind_ok_iff.mpr ⟨(here, front ++ [name]), began, ?_⟩
    refine bind_ok_iff.mpr ⟨(there, .directory), ?_, ?_⟩
    · rw [trimmed, List.dropLast_concat, way]
    have last : ((front ++ [name]).reverse.dropWhile (· == "")).reverse.getLastD "." = name := by
      rw [trimmed, List.getLastD_concat]
    refine refusing_ok_iff.mpr ⟨not_not.mpr rfl, refusing_ok_iff.mpr ⟨?_, ?_⟩⟩
    · rw [last]
      intro moving
      rcases moving with rfl | rfl
      · exact proper.here rfl
      · exact proper.up rfl
    refine refusing_ok_iff.mpr ⟨?_, refusing_ok_iff.mpr ⟨?_, refusing_ok_iff.mpr ⟨?_, ?_⟩⟩⟩
    · rw [last]
      exact proper.short
    · rw [trimmed]
      exact Nat.lt_irrefl _
    · rw [last]
      exact free
    · rw [last]
      rfl

theorem place_congr (h : d.Alike d') {path : FilePath} {location : Location}
    (placed : d.place path = .ok location) : d'.place path = .ok location := by
  obtain ⟨here, front, there, name, began, way, proper, free, same⟩ := place_eq_ok_iff.mp placed
  refine place_eq_ok_iff.mpr ⟨here, front, there, name, ?_, walk_directory h way, proper, ?_, same⟩
  · rw [← start_congr h, began]
  · rwa [Ne, ← h.directories]

/-- **What was put where a path leads is read under that path.** -/
theorem read_put {path : FilePath} {location : Location} (placed : d.place path = .ok location)
    (content : Bytes) : (d.put location (.file content)).read path = .ok content := by
  obtain ⟨here, front, there, name, began, way, proper, free, rfl⟩ := place_eq_ok_iff.mp placed
  have alike := alike_put free content
  have found := entry?_put_self (d := d) (List.append_ne_nil_of_right_ne_nil there
    (List.cons_ne_nil name [])) (.file content)
  have resolved : (d.put (there ++ [name]) (.file content)).resolve path =
      .ok (there ++ [name], .file content) := by
    refine bind_ok_iff.mpr ⟨(here, front ++ [name]), ?_, ?_⟩
    · rw [← start_congr alike, began]
    · dsimp only
      rw [walk_append alike way, walk_file proper found]
      rfl
  exact bind_ok_iff.mpr ⟨_, resolved, rfl⟩

/-! ## Temporary files -/

/-- These names are a way to a directory, and then that of a file in it. -/
def LeadsTo (d : Disk) (here : Location) (names : List String) (location : Location) : Prop :=
  ∃ front there name, names = front ++ [name] ∧ d.walk here front = .ok (there, .directory) ∧
    Proper name ∧ location = there ++ [name]

/-- Where a new file is, a way ends that had led nowhere; all others lead where they did. -/
theorem walk_put_fresh {location : Location} (free : d.entry? location = none) (content : Bytes)
    (here : Location) (names : List String) :
    (d.put location (.file content)).walk here names = d.walk here names ∨
      (d.walk here names).toOption = none ∧
        (((d.put location (.file content)).walk here names).toOption = none ∨
          d.LeadsTo here names location) := by
  induction names generalizing here with
  | nil => exact .inl rfl
  | cons name rest ih =>
    -- a step that is made on both disks
    have step {next : Location}
        (first : ∀ names, d.walk here (name :: names) = d.walk next names)
        (second : ∀ names, (d.put location (.file content)).walk here (name :: names) =
          (d.put location (.file content)).walk next names) :
        (d.put location (.file content)).walk here (name :: rest) = d.walk here (name :: rest) ∨
          (d.walk here (name :: rest)).toOption = none ∧
            (((d.put location (.file content)).walk here (name :: rest)).toOption = none ∨
              d.LeadsTo here (name :: rest) location) := by
      have behind := ih next
      rw [← first, ← second] at behind
      refine behind.imp id (And.imp id (Or.imp id ?_))
      rintro ⟨front, there, last, rfl, way, proper, placed⟩
      exact ⟨name :: front, there, last, rfl, (first front).trans way, proper, placed⟩
    by_cases proper : Proper name
    · by_cases same : here ++ [name] = location
      · subst same
        have found := entry?_put_self (d := d) (ne_nil_of_entry?_none free) (.file content)
        refine .inr ⟨by rw [walk_missing proper free]; rfl, ?_⟩
        cases rest with
        | nil => exact .inr ⟨[], here, name, rfl, rfl, proper, rfl⟩
        | cons next rest => exact .inl (by rw [walk_file proper found]; rfl)
      · have kept := entry?_put_ne (d := d) same (.file content)
        cases entry : d.entry? (here ++ [name]) with
        | none =>
          exact .inl (by rw [walk_missing proper entry, walk_missing proper (kept.trans entry)])
        | some found =>
          cases found with
          | directory =>
            exact step (fun _ => walk_into proper entry)
              fun _ => walk_into proper (kept.trans entry)
          | file =>
            exact .inl (by rw [walk_file proper entry, walk_file proper (kept.trans entry)])
    · obtain ⟨next, leads⟩ | ⟨e, stops⟩ := walk_improper proper here
      · exact step (leads _) (leads _)
      · exact .inl (by rw [stops, stops])

/-- A new file is only found by those who have looked for one in its place, and found none. -/
theorem content?_put_fresh {location : Location} (free : d.entry? location = none)
    (content : Bytes) (path : FilePath) :
    (d.put location (.file content)).content? path = d.content? path ∨
      d.content? path = none ∧ d.place path = .ok location := by
  have began : (d.put location (.file content)).start path = d.start path := rfl
  rw [content?, content?, read, read, resolve, resolve, began]
  cases start : d.start path with
  | error e => exact .inl rfl
  | ok way =>
    obtain ⟨here, names⟩ := way
    have nothing {x : Except OsError (Location × DiskEntry)}
        {f : Location × DiskEntry → Except OsError Bytes} (failed : x.toOption = none) :
        (x >>= f).toOption = none := by
      cases x with
      | error e => rfl
      | ok found => cases failed
    rcases walk_put_fresh free content here names with same | ⟨lost, lost' | found⟩
    · exact .inl (by simp only [bind, Except.bind, same])
    · exact .inl ((nothing lost').trans (nothing lost).symm)
    · obtain ⟨front, there, name, rfl, led, proper, rfl⟩ := found
      refine .inr ⟨nothing lost, place_eq_ok_iff.mpr ⟨here, front, there, name, start, led, proper,
        ?_, rfl⟩⟩
      rw [free]
      nofun

theorem le_foldl_max (ns : List Nat) (start : Nat) :
    start ≤ ns.foldl max start ∧ ∀ n ∈ ns, n ≤ ns.foldl max start := by
  induction ns generalizing start with
  | nil => simp
  | cons m ns ih =>
    obtain ⟨above, each⟩ := ih (max start m)
    refine ⟨Nat.le_trans (Nat.le_max_left start m) above, fun n hn => ?_⟩
    rcases List.mem_cons.mp hn with rfl | hn
    · exact Nat.le_trans (Nat.le_max_right start n) above
    · exact each n hn

/-- A fresh name is longer than all names on the way to an entry. -/
theorem length_join_lt_freshName {e : Location × DiskEntry} (h : e ∈ d.entries) :
    (String.join e.1).length < d.freshName.length := by
  let longest := (d.entries.map fun e => (String.join e.1).length).foldl max 0
  have bound : (String.join e.1).length ≤ longest := (le_foldl_max _ 0).2 _ (List.mem_map_of_mem h)
  have fresh : d.freshName.length = (".tmp".toList ++ List.replicate longest 'x').length :=
    String.length_ofList
  rw [List.length_append, List.length_replicate] at fresh
  have prefixed : ".tmp".toList.length = 4 := rfl
  omega

theorem entry?_freshName (d : Disk) (here : Location) :
    d.entry? (here ++ [d.freshName]) = none := by
  have nonempty : ¬ (here ++ [d.freshName]).isEmpty := by simp
  rw [ entry?, if_neg nonempty, List.lookup_eq_none_iff]
  intro e he
  rw [bne_iff_ne]
  intro same
  have longer := length_join_lt_freshName he
  rw [← same, String.join_append, String.length_append, String.join_cons, String.length_append]
    at longer
  omega

theorem createTemp_eq_ok {directory : FilePath} {location : Location}
    (h : d.createTemp directory = .ok (location, d')) :
    d.entry? location = none ∧ d' = d.put location (.file []) := by
  obtain ⟨⟨here, entry⟩, -, h⟩ := bind_ok_iff.mp h
  obtain ⟨-, made⟩ := refusing_ok_iff.mp h
  cases Except.ok.inj made
  exact ⟨d.entry?_freshName here, rfl⟩

end Disk
end Rehoming
