import Mathlib.Data.Option.Basic
import Rehoming.Zstd.Frame

/-! What the limit on the output is for. Each step of reading makes sure that there is room before
it adds to the output, and does the same with less room if what it adds still fits. Main statement:
the limit is exact. It plays no part in which content data gives, and lets it through exactly where
it is long enough. -/

namespace Rehoming
namespace Zstd

/-! ## Runs with other room -/

/-- Two runs of one step, with room for `limit` and `limit'` bytes, of which `least` are written
already. The first does not write beyond its room, and the second gives the same as long as that
is within its own. -/
structure Metered {α : Type} (limit limit' least : Nat) (size : α → Nat) (x y : Option α) :
    Prop where
  grows : ∀ a, x = some a → least ≤ size a
  within : ∀ a, x = some a → size a ≤ max least limit
  given : ∀ a, x = some a → size a ≤ limit' → y = some a

namespace Metered

variable {α β : Type} {limit limit' least : Nat} {size : α → Nat} {size' : β → Nat}
  {x y : Option α}

theorem bind {f g : α → Option β} (first : Metered limit limit' least size x y)
    (next : ∀ a, x = some a → Metered limit limit' (size a) size' (f a) (g a)) :
    Metered limit limit' least size' (x >>= f) (y >>= g) := by
  refine ⟨fun b h => ?_, fun b h => ?_, fun b h fits => ?_⟩ <;>
    obtain ⟨a, here, h⟩ := Option.bind_eq_some_iff.mp h
  · exact Nat.le_trans (first.grows a here) ((next a here).grows b h)
  · have before := first.within a here
    have after := (next a here).within b h
    omega
  · have small := Nat.le_trans ((next a here).grows b h) fits
    exact Option.bind_eq_some_iff.mpr ⟨a, first.given a here small, (next a here).given b h fits⟩

/-- A step without output, which both runs share. -/
theorem same (kept : ∀ a, x = some a → size a = least) :
    Metered limit limit' least size x x where
  grows a h := Nat.le_of_eq (kept a h).symm
  within a h := kept a h ▸ Nat.le_max_left ..
  given _ h _ := h

theorem after {f g : α → Option β}
    (next : ∀ a, x = some a → Metered limit limit' least size' (f a) (g a)) :
    Metered limit limit' least size' (x >>= f) (x >>= g) := by
  have shared : Metered limit limit' least (fun _ : α => least) x x := same fun _ _ => rfl
  exact shared.bind next

theorem none : Metered limit limit' least size .none y := ⟨nofun, nofun, nofun⟩

/-- Looking for room before it is taken. -/
theorem ite {needed : Nat} (more : least ≤ needed) (yes : Metered limit limit' needed size x y)
    {x' y' : Option α} (no : x' = .none) :
    Metered limit limit' least size (if needed ≤ limit then x else x')
      (if needed ≤ limit' then y else y') := by
  subst no
  by_cases room : needed ≤ limit
  · rw [if_pos room]
    refine ⟨fun a h => Nat.le_trans more (yes.grows a h), fun a h => ?_, fun a h fits => ?_⟩
    · have := yes.within a h
      omega
    · rw [if_pos (Nat.le_trans (yes.grows a h) fits)]
      exact yes.given a h fits
  · rw [if_neg room]
    exact .none

theorem check {p q : Prop} [Decidable p] [Decidable q] {needed : Nat} (more : least ≤ needed)
    (mine : p → needed ≤ limit) (yours : p → needed ≤ limit' → q) :
    Metered limit limit' least (fun _ => needed) (guard p) (guard q) := by
  refine ⟨fun _ _ => more, fun u h => ?_, fun u h less => ?_⟩
  · exact Nat.le_trans (mine ((Option.guard_eq_some' u).mp h)) (Nat.le_max_right ..)
  · exact (Option.guard_eq_some' u).mpr (yours ((Option.guard_eq_some' u).mp h) less)

end Metered

variable {limit limit' : Nat}

/-! ## Blocks -/

theorem size_foldl_push (out : Array UInt8) (bs : Bytes) :
    (bs.foldl Array.push out).size = out.size + bs.length := by
  induction bs generalizing out with
  | nil => rfl
  | cons b bs ih =>
    rw [List.foldl_cons, ih, Array.size_push, List.length_cons]
    omega

namespace Sequences

theorem size_copyBack (offset size : Nat) (out : Array UInt8) :
    (copyBack offset size out).size = out.size + size := by
  induction size generalizing out with
  | zero => rfl
  | succ size ih =>
    rw [copyBack, ih, Array.size_push]
    omega

theorem Progress.run?_metered (start : Nat) (p : Progress) (s : Sequence)
    (offsets : Nat × Nat × Nat) :
    Metered limit limit' p.out.size (fun q => q.out.size) (p.run? start limit s offsets)
      (p.run? start limit' s offsets) := by
  unfold Progress.run?
  refine .bind (.check (Nat.le_add_right_of_le (Nat.le_add_right ..)) (fun fits => fits.1)
    fun fits less => ⟨less, fits.2⟩) fun _ _ => ?_
  refine .after fun u sized => .same fun q h => ?_
  have front := (Option.guard_eq_some' u).mp sized
  cases h
  refine (size_copyBack ..).trans (congrArg (· + s.size) ?_)
  exact (size_foldl_push ..).trans (congrArg (p.out.size + ·) front)

theorem run?_metered (tables : Fse.Table × Fse.Table × Fse.Table) (start count : Nat)
    (st : States) (bits : List Bool) (p : Progress) :
    Metered limit limit' p.out.size (fun q => q.out.size) (run? tables start limit count st bits p)
      (run? tables start limit' count st bits p) := by
  have finish (bits : List Bool) (p : Progress) : Metered limit limit' p.out.size
      (fun q => q.out.size) (if bits.isEmpty then some p else none)
      (if bits.isEmpty then some p else none) := by
    refine .same fun q h => ?_
    split at h <;> cases h
    rfl
  induction count generalizing st bits p with
  | zero => exact finish bits p
  | succ count ih =>
    unfold run?
    -- what a sequence is does not depend on the limit; carrying it out does
    refine .after fun value _ => ?_
    refine .after fun size _ => ?_
    refine .after fun literals _ => ?_
    refine .after fun offset _ => ?_
    refine .bind (Progress.run?_metered ..) fun p _ => ?_
    split
    · exact finish _ p
    · refine .after fun a _ => ?_
      refine .after fun c _ => ?_
      refine .after fun b _ => ?_
      exact ih ..

theorem execute?_metered (start : Nat) (memory : Memory) (literals : Literals.Section)
    (out : Array UInt8) :
    Metered limit limit' out.size (fun r => r.1.size) (execute? start limit memory literals out)
      (execute? start limit' memory literals out) := by
  unfold execute?
  refine .after fun count _ => ?_
  dsimp only
  split
  · refine .bind (.check (Nat.le_add_right ..) (fun fits => fits.2)
      fun fits less => ⟨fits.1, less⟩) fun _ _ => .same fun r h => ?_
    cases h
    exact size_foldl_push ..
  · refine .after fun _ _ => ?_
    refine .after fun lengths _ => ?_
    refine .after fun offsets _ => ?_
    refine .after fun sizes _ => ?_
    refine .after fun bits _ => ?_
    refine .after fun a _ => ?_
    refine .after fun b _ => ?_
    refine .after fun c _ => ?_
    refine .bind (run?_metered _ start _ _ _ ⟨out, _, _⟩) fun p _ => ?_
    refine .bind (.check (Nat.le_add_right ..) id fun _ less => less) fun _ _ =>
      .same fun r h => ?_
    cases h
    exact size_foldl_push ..

end Sequences

theorem Memory.block?_metered (start blockLimit : Nat) (memory : Memory) (bs : Bytes)
    (out : Array UInt8) :
    Metered limit limit' out.size (fun r => r.1.size) (memory.block? start limit blockLimit bs out)
      (memory.block? start limit' blockLimit bs out) := by
  unfold block?
  refine .after fun _ _ => ?_
  refine .after fun literals _ => ?_
  exact Sequences.execute?_metered ..

/-! ## Frames -/

theorem blocks?_metered (header : Header) (start fuel : Nat) (memory : Memory)
    (out : Array UInt8) (bs : Bytes) :
    Metered limit limit' out.size (fun r => r.1.size)
      (blocks? header start limit fuel memory out bs)
      (blocks? header start limit' fuel memory out bs) := by
  induction fuel generalizing memory out bs with
  | zero => exact .none
  | succ fuel ih =>
    unfold blocks?
    refine .after fun _ _ => ?_
    dsimp only
    refine .after fun stored enough => ?_
    -- whatever the kind of a block, the others come behind it
    have next (last : Prop) [Decidable last] (r : Array UInt8 × Memory) (bs : Bytes) :
        Metered limit limit' r.1.size (fun r => r.1.size)
          (if last then some (r.1, bs) else blocks? header start limit fuel r.2 r.1 bs)
          (if last then some (r.1, bs) else blocks? header start limit' fuel r.2 r.1 bs) := by
      split
      · refine .same fun _ h => ?_
        cases h
        rfl
      · exact ih ..
    split
    · rename_i plain
      refine .ite (Nat.le_add_right ..) (.bind (.same fun r h => ?_) fun r _ => next _ r _) rfl
      rw [plain, if_neg Nat.zero_ne_one] at enough
      cases h
      exact (size_foldl_push ..).trans (congrArg (out.size + ·)
        (List.length_take_of_le ((Option.guard_eq_some' stored).mp enough)))
    · refine .ite (Nat.le_add_right ..) (.bind (.same fun r h => ?_) fun r _ => next _ r _) rfl
      cases h
      exact (size_foldl_push ..).trans (congrArg (out.size + ·) List.length_replicate)
    · exact .bind (Memory.block?_metered ..) fun r _ => next _ r _
    · have reserved : Metered limit limit' out.size (fun r : Array UInt8 × Memory => r.1.size)
          none none := .none
      exact reserved.bind fun r _ => next _ r _

theorem frame?_metered (out : Array UInt8) (bs : Bytes) :
    Metered limit limit' out.size (fun r => r.1.size) (frame? limit out bs)
      (frame? limit' out bs) := by
  unfold frame?
  refine .after fun header _ => ?_
  refine .bind (blocks?_metered ..) fun content _ => ?_
  -- what is left are checks of what was written
  refine .after fun _ _ => ?_
  dsimp only
  split
  · refine .after fun _ _ => .same fun r h => ?_
    cases h
    rfl
  · refine .same fun r h => ?_
    cases h
    rfl

theorem frames?_metered (fuel : Nat) (out : Array UInt8) (bs : Bytes) :
    Metered limit limit' out.size Array.size (frames? limit fuel out bs)
      (frames? limit' fuel out bs) := by
  induction fuel generalizing out bs with
  | zero =>
    cases bs with
    | nil =>
      refine .same fun r h => ?_
      cases h
      rfl
    | cons b bs => exact .none
  | succ fuel ih =>
    cases bs with
    | nil =>
      refine .same fun r h => ?_
      cases h
      rfl
    | cons b bs =>
      unfold frames?
      refine .after fun _ _ => ?_
      dsimp only
      split
      · exact .after fun _ _ => ih ..
      · refine .after fun _ _ => ?_
        exact .bind (frame?_metered ..) fun content _ => ih ..

/-! ## All data -/

/-- Whatever the data is, the frames together never fill more than the room there is. -/
theorem size_le_of_frames? {fuel : Nat} {bs : Bytes} {out : Array UInt8}
    (found : frames? limit fuel #[] bs = some out) : out.size ≤ limit := by
  have run : Metered limit limit 0 Array.size (frames? limit fuel #[] bs) _ :=
    frames?_metered fuel #[] bs
  exact Nat.le_trans (run.within out found) (Nat.le_of_eq (Nat.zero_max limit))

/-- The last look at the length of the content refuses nothing. -/
theorem decompress?_eq_frames? (limit : Nat) (bs : Bytes) :
    decompress? limit bs = (frames? limit bs.length #[] bs).map Array.toList := by
  rw [decompress?]
  cases found : frames? limit bs.length #[] bs with
  | none => rfl
  | some out => exact if_pos (size_le_of_frames? found)

theorem length_le_of_decompress? {bs content : Bytes}
    (given : decompress? limit bs = some content) : content.length ≤ limit := by
  rw [decompress?_eq_frames?] at given
  obtain ⟨out, found, rfl⟩ := Option.map_eq_some_iff.mp given
  exact size_le_of_frames? found

/-- Content is given wherever there is room for it. -/
theorem decompress?_of_fits {bs content : Bytes} (given : decompress? limit bs = some content)
    (fits : content.length ≤ limit') : decompress? limit' bs = some content := by
  rw [decompress?_eq_frames?] at given ⊢
  obtain ⟨out, found, rfl⟩ := Option.map_eq_some_iff.mp given
  rw [(frames?_metered bs.length #[] bs).given out found fits, Option.map_some]

/-- **The limit does not change the content.** Two limits that let content through give the
same. -/
theorem decompress?_agree {bs content content' : Bytes}
    (given : decompress? limit bs = some content)
    (given' : decompress? limit' bs = some content') : content = content' := by
  rcases Nat.le_total content.length content'.length with h | h
  · have fits := Nat.le_trans h (length_le_of_decompress? given')
    exact Option.some.inj ((decompress?_of_fits given fits).symm.trans given')
  · have fits := Nat.le_trans h (length_le_of_decompress? given)
    exact Option.some.inj (given.symm.trans (decompress?_of_fits given' fits))

/-- **The limit is exact.** Data that gives content under some limit gives it under those limits
that the content is within, and under no others. -/
theorem decompress?_exact {bs content : Bytes} (given : decompress? limit bs = some content)
    (limit' : Nat) :
    decompress? limit' bs = if content.length ≤ limit' then some content else none := by
  split
  · rename_i fits
    exact decompress?_of_fits given fits
  · rename_i longer
    cases other : decompress? limit' bs with
    | none => rfl
    | some content' =>
      rw [decompress?_agree given other] at longer
      exact absurd (length_le_of_decompress? other) longer

end Zstd
end Rehoming
