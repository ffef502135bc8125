import Mathlib.Tactic.Ring
import Rehoming.Proofs.Text.Decimal
import Rehoming.Proofs.Times.Calendar

/-! Times and their texts. What is written for a time is read part by part: each part has as many
digits as are written for it, and what follows it is no digit. Main statement: a time is read back
if and only if it is one that a text can give. -/

namespace Rehoming.Timestamp

open Text

/-! ## Parts -/

theorem isBlank_eq_false_of_isDigit {c : Char} (h : Decimal.isDigit c = true) :
    isBlank c = false := by
  have bounds : '0' ≤ c ∧ c ≤ '9' := by simpa [Decimal.isDigit] using h
  have low : 48 ≤ c.toNat := bounds.1
  have high : c.toNat ≤ 57 := bounds.2
  simp only [isBlank, Bool.or_eq_false_iff, Bool.and_eq_false_iff, decide_eq_false_iff_not,
    beq_eq_false_iff_ne]
  omega

theorem trimStart_solid {c : Char} (solid : isBlank c = false) (rest : List Char) :
    trimStart (c :: rest) = c :: rest := List.dropWhile_cons_of_neg (by simp [solid])

/-- No more digits come. -/
def Ends (cs : List Char) : Prop := ∀ c ∈ cs.head?, Decimal.isDigit c = false

theorem ends_cons {c : Char} (h : Decimal.isDigit c = false) (rest : List Char) :
    Ends (c :: rest) := fun _ same => Option.mem_some.mp same ▸ h

theorem digits?_append {least most : Nat} {ds rest : List Char}
    (digits : ∀ c ∈ ds, Decimal.isDigit c = true) (enough : least ≤ ds.length)
    (fits : ds.length ≤ most) (stop : ds.length = most ∨ Ends rest) :
    digits? least most (ds ++ rest) = some (Decimal.toNat ds, rest) := by
  have next : Ends (rest.take (most - ds.length)) := by
    intro c hc
    rw [List.head?_take] at hc
    split at hc
    · cases hc
    · exact stop.resolve_left (by omega) c hc
  have taken : ((ds ++ rest).take most).takeWhile Decimal.isDigit = ds := by
    rw [List.take_append, List.take_of_length_le fits]
    exact (Decimal.takeWhile_digits digits next).1
  rw [digits?, taken]
  simp only [if_neg (Nat.not_lt.mpr enough), List.drop_left]

theorem digits?_eq_some {least most n : Nat} {cs rest : List Char}
    (h : digits? least most cs = some (n, rest)) :
    ∃ ds, cs = ds ++ rest ∧ (∀ c ∈ ds, Decimal.isDigit c = true) ∧ ds.length ≤ most ∧
      n = Decimal.toNat ds := by
  obtain ⟨ds, made⟩ : ∃ ds, ds = (cs.take most).takeWhile Decimal.isDigit := ⟨_, rfl⟩
  obtain ⟨more, split⟩ : ds <+: cs :=
    made ▸ (List.takeWhile_prefix _).trans (List.take_prefix most cs)
  have fits : ds.length ≤ most := by
    have shorter := (List.takeWhile_prefix (l := cs.take most) Decimal.isDigit).length_le
    rw [← made, List.length_take] at shorter
    omega
  simp only [digits?, ← made] at h
  split at h
  · cases h
  · cases h
    refine ⟨ds, ?_, fun c hc => ?_, fits, rfl⟩
    · rw [← split, List.drop_left]
    · exact List.all_eq_true.mp List.all_takeWhile c (made ▸ hc)

/-- A number of two digits, whatever follows it. -/
theorem part?_padded {n : Nat} (h : n < 100) (rest : List Char) :
    part? (Decimal.padded 2 n ++ rest) = some (n, rest) := by
  have length : (Decimal.padded 2 n).length = 2 := Decimal.length_padded 1 h
  have trimmed : trimStart (Decimal.padded 2 n ++ rest) = Decimal.padded 2 n ++ rest := by
    obtain ⟨c, ds, made, digit⟩ := Decimal.padded_eq_cons 2 n
    rw [made, List.cons_append]
    exact trimStart_solid (isBlank_eq_false_of_isDigit digit) _
  rw [part?, trimmed, digits?_append Decimal.isDigit_of_mem_padded (by omega) (by omega)
    (.inl length), Decimal.toNat_padded]

theorem mark?_cons {c : Char} (solid : isBlank c = false) (rest : List Char) :
    mark? c (c :: rest) = some rest := by
  rw [mark?, trimStart_solid solid, char?, if_pos rfl]

theorem year?_yearChars (year : Int) {rest : List Char} (stop : Ends rest) :
    year? (yearChars year ++ rest) = some (year, rest) := by
  have digits : ∀ c ∈ Decimal.padded 4 year.natAbs, Decimal.isDigit c = true :=
    Decimal.isDigit_of_mem_padded
  obtain ⟨c, ds, made, digit⟩ := Decimal.padded_eq_cons 4 year.natAbs
  have least : 1 ≤ (Decimal.padded 4 year.natAbs).length := by simp [made]
  unfold yearChars
  split
  · rename_i within
    have length : (Decimal.padded 4 year.natAbs).length = 4 :=
      Decimal.length_padded 3 (by omega)
    have read : digits? 1 4 (Decimal.padded 4 year.natAbs ++ rest) =
        some (Decimal.toNat (Decimal.padded 4 year.natAbs), rest) :=
      digits?_append digits least (Nat.le_of_eq length) (.inl length)
    rw [made] at read ⊢
    rw [year?, List.cons_append, trimStart_solid (isBlank_eq_false_of_isDigit digit)]
    split
    · rename_i same
      cases same
      cases digit
    · rename_i same
      cases same
      cases digit
    · rw [← List.cons_append, read, ← made, Decimal.toNat_padded]
      simp only [Option.map_some, Option.some.injEq, Prod.mk.injEq, and_true]
      omega
  · have read : digits? 1 (Decimal.padded 4 year.natAbs ++ rest).length
        (Decimal.padded 4 year.natAbs ++ rest) = some (year.natAbs, rest) := by
      rw [digits?_append digits least (by simp) (.inr stop), Decimal.toNat_padded]
    split
    all_goals
      rw [List.cons_append, year?, trimStart_solid (by decide)]
      simp only [read, Option.map_some, Option.some.injEq, Prod.mk.injEq, and_true]
      omega

/-- A fraction that is written with so many digits. -/
theorem fraction?_padded (width : Nat) {n : Nat} (h : n < 10 ^ (width + 1)) (fits : width + 1 ≤ 9)
    {rest : List Char} (stop : Ends rest) :
    fraction? ('.' :: Decimal.padded (width + 1) n ++ rest) =
      some (n * 10 ^ (9 - (width + 1)), rest) := by
  have length := Decimal.length_padded width h
  have gone : ([] ++ rest).dropWhile Decimal.isDigit = rest :=
    (Decimal.takeWhile_digits (List.forall_mem_nil _) stop).2
  rw [List.nil_append] at gone
  rw [List.cons_append, fraction?, digits?_append Decimal.isDigit_of_mem_padded (by omega)
    (by omega) (.inr stop), Decimal.toNat_padded]
  simp only [Option.bind_eq_bind, Option.bind_some, gone, List.length_append,
    Nat.add_sub_cancel, length]
  rfl

theorem fraction?_fractionChars {nanos : Nat} (h : nanos < 10 ^ 9) {rest : List Char}
    (stop : Ends rest) (point : rest.head? ≠ some '.') :
    fraction? (fractionChars nanos ++ rest) = some (nanos, rest) := by
  unfold fractionChars
  split
  · rename_i zero
    subst zero
    rw [List.nil_append, fraction?]
    intro others same
    exact point (same ▸ rfl)
  split
  · rw [fraction?_padded 2 (by omega) (by decide) stop]
    congr 2
    omega
  split
  · rw [fraction?_padded 5 (by omega) (by decide) stop]
    congr 2
    omega
  · rw [fraction?_padded 8 h (by decide) stop]
    congr 2
    omega

theorem fraction?_lt {cs rest : List Char} {nanos : Nat} (h : fraction? cs = some (nanos, rest)) :
    nanos < 1000000000 := by
  unfold fraction? at h
  split at h
  · rename_i cs
    obtain ⟨⟨n, more⟩, read, h⟩ := Option.bind_eq_some_iff.mp h
    obtain ⟨ds, rfl, digits, fits, rfl⟩ := digits?_eq_some read
    cases h
    calc Decimal.toNat ds * 10 ^ (9 - ((ds ++ more).length - more.length))
        = Decimal.toNat ds * 10 ^ (9 - ds.length) := by simp
      _ < 10 ^ ds.length * 10 ^ (9 - ds.length) :=
        Nat.mul_lt_mul_of_pos_right (Decimal.toNat_lt digits) (Nat.pow_pos (by decide))
      _ = 1000000000 := by rw [← Nat.pow_add, Nat.add_sub_cancel' fits]
  · cases h
    decide

/-- Distances from UTC are whole minutes. -/
theorem offset?_minutes {cs rest : List Char} {offset : Int}
    (h : offset? cs = some (offset, rest)) : offset % 60 = 0 := by
  have whole (sign : Int) (hours minutes : Nat) :
      sign * ((hours : Int) * 3600 + minutes * 60) % 60 = 0 := by
    rw [show sign * ((hours : Int) * 3600 + minutes * 60) = sign * (hours * 60 + minutes) * 60 by
      ring, Int.mul_emod_left]
  unfold offset? at h
  split at h
  · cases h
  split at h
  · cases h
    rfl
  split at h
  · cases h
    rfl
  dsimp only at h
  split at h
  on_goal 2 => split at h
  -- ahead, behind, or neither, which has no sign
  all_goals
    obtain ⟨sign, -, h⟩ := Option.bind_eq_some_iff.mp h
    obtain ⟨⟨hours, more⟩, -, h⟩ := Option.bind_eq_some_iff.mp h
    obtain ⟨⟨minutes, more⟩, -, h⟩ := Option.bind_eq_some_iff.mp h
    dsimp only at h
    split at h
    · cases h
      exact whole sign hours minutes
    · cases h

/-! ## Times -/

/-- A text that is read as a time is read part by part, and the parts make the time. -/
theorem exists_ofParts? {text : String} {t : Timestamp} (h : ofText? text = some t) :
    ∃ year month day hour minute second nanos offset, nanos < 1000000000 ∧ offset % 60 = 0 ∧
      ofParts? year month day hour minute second nanos offset = some t := by
  rw [ofText?, ofChars?] at h
  obtain ⟨⟨year, cs⟩, -, h⟩ := Option.bind_eq_some_iff.mp h
  obtain ⟨cs, -, h⟩ := Option.bind_eq_some_iff.mp h
  obtain ⟨⟨month, cs⟩, -, h⟩ := Option.bind_eq_some_iff.mp h
  obtain ⟨cs, -, h⟩ := Option.bind_eq_some_iff.mp h
  obtain ⟨⟨day, cs⟩, -, h⟩ := Option.bind_eq_some_iff.mp h
  dsimp only at h
  cases cs with
  | nil => cases h
  | cons c cs =>
    dsimp only at h
    split at h
    · obtain ⟨cs, -, h⟩ := Option.bind_eq_some_iff.mp h
      obtain ⟨⟨hour, cs⟩, -, h⟩ := Option.bind_eq_some_iff.mp h
      obtain ⟨cs, -, h⟩ := Option.bind_eq_some_iff.mp h
      obtain ⟨⟨minute, cs⟩, -, h⟩ := Option.bind_eq_some_iff.mp h
      obtain ⟨cs, -, h⟩ := Option.bind_eq_some_iff.mp h
      obtain ⟨⟨second, cs⟩, -, h⟩ := Option.bind_eq_some_iff.mp h
      obtain ⟨⟨nanos, cs⟩, fraction, h⟩ := Option.bind_eq_some_iff.mp h
      obtain ⟨⟨offset, cs⟩, distance, h⟩ := Option.bind_eq_some_iff.mp h
      dsimp only at h
      split at h
      · exact ⟨_, _, _, _, _, _, _, _, fraction?_lt fraction, offset?_minutes distance, h⟩
      · cases h
    · cases h

/-- What a text can give: a year that dates may have, and nanoseconds that only go beyond a second
at the end of a minute. -/
structure Valid (t : Timestamp) : Prop where
  years : minYear ≤ (dateOfDays (t.seconds / 86400)).1 ∧
    (dateOfDays (t.seconds / 86400)).1 ≤ maxYear
  nanos : t.nanos < 2000000000
  leap : 1000000000 ≤ t.nanos → t.seconds % 60 = 59

instance (t : Timestamp) : Decidable t.Valid :=
  decidable_of_iff (_ ∧ _ ∧ _) ⟨fun ⟨years, nanos, leap⟩ => ⟨years, nanos, leap⟩,
    fun ⟨years, nanos, leap⟩ => ⟨years, nanos, leap⟩⟩

/-- The parts that are read off a text give such a time. -/
theorem ofParts?_valid {year : Int} {month day hour minute second nanos : Nat} {offset : Int}
    {t : Timestamp} (fraction : nanos < 1000000000) (minutes : offset % 60 = 0)
    (h : ofParts? year month day hour minute second nanos offset = some t) : t.Valid := by
  obtain ⟨-, -, h⟩ := Option.bind_eq_some_iff.mp h
  obtain ⟨-, -, h⟩ := Option.bind_eq_some_iff.mp h
  obtain ⟨⟨⟩, years, made⟩ := Option.bind_eq_some_iff.mp h
  cases made
  refine ⟨(Option.guard_eq_some' _).mp years, ?_, fun late => ?_⟩
  · dsimp only
    split <;> omega
  · dsimp only at late ⊢
    split at late
    · rw [if_pos ‹_›]
      omega
    · omega

/-- A second is the sixtieth of its minute if it is a leap second, and not otherwise. -/
theorem second_cases {clock nanos second : Nat} (few : nanos < 2000000000)
    (last : 1000000000 ≤ nanos → clock % 60 = 59)
    (made : second = clock % 60 + (if 1000000000 ≤ nanos then 1 else 0)) :
    second ≤ 60 ∧ (if second = 60 then 59 else second) = clock % 60 ∧
      (if second = 60 then nanos % 1000000000 + 1000000000 else nanos % 1000000000) = nanos := by
  by_cases late : 1000000000 ≤ nanos
  · rw [if_pos late, last late] at made
    rw [if_pos made, if_pos made, last late]
    omega
  · rw [if_neg late] at made
    have early : ¬ second = 60 := by omega
    rw [if_neg early, if_neg early]
    omega

/-- The parts of such a time give it again. -/
theorem Valid.ofParts? {t : Timestamp} (h : t.Valid) :
    ofParts? (dateOfDays (t.seconds / 86400)).1 (dateOfDays (t.seconds / 86400)).2.1
      (dateOfDays (t.seconds / 86400)).2.2 ((t.seconds % 86400).toNat / 3600)
      ((t.seconds % 86400).toNat / 60 % 60)
      ((t.seconds % 86400).toNat % 60 + (if 1000000000 ≤ t.nanos then 1 else 0))
      (t.nanos % 1000000000) 0 = some t := by
  obtain ⟨years, nanos, minute⟩ := h
  obtain ⟨⟨months, days⟩, found⟩ := date_of_day (t.seconds / 86400)
  obtain ⟨clock, time⟩ : ∃ clock, clock = (t.seconds % 86400).toNat := ⟨_, rfl⟩
  have last : 1000000000 ≤ t.nanos → clock % 60 = 59 := fun late => by
    have := minute late
    omega
  obtain ⟨minutes, whole, fraction⟩ := second_cases nanos last rfl
  have seconds : t.seconds / 86400 * 86400 + ((clock / 3600 : Nat) : Int) * 3600 +
      ((clock / 60 % 60 : Nat) : Int) * 60 + ((clock % 60 : Nat) : Int) - 0 = t.seconds := by
    omega
  have hours : clock / 3600 < 24 ∧ clock / 60 % 60 < 60 := by omega
  rw [← time, Timestamp.ofParts?]
  simp only [guard, Option.bind_eq_bind, Option.pure_def]
  rw [if_pos ⟨years.1, years.2, months⟩, Option.bind_some,
    if_pos ⟨days.1, days.2, hours.1, hours.2, minutes⟩,
    Option.bind_some, found, whole, fraction, seconds, if_pos years]
  rfl

theorem ofText?_valid {text : String} {t : Timestamp} (h : ofText? text = some t) : t.Valid := by
  obtain ⟨year, month, day, hour, minute, second, nanos, offset, fraction, distance, made⟩ :=
    exists_ofParts? h
  exact ofParts?_valid fraction distance made

theorem bind_given {α β : Type} {x : Option α} {a : α} {f : α → Option β} {y : Option β}
    (given : x = some a) (next : f a = y) : x >>= f = y := by
  rw [given]
  exact next

/-- Written parts are the parts that are read. -/
theorem ofChars?_written (year : Int) {month day hour minute second nanos : Nat}
    (monthFits : month < 100) (dayFits : day < 100) (hourFits : hour < 100)
    (minuteFits : minute < 100) (secondFits : second < 100) (nanosFit : nanos < 10 ^ 9) :
    ofChars? (yearChars year ++ '-' :: Decimal.padded 2 month ++ '-' :: Decimal.padded 2 day
        ++ 'T' :: Decimal.padded 2 hour ++ ':' :: Decimal.padded 2 minute
        ++ ':' :: Decimal.padded 2 second ++ fractionChars nanos ++ ['Z']) =
      ofParts? year month day hour minute second nanos 0 := by
  have years (rest : List Char) :
      year? (yearChars year ++ '-' :: rest) = some (year, '-' :: rest) :=
    year?_yearChars year (ends_cons (by decide) rest)
  have hyphen (rest : List Char) : mark? '-' ('-' :: rest) = some rest :=
    mark?_cons (by decide) rest
  have colon (rest : List Char) : mark? ':' (':' :: rest) = some rest :=
    mark?_cons (by decide) rest
  have fraction : fraction? (fractionChars nanos ++ ['Z']) = some (nanos, ['Z']) :=
    fraction?_fractionChars nanosFit (ends_cons (by decide) []) (by decide)
  simp only [List.append_assoc, List.cons_append]
  unfold ofChars?
  refine bind_given (years _) ?_
  refine bind_given (hyphen _) ?_
  refine bind_given (part?_padded monthFits _) ?_
  refine bind_given (hyphen _) ?_
  refine bind_given (part?_padded dayFits _) ?_
  refine bind_given rfl ?_ -- the mark between date and time
  refine bind_given (part?_padded hourFits _) ?_
  refine bind_given (colon _) ?_
  refine bind_given (part?_padded minuteFits _) ?_
  refine bind_given (colon _) ?_
  refine bind_given (part?_padded secondFits _) ?_
  refine bind_given fraction ?_
  rfl

theorem Valid.ofText?_toText {t : Timestamp} (h : t.Valid) : ofText? t.toText = some t := by
  obtain ⟨⟨months, days⟩, -⟩ := date_of_day (t.seconds / 86400)
  have month : (dateOfDays (t.seconds / 86400)).2.1 < 100 := by omega
  have day : (dateOfDays (t.seconds / 86400)).2.2 < 100 := by
    have longest := daysInMonth_le (dateOfDays (t.seconds / 86400)).1
      (dateOfDays (t.seconds / 86400)).2.1
    omega
  rw [ofText?, toText, String.toList_ofList, chars]
  refine (ofChars?_written _ month day (by omega) (by omega) ?_ (by omega)).trans h.ofParts?
  split <;> omega

/-- **Times are read back.** A time is read off what is written for it if there is any text at all
that gives it, and not otherwise. -/
theorem ofText?_toText_iff {t : Timestamp} : ofText? t.toText = some t ↔ t.Valid :=
  ⟨ofText?_valid, Valid.ofText?_toText⟩

/-- Half a second into a leap second. -/
example : (⟨1483228799, 1500000000⟩ : Timestamp).toText = "2016-12-31T23:59:60.500Z" := by
  decide +kernel

end Rehoming.Timestamp
