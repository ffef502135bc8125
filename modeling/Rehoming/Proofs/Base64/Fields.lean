import Rehoming.Keys.Master
import Rehoming.Proofs.Base64.Canonical
import Rehoming.Proofs.Text.Blank

/-! Base64 in the fields of documents, where blanks around it do not count. What is wrong with a
text that is no base64 can be seen in the text itself: a defect is a place, or a length. Main
statement: a field is read as some bytes exactly if it is what these are written as, with blanks
around it, and is refused exactly if it has a defect. -/

namespace Rehoming.Base64

open Keys

/-! ## Letters -/

/-- The letters in the order of their values. -/
def alphabet : List Char :=
  "ABCDEFGHIJKLMNOPQRSTUVWXYZabcdefghijklmnopqrstuvwxyz0123456789+/".toList

def letter (v : Nat) : Char := alphabet.getD v '='

/-- The text with these letters and so many paddings. -/
def layoutText (vs : List Nat) (pads : Nat) : List Char :=
  vs.map letter ++ List.replicate pads '='

theorem ofNat_symbol : ∀ v, v < 64 → Char.ofNat (symbol v).toNat = letter v := by decide +kernel

theorem letter_mem : ∀ v, v < 64 → letter v ∈ alphabet := by decide +kernel

theorem idxOf_letter : ∀ v, v < 64 → alphabet.idxOf (letter v) = v := by decide +kernel

theorem padding_not_mem : '=' ∉ alphabet := by decide +kernel

theorem letter_idxOf {c : Char} (h : c ∈ alphabet) :
    alphabet.idxOf c < 64 ∧ letter (alphabet.idxOf c) = c := by
  have small : alphabet.idxOf c < alphabet.length := List.idxOf_lt_length_iff.mpr h
  exact ⟨small, by rw [letter, List.getD_eq_getElem?_getD, List.getElem?_eq_getElem small,
    List.getElem_idxOf, Option.getD_some]⟩

theorem letter_ne_padding {v : Nat} (h : v < 64) : letter v ≠ '=' := by
  intro same
  exact padding_not_mem (same ▸ letter_mem v h)

/-- Text is written as the format has it: the bits of the bytes, six for a letter, with zeros behind
them up to the last letter, and two paddings for four such zeros, one for two. -/
structure Spells (text : List Char) (bytes : Bytes) (vs : List Nat) (pads : Nat) : Prop where
  layout : Layout vs pads
  text : text = layoutText vs pads
  bits : vs.flatMap (bits 6) = bitsOf bytes ++ List.replicate (2 * pads) false

theorem toList_encodeText (bytes : Bytes) :
    (encodeText bytes).toList = (encode bytes).map fun b => Char.ofNat b.toNat :=
  String.toList_ofList

theorem layoutText_eq {vs : List Nat} (small : ∀ v ∈ vs, v < 64) (pads : Nat) :
    (vs.map symbol ++ List.replicate pads pad).map (fun b => Char.ofNat b.toNat) =
      layoutText vs pads := by
  rw [List.map_append, List.map_map, List.map_replicate, layoutText]
  congr 1
  exact List.map_congr_left fun v hv => ofNat_symbol v (small v hv)

theorem encodeText_spells (bytes : Bytes) :
    ∃ vs pads, Spells (encodeText bytes).toList bytes vs pads := by
  obtain ⟨vs, pads, layout, text, bits⟩ := encode_spelled bytes
  refine ⟨vs, pads, layout, ?_, bits⟩
  rw [toList_encodeText, text, layoutText_eq layout.small]

theorem Layout.exists_encodeText {vs : List Nat} {pads : Nat} (layout : Layout vs pads) :
    ∃ bytes, (encodeText bytes).toList = layoutText vs pads := by
  obtain ⟨bytes, text, -⟩ := layout.exists_bytes
  exact ⟨bytes, by rw [toList_encodeText, text, layoutText_eq layout.small]⟩

/-! ## Texts that are read -/

theorem encodeText_solid (bytes : Bytes) :
    ∀ c ∈ (encodeText bytes).toList, Text.isBlank c = false := by
  intro c hc
  rw [toList_encodeText] at hc
  obtain ⟨b, hb, rfl⟩ := List.mem_map.mp hc
  exact (encode_plain bytes b hb).2

/-- **Fields are read as what they were written for.** -/
theorem decodeText_ok_iff {text : String} {bytes : Bytes} :
    decodeText text = .ok bytes ↔ Text.trim text.toList = (encodeText bytes).toList := by
  rw [decodeText, decode_ok_iff, toList_encodeText]
  have plain := utf8_plain (encode_plain bytes)
  constructor
  · intro same
    rw [← plain] at same
    have symbols := congrArg Text.Utf8.symbols same
    rw [Text.Utf8.symbols_encode, Text.Utf8.symbols_encode] at symbols
    exact (List.map_inj_right fun _ _ => Option.some.inj).mp symbols
  · intro same
    rw [same, plain]

/-! ## Texts that are refused -/

/-- What can be wrong with a text. -/
inductive Defect (text : List Char) : Prop where
  /-- There is something that is neither a letter nor padding, such as a blank. -/
  | foreign (c : Char) (there : c ∈ text) (unknown : c ∉ alphabet) (other : c ≠ '=')
  /-- The last group has too few letters, or is not padded. -/
  | incomplete (length : text.length % 4 ≠ 0)
  /-- There is padding before something else. -/
  | early (front : List Char) (c : Char) (back : List Char) (other : c ≠ '=')
    (split : text = front ++ '=' :: c :: back)
  /-- There is more padding than any bytes call for. -/
  | surplus (front : List Char) (split : text = front ++ ['=', '=', '='])
  /-- The letter before the padding has bits that belong to no byte. -/
  | unused (front : List Char) (c : Char) (pads : Nat) (known : c ∈ alphabet)
    (bits : alphabet.idxOf c % 4 ^ pads ≠ 0) (split : text = front ++ c :: List.replicate pads '=')

/-- Letters with padding behind them tell how much of it there is. -/
theorem padding_unique {front front' : List Char} {pads pads' : Nat}
    (letters : ∀ c ∈ front.getLast?, c ≠ '=') (letters' : ∀ c ∈ front'.getLast?, c ≠ '=')
    (same : front ++ List.replicate pads '=' = front' ++ List.replicate pads' '=') :
    front = front' ∧ pads = pads' := by
  have trailing {front : List Char} (letters : ∀ c ∈ front.getLast?, c ≠ '=') (pads : Nat) :
      (front ++ List.replicate pads '=').reverse.takeWhile (· == '=') =
        List.replicate pads '=' := by
    have stop : front.reverse.takeWhile (· == '=') = [] := by
      cases turned : front.reverse with
      | nil => rfl
      | cons c rest =>
        have last : c ∈ front.getLast? := by
          rw [← List.head?_reverse, turned]
          rfl
        rw [List.takeWhile_cons, if_neg (by simpa using letters c last)]
    rw [List.reverse_append, List.reverse_replicate, List.takeWhile_append_of_pos (by simp), stop,
      List.append_nil]
  have counted := congrArg (fun text => text.reverse.takeWhile (· == '=')) same
  rw [trailing letters, trailing letters'] at counted
  have length : pads = pads' := by simpa using congrArg List.length counted
  subst length
  exact ⟨List.append_cancel_right same, rfl⟩

theorem mem_layoutText {vs : List Nat} {pads : Nat} (small : ∀ v ∈ vs, v < 64) {c : Char}
    (h : c ∈ layoutText vs pads) : c ∈ alphabet ∨ c = '=' := by
  rcases List.mem_append.mp h with h | h
  · obtain ⟨v, hv, rfl⟩ := List.mem_map.mp h
    exact .inl (letter_mem v (small v hv))
  · exact .inr (List.eq_of_mem_replicate h)

/-- What was written has no defect. -/
theorem Layout.faultless {vs : List Nat} {pads : Nat} (layout : Layout vs pads) :
    ¬ Defect (layoutText vs pads) := by
  obtain ⟨small, few, whole, clean⟩ := layout
  have letters : ∀ c ∈ vs.map letter, c ≠ '=' := by
    intro c hc
    obtain ⟨v, hv, rfl⟩ := List.mem_map.mp hc
    exact letter_ne_padding (small v hv)
  have last : ∀ c ∈ (vs.map letter).getLast?, c ≠ '=' := fun c hc =>
    letters c (List.mem_of_getLast? hc)
  intro defect
  cases defect with
  | foreign c there unknown other =>
    exact (mem_layoutText small there).elim unknown other
  | incomplete length =>
    rw [layoutText, List.length_append, List.length_map, List.length_replicate] at length
    exact length whole
  | early front c back other split =>
    rcases List.append_eq_append_iff.mp split with ⟨more, -, behind⟩ | ⟨more, ahead, behind⟩
    · have there : c ∈ List.replicate pads '=' := behind ▸ by simp
      exact other (List.eq_of_mem_replicate there)
    · cases more with
      | nil =>
        have there : c ∈ List.replicate pads '=' := by
          rw [List.nil_append] at behind
          exact behind ▸ by simp
        exact other (List.eq_of_mem_replicate there)
      | cons d more =>
        rw [List.cons_append] at behind
        obtain ⟨rfl, -⟩ := List.cons.inj behind
        exact letters '=' (ahead ▸ by simp) rfl
  | surplus front split =>
    have none : (vs.map letter).count '=' = 0 :=
      List.count_eq_zero.mpr fun there => letters '=' there rfl
    have counted := congrArg (List.count '=') split
    rw [layoutText, List.count_append, none, List.count_replicate_self, List.count_append]
      at counted
    have three : List.count '=' ['=', '=', '='] = 3 := rfl
    omega
  | unused front c pads' known bits split =>
    have solid : ∀ d ∈ (front ++ [c]).getLast?, d ≠ '=' := by
      intro d hd
      rw [List.getLast?_concat] at hd
      obtain rfl := Option.some.inj hd
      exact fun same => padding_not_mem (same ▸ known)
    rw [List.append_cons] at split
    obtain ⟨text, rfl⟩ := padding_unique last solid split
    obtain ⟨front', v, rfl⟩ : ∃ front' v, vs = front' ++ [v] := by
      have some : vs ≠ [] := by
        rintro rfl
        simp at text
      exact ⟨vs.dropLast, vs.getLast some, (List.dropLast_append_getLast some).symm⟩
    rw [List.map_append, List.map_singleton] at text
    obtain ⟨-, same⟩ := List.append_inj' text rfl
    obtain rfl : letter v = c := by simpa using same
    have bound := small v (by simp)
    rw [idxOf_letter v bound] at bits
    exact bits (clean v (by simp))

/-- Padding with something else behind it has that directly behind it somewhere. -/
theorem exists_early {c : Char} (other : c ≠ '=') {rest : List Char} (h : c ∈ rest) :
    ∃ front d back, d ≠ '=' ∧ '=' :: rest = front ++ '=' :: d :: back := by
  induction rest with
  | nil => cases h
  | cons d rest ih =>
    by_cases same : d = '='
    · subst same
      have behind : c ∈ rest := (List.mem_cons.mp h).resolve_left other
      obtain ⟨front, d, back, solid, split⟩ := ih behind
      exact ⟨'=' :: front, d, back, solid, by rw [split, List.cons_append]⟩
    · exact ⟨[], d, rest, same, rfl⟩

/-- What has no defect was written for some bytes. -/
theorem exists_layoutText {text : List Char} (faultless : ¬ Defect text) :
    ∃ vs pads, Layout vs pads ∧ text = layoutText vs pads := by
  obtain ⟨letters, padding, rfl, solid, starts⟩ : ∃ letters padding, text = letters ++ padding ∧
      (∀ c ∈ letters, c ≠ '=') ∧ ∀ c ∈ padding.head?, c = '=' := by
    refine ⟨text.takeWhile (· != '='), text.dropWhile (· != '='),
      List.takeWhile_append_dropWhile.symm, fun c hc => ?_, fun c hc => ?_⟩
    · exact bne_iff_ne.mp (List.all_eq_true.mp List.all_takeWhile c hc)
    · have stopped := List.head?_dropWhile_not (· != '=') text
      rw [hc] at stopped
      simpa using stopped
  have known : ∀ c ∈ letters, c ∈ alphabet := by
    intro c hc
    by_contra unknown
    exact faultless (.foreign c (List.mem_append_left _ hc) unknown (solid c hc))
  have alike : ∀ c ∈ padding, c = '=' := by
    intro c hc
    by_contra other
    cases padding with
    | nil => cases hc
    | cons d rest =>
      obtain rfl : d = '=' := starts d rfl
      have behind : c ∈ rest := (List.mem_cons.mp hc).resolve_left other
      obtain ⟨front, d, back, solid, split⟩ := exists_early other behind
      exact faultless (.early (letters ++ front) d back solid (by rw [split, List.append_assoc]))
  obtain ⟨pads, rfl⟩ : ∃ pads, padding = List.replicate pads '=' :=
    ⟨_, List.eq_replicate_of_mem alike⟩
  have text : letters = (letters.map alphabet.idxOf).map letter := by
    rw [List.map_map]
    exact (List.map_id'' (fun _ => rfl) letters).symm.trans
      (List.map_congr_left fun c hc => (letter_idxOf (known c hc)).2.symm)
  refine ⟨letters.map alphabet.idxOf, pads, ⟨fun v hv => ?_, ?_, ?_, fun v hv => ?_⟩,
    congrArg (· ++ _) text⟩
  · obtain ⟨c, hc, rfl⟩ := List.mem_map.mp hv
    exact (letter_idxOf (known c hc)).1
  · by_contra more
    obtain ⟨pads, rfl⟩ : ∃ n, pads = n + 3 := ⟨pads - 3, by omega⟩
    refine faultless (.surplus (letters ++ List.replicate pads '=') ?_)
    rw [← List.replicate_append_replicate, List.append_assoc]
    rfl
  · by_contra length
    refine faultless (.incomplete ?_)
    rwa [List.length_append, List.length_replicate, ← List.length_map alphabet.idxOf]
  · by_contra bits
    rw [List.getLast?_map] at hv
    obtain ⟨c, last, rfl⟩ := Option.map_eq_some_iff.mp hv
    obtain ⟨front, rfl⟩ := List.getLast?_eq_some_iff.mp last
    exact faultless (.unused front c pads (known c (by simp)) bits (by simp))

/-! ## Fields -/

/-- **Base64 and bytes determine each other, up to blanks around a text.** A field is read as some
bytes exactly if it is, without the blanks around it, the text that these bytes are written as, and
this text is what the format has for their bits. It is refused, with its name in the error, exactly
if what is left of it without those blanks has a defect. -/
theorem decodeField_exact (text what : String) :
    (∀ bytes,
      (decodeField text what = .ok bytes ↔
        Text.trim text.toList = (encodeText bytes).toList) ∧
      (decodeField text what = .ok bytes ↔ ∃ front back,
        (∀ c ∈ front ++ back, Text.isBlank c = true) ∧
          text.toList = front ++ (encodeText bytes).toList ++ back) ∧
      decodeField (encodeText bytes) what = .ok bytes ∧
      ∃ vs pads, Spells (encodeText bytes).toList bytes vs pads) ∧
    ((∃ fault : Fault, decodeField text what =
        .error (.encoding ("base64 " ++ what ++ ": " ++ fault.message))) ↔
      Defect (Text.trim text.toList)) := by
  have read (bytes : Bytes) : decodeField text what = .ok bytes ↔
      Text.trim text.toList = (encodeText bytes).toList := by
    rw [← decodeText_ok_iff, decodeField]
    cases decodeText text with
    | ok found => simp
    | error fault => simp
  refine ⟨fun bytes => ⟨read bytes, ?_, ?_, encodeText_spells bytes⟩, ?_⟩
  · rw [read, Text.trim_eq_iff (encodeText_solid bytes)]
  · rw [decodeField, decodeText_encodeText]
  · constructor
    · intro ⟨fault, refused⟩
      by_contra faultless
      obtain ⟨vs, pads, layout, same⟩ := exists_layoutText faultless
      obtain ⟨bytes, written⟩ := layout.exists_encodeText
      rw [(read bytes).mpr (same.trans written.symm)] at refused
      cases refused
    · intro defect
      cases found : decodeText text with
      | ok bytes =>
        obtain ⟨vs, pads, layout, spelled, -⟩ := encodeText_spells bytes
        rw [decodeText_ok_iff.mp found, spelled] at defect
        exact absurd defect layout.faultless
      | error fault => exact ⟨fault, by rw [decodeField, found]⟩

/-- `QQ==` and `QR==` would give the same byte, if the second one gave any. -/
example : Defect "QR==".toList := .unused ['Q'] 'R' 2 (by decide) (by decide) rfl

end Rehoming.Base64
