import Mathlib.Data.Option.Basic
import Rehoming.Zstd.Frame

/-! Content survives being compressed: its pieces are stored in blocks of their own, and
reading appends one after another. Main statement: it is read back exactly if it is
within the limit and its length fits the header. -/

namespace Rehoming

/-! ## Pieces -/

namespace Bytes

theorem foldl_pieces (size : Nat) (steps : List Nat) (done : List Bytes) (rest : Bytes)
    (small : ∀ p ∈ done, p.length ≤ size) :
    let cut := steps.foldl (fun (st : List Bytes × Bytes) _ =>
      (st.2.take size :: st.1, st.2.drop size)) (done, rest)
    cut.1.reverse.flatten ++ cut.2 = done.reverse.flatten ++ rest ∧
      cut.2.length = rest.length - steps.length * size ∧ ∀ p ∈ cut.1, p.length ≤ size := by
  induction steps generalizing done rest with
  | nil => exact ⟨rfl, by simp, small⟩
  | cons s steps ih =>
    have next : ∀ p ∈ rest.take size :: done, p.length ≤ size := by
      intro p hp
      rcases List.mem_cons.mp hp with rfl | hp
      · exact List.length_take_le ..
      · exact small p hp
    obtain ⟨whole, left, pieces⟩ := ih (rest.take size :: done) (rest.drop size) next
    refine ⟨?_, ?_, pieces⟩
    · rw [List.foldl_cons, whole, List.reverse_cons, List.flatten_append, List.append_assoc]
      simp
    · rw [List.foldl_cons, left, List.length_drop, List.length_cons, Nat.succ_mul]
      omega

theorem chunks_spec {size : Nat} (pos : 0 < size) (bs : Bytes) :
    (bs.chunks size).flatten = bs ∧ ∀ p ∈ bs.chunks size, p.length ≤ size := by
  obtain ⟨whole, left, pieces⟩ := foldl_pieces size (List.range ((bs.length + size - 1) / size))
    [] bs nofun
  have enough : bs.length ≤ (bs.length + size - 1) / size * size := by
    have := Nat.div_add_mod (bs.length + size - 1) size
    have := Nat.mod_lt (bs.length + size - 1) pos
    rw [Nat.mul_comm]
    omega
  have nothing := List.eq_nil_of_length_eq_zero
    (left.trans (Nat.sub_eq_zero_of_le (by rw [List.length_range]; exact enough)))
  rw [nothing, List.append_nil] at whole
  refine ⟨whole, fun p hp => pieces p ?_⟩
  exact List.mem_reverse.mp hp

end Bytes

namespace Zstd

/-! ## Blocks -/

theorem take_ofNatLE (width n : Nat) (rest : Bytes) :
    (Bytes.ofNatLE width n ++ rest).take width = Bytes.ofNatLE width n ∧
      (Bytes.ofNatLE width n ++ rest).drop width = rest := by
  have whole := Bytes.length_ofNatLE width n
  exact ⟨List.take_left' whole, List.drop_left' whole⟩

/-- Three bytes hold the word in front of any block. -/
theorem toNatLE_word {n : Nat} (h : n < 16777216) : Bytes.toNatLE (Bytes.ofNatLE 3 n) = n := by
  rw [Bytes.toNatLE_ofNatLE]
  exact Nat.mod_eq_of_lt h

/-- A stored block is its word and what it stores: the content, or its only byte. -/
theorem storeBlock_eq (last : Bool) (content : Bytes) : ∃ kind body,
    storeBlock last content =
        Bytes.ofNatLE 3 (content.length * 8 + kind * 2 + last.toNat) ++ body ∧
      (kind = 0 ∧ body = content ∨
        kind = 1 ∧ ∃ b, body = [b] ∧ content = List.replicate content.length b) := by
  unfold storeBlock
  split
  · rename_i b c rest
    split
    · rename_i same
      refine ⟨1, [b], rfl, .inr ⟨rfl, b, rfl, ?_⟩⟩
      refine List.eq_replicate_iff.mpr ⟨rfl, fun d hd => ?_⟩
      rcases List.mem_cons.mp hd with rfl | hd
      · rfl
      · exact beq_iff_eq.mp (List.all_eq_true.mp same d hd)
    · exact ⟨0, _, rfl, .inl ⟨rfl, rfl⟩⟩
  · exact ⟨0, _, rfl, .inl ⟨rfl, rfl⟩⟩

theorem length_storeBlock (last : Bool) (content : Bytes) :
    3 ≤ (storeBlock last content).length := by
  obtain ⟨kind, body, stored, -⟩ := storeBlock_eq last content
  rw [stored, List.length_append, Bytes.length_ofNatLE]
  omega

theorem length_le_flatMap (front : List Bytes) :
    front.length ≤ (front.flatMap (storeBlock false)).length := by
  induction front with
  | nil => exact Nat.le_refl 0
  | cons p front ih =>
    have := length_storeBlock false p
    rw [List.flatMap_cons, List.length_append, List.length_cons]
    omega

/-- Reading a stored block appends its content. -/
theorem blocks?_storeBlock (header : Header) (start limit fuel : Nat) (memory : Memory)
    (out : Array UInt8) (last : Bool) {content : Bytes} (small : content.length ≤ maxBlockSize)
    (rest : Bytes) :
    blocks? header start limit (fuel + 1) memory out (storeBlock last content ++ rest) =
      if out.size + content.length ≤ limit then
        if last then some (out ++ content.toArray, rest)
        else blocks? header start limit fuel memory (out ++ content.toArray) rest
      else none := by
  obtain ⟨kind, body, stored, shape⟩ := storeBlock_eq last content
  have bit : last.toNat < 2 := Bool.toNat_lt last
  have small' : content.length ≤ 131072 := small
  have kinds : kind < 2 := by
    rcases shape with ⟨rfl, -⟩ | ⟨rfl, -⟩ <;> decide
  have word : Bytes.toNatLE (Bytes.ofNatLE 3 (content.length * 8 + kind * 2 + last.toNat)) =
      content.length * 8 + kind * 2 + last.toNat := toNatLE_word (by omega)
  have size : (content.length * 8 + kind * 2 + last.toNat) / 8 = content.length := by omega
  have which : (content.length * 8 + kind * 2 + last.toNat) / 2 % 4 = kind := by omega
  have final : (content.length * 8 + kind * 2 + last.toNat) % 2 = last.toNat := by omega
  have three (w : Nat) (more : Bytes) : 3 ≤ (Bytes.ofNatLE 3 w ++ more).length := by
    rw [List.length_append, Bytes.length_ofNatLE]
    omega
  rw [stored, List.append_assoc, blocks?]
  simp only [three, guard, (take_ofNatLE 3 _ _).1, (take_ofNatLE 3 _ _).2, word, size, which,
    final, if_true]
  rcases shape with ⟨rfl, rfl⟩ | ⟨rfl, b, rfl, all⟩
  · by_cases fits : out.size + body.length ≤ limit
    · cases last <;> simp [fits]
    · simp [fits]
  · have same : Array.replicate content.length b = content.toArray := by
      rw [← List.toArray_replicate, ← all]
    by_cases fits : out.size + content.length ≤ limit
    · cases last <;> simp [fits, same]
    · simp [fits]

/-- Reading all blocks appends the whole content. -/
theorem blocks?_stored (header : Header) (start limit : Nat) (memory : Memory) {front : List Bytes}
    {last : Bytes} (small : ∀ p ∈ front, p.length ≤ maxBlockSize)
    (small' : last.length ≤ maxBlockSize) (out : Array UInt8) {fuel : Nat}
    (enough : front.length < fuel) (rest : Bytes) :
    blocks? header start limit fuel memory out
        (front.flatMap (storeBlock false) ++ storeBlock true last ++ rest) =
      if out.size + (front.flatten ++ last).length ≤ limit then
        some (out ++ (front.flatten ++ last).toArray, rest)
      else none := by
  induction front generalizing out fuel with
  | nil =>
    obtain ⟨fuel, rfl⟩ : ∃ n, fuel = n + 1 := ⟨fuel - 1, by omega⟩
    exact blocks?_storeBlock header start limit fuel memory out true small' rest
  | cons p front ih =>
    obtain ⟨fuel, rfl⟩ : ∃ n, fuel = n + 1 := ⟨fuel - 1, by rw [List.length_cons] at enough; omega⟩
    have more := ih (fun q hq => small q (List.mem_cons_of_mem _ hq)) (out ++ p.toArray)
      (Nat.lt_of_succ_lt_succ enough)
    rw [List.flatMap_cons, List.append_assoc, List.append_assoc,
      blocks?_storeBlock header start limit fuel memory out false (small p List.mem_cons_self),
      ← List.append_assoc, more]
    simp only [List.flatten_cons, List.append_assoc, List.length_append, Array.size_append,
      List.size_toArray, Bool.false_eq_true, if_false]
    by_cases fits : out.size + (p.length + (front.flatten.length + last.length)) ≤ limit
    · rw [if_pos (by omega), if_pos (by omega), if_pos fits]
      simp
    · rw [if_neg fits]
      split
      · rw [if_neg (by omega)]
      · rfl

/-! ## Frames -/

/-- What is stored: all pieces but the last, and the last, which may be missing. -/
theorem pieces_spec (content : Bytes) :
    let pieces := content.chunks maxBlockSize
    pieces.dropLast.flatten ++ pieces.getLastD [] = content ∧
      (∀ p ∈ pieces.dropLast, p.length ≤ maxBlockSize) ∧
      (pieces.getLastD []).length ≤ maxBlockSize := by
  intro pieces
  obtain ⟨whole, small⟩ := Bytes.chunks_spec (show 0 < maxBlockSize by decide) content
  have small : ∀ p ∈ pieces, p.length ≤ maxBlockSize := small
  refine ⟨?_, fun p hp => small p (List.dropLast_subset _ hp), ?_⟩
  · rw [← whole]
    show pieces.dropLast.flatten ++ pieces.getLastD [] = pieces.flatten
    rcases List.eq_nil_or_concat pieces with none | ⟨front, last, some⟩
    · rw [none]
      rfl
    · rw [some]
      simp
  · rcases List.eq_nil_or_concat pieces with none | ⟨front, last, some⟩
    · rw [none]
      decide
    · rw [some]
      simpa using small last (by rw [some]; simp)

/-- The header says how long the content is. -/
theorem header_read? (length : Nat) (rest : Bytes) :
    Header.read? ([0xE0] ++ Bytes.ofNatLE 8 length ++ rest) =
      some (⟨min (length % UInt64.size) maxBlockSize, some (length % UInt64.size), false⟩,
        rest) := by
  have number : Bytes.toNatLE (Bytes.ofNatLE 8 length) = length % UInt64.size :=
    Bytes.toNatLE_ofNatLE 8 length
  have eight : 8 ≤ (Bytes.ofNatLE 8 length).length + rest.length := by
    rw [Bytes.length_ofNatLE]
    omega
  have descriptor (more : Bytes) : Bytes.toNatLE (([0xE0] ++ more).take 1) = 224 := rfl
  have nothing : Bytes.toNatLE [] = 0 := rfl
  have field := take_ofNatLE 8 length rest
  rw [List.append_assoc, Header.read?]
  simp only [guard, descriptor]
  -- a descriptor of 224 announces one segment, no dictionary, and a size of eight bytes
  simp [field, number, nothing, eight]

theorem frame?_stored (limit : Nat) {front : List Bytes} {last : Bytes}
    (small : ∀ p ∈ front, p.length ≤ maxBlockSize) (small' : last.length ≤ maxBlockSize) :
    frame? limit #[] ([0xE0] ++ Bytes.ofNatLE 8 (front.flatten ++ last).length ++
        (front.flatMap (storeBlock false) ++ storeBlock true last)) =
      if (front.flatten ++ last).length ≤ limit ∧ (front.flatten ++ last).length < UInt64.size then
        some ((front.flatten ++ last).toArray, [])
      else none := by
  have enough :
      front.length < (front.flatMap (storeBlock false) ++ storeBlock true last).length := by
    have := length_le_flatMap front
    have := length_storeBlock true last
    rw [List.length_append]
    omega
  have read := blocks?_stored ⟨min ((front.flatten ++ last).length % UInt64.size) maxBlockSize,
    some ((front.flatten ++ last).length % UInt64.size), false⟩ 0 limit .fresh small small' #[]
    enough []
  rw [List.append_nil] at read
  rw [frame?, header_read?]
  simp only [guard, Option.bind_eq_bind, Option.bind_some]
  rw [show (#[] : Array UInt8).size = 0 from rfl] at read ⊢
  rw [read, Nat.zero_add]
  by_cases fits : (front.flatten ++ last).length ≤ limit
  · rw [if_pos fits]
    by_cases sized : (front.flatten ++ last).length < UInt64.size
    · rw [if_pos ⟨fits, sized⟩, Nat.mod_eq_of_lt sized]
      simp
    · have differ : (front.flatten ++ last).length % UInt64.size ≠ (front.flatten ++ last).length :=
        Nat.ne_of_lt (Nat.lt_of_lt_of_le (Nat.mod_lt _ (by decide)) (Nat.not_lt.mp sized))
      rw [if_neg fun h => sized h.2]
      have refused : (Option.some ((front.flatten ++ last).length % UInt64.size)).all
          (· == (#[] ++ (front.flatten ++ last).toArray).size - 0) = false := by
        rw [Option.all_some, Array.size_append, List.size_toArray, Nat.sub_zero]
        exact beq_eq_false_iff_ne.mpr (by simpa using differ)
      simp only [Option.bind_some, refused]
      rfl
  · rw [if_neg fits, if_neg fun h => fits h.1]
    rfl

theorem frames?_frame (limit fuel : Nat) (out : Array UInt8) (b : UInt8) (rest : Bytes) :
    frames? limit (fuel + 1) out (Bytes.ofNatLE 4 magic ++ (b :: rest)) =
      (frame? limit out (b :: rest)).bind fun r => frames? limit fuel r.1 r.2 := by
  have number : Bytes.toNatLE (Bytes.ofNatLE 4 magic) = magic := Bytes.toNatLE_ofNatLE 4 magic
  have field := take_ofNatLE 4 magic (b :: rest)
  have five : 5 ≤ (Bytes.ofNatLE 4 magic ++ (b :: rest)).length := by
    rw [List.length_append, Bytes.length_ofNatLE, List.length_cons]
    omega
  have some : Bytes.ofNatLE 4 magic ++ (b :: rest) ≠ [] := by simp
  rw [frames?.eq_3 _ _ _ _ some]
  simp only [guard, field, number]
  rw [if_pos five, if_neg (by decide)]
  rfl

/-- Content is no longer than what is allowed, and than what the header can say. -/
abbrev Fits (limit : Nat) (content : Bytes) : Prop :=
  content.length ≤ limit ∧ content.length < UInt64.size

/-- **Content is read back**, if it fits. -/
theorem decompress?_compress (limit : Nat) (content : Bytes) :
    decompress? limit (compress content) = if Fits limit content then some content else none := by
  obtain ⟨whole, small, small'⟩ := pieces_spec content
  have frame := frame?_stored limit small small'
  rw [whole] at frame
  have bytes : compress content = Bytes.ofNatLE 4 magic ++ ([0xE0] ++ Bytes.ofNatLE 8 content.length
      ++ ((content.chunks maxBlockSize).dropLast.flatMap (storeBlock false)
        ++ storeBlock true ((content.chunks maxBlockSize).getLastD []))) := by
    simp only [compress, List.append_assoc]
  obtain ⟨fuel, enough⟩ : ∃ fuel, (compress content).length = fuel + 1 := by
    refine ⟨(compress content).length - 1, ?_⟩
    rw [bytes, List.length_append, Bytes.length_ofNatLE]
    omega
  rw [List.append_assoc, List.singleton_append] at frame
  rw [decompress?, enough, bytes, List.append_assoc, List.singleton_append, frames?_frame, frame]
  by_cases fits : Fits limit content
  · rw [if_pos fits, if_pos fits]
    simp [frames?, fits.1]
  · rw [if_neg fits, if_neg fits]
    rfl

end Zstd
end Rehoming
