import Rehoming.Crypto.ChaCha20

/-! Encryption undone. The keystream covers the text, which it is combined with a second
time, and the tag is the one that the ciphertext calls for. -/

namespace Rehoming

theorem Bytes.length_words32LE (bs : Bytes) : (words32LE bs).length = bs.length / 4 := by
  match bs with
  | [] | [_] | [_, _] | [_, _, _] => simp [words32LE]
  | a :: b :: c :: d :: rest =>
    have ih := length_words32LE rest
    rw [words32LE, List.length_cons, ih]
    simp only [List.length_cons]
    omega

theorem Bytes.length_flatMap_ofWord32LE (words : List UInt32) :
    (words.flatMap ofWord32LE).length = words.length * 4 := by
  have four (w : UInt32) : (ofWord32LE w).length = 4 := rfl
  simp only [List.length_flatMap, four, List.map_const', List.sum_replicate_nat]

namespace Crypto.ChaCha20

/-! ## Sizes -/

theorem size_quarter (v : Array UInt32) (i j k l : Nat) : (quarter v i j k l).size = v.size := by
  simp only [quarter, Array.size_setIfInBounds]

theorem size_double (lanes : List (Nat × Nat × Nat × Nat)) (v : Array UInt32) :
    (lanes.foldl (fun v lane => quarter v lane.1 lane.2.1 lane.2.2.1 lane.2.2.2) v).size =
      v.size := by
  induction lanes generalizing v with
  | nil => rfl
  | cons lane lanes ih => rw [List.foldl_cons, ih, size_quarter]

theorem length_permute (words : List UInt32) : (permute words).length = words.length := by
  have rounds (turns : List Nat) (v : Array UInt32) :
      (turns.foldl (fun v _ => lanes.foldl
        (fun v lane => quarter v lane.1 lane.2.1 lane.2.2.1 lane.2.2.2) v) v).size = v.size := by
    induction turns generalizing v with
    | nil => rfl
    | cons turn turns ih => rw [List.foldl_cons, ih, size_double]
  rw [permute, Array.length_toList, rounds, List.size_toArray]

theorem length_block {key nonce : Bytes} (sized : key.length = 32) (sized' : nonce.length = 12)
    (counter : Nat) : (block key nonce counter).length = 64 := by
  have words : (constants ++ Bytes.words32LE key ++ [UInt32.ofNat counter]
      ++ Bytes.words32LE nonce).length = 16 := by
    simp only [List.length_append, Bytes.length_words32LE, sized, sized']
    rfl
  rw [block, Bytes.length_flatMap_ofWord32LE, List.length_zipWith, length_permute, words]
  rfl

theorem length_keystream {key nonce : Bytes} (sized : key.length = 32) (sized' : nonce.length = 12)
    (first length : Nat) : length ≤ (keystream key nonce first length).length := by
  simp only [keystream, List.length_flatMap, length_block sized sized', List.map_const',
    List.sum_replicate_nat, List.length_range]
  omega

/-- The key and the nonce that are used in place of those that were given. -/
theorem length_narrow {key nonce : Bytes} (sized : key.length = 32) (sized' : nonce.length = 24) :
    (narrow key nonce).1.length = 32 ∧ (narrow key nonce).2.length = 12 := by
  have words : (permute (constants ++ Bytes.words32LE key
      ++ Bytes.words32LE (nonce.take 16))).length = 16 := by
    simp only [length_permute, List.length_append, Bytes.length_words32LE, List.length_take, sized,
      sized']
    rfl
  constructor
  · simp only [narrow, subkey, Bytes.length_flatMap_ofWord32LE, List.length_append,
      List.length_take, List.length_drop, words]
    rfl
  · simp only [narrow, List.length_append, List.length_drop, sized']
    rfl

/-! ## Round trip -/

theorem apply_apply {key nonce : Bytes} (sized : key.length = 32) (sized' : nonce.length = 12)
    (first : Nat) (text : Bytes) : apply key nonce first (apply key nonce first text) = text := by
  have enough := length_keystream sized sized' first text.length
  have same : (apply key nonce first text).length = text.length := by
    rw [apply, Bytes.xor, List.length_zipWith]
    omega
  rw [apply, same, apply, Bytes.xor_xor_cancel _ _ enough]

/-- **Decryption undoes encryption.** -/
theorem decrypt?_encrypt {key nonce : Bytes} (sized : key.length = 32) (sized' : nonce.length = 24)
    (plaintext : Bytes) : decrypt? key nonce (encrypt key nonce plaintext) = some plaintext := by
  obtain ⟨sized, sized'⟩ := length_narrow sized sized'
  rw [encrypt, decrypt?]
  generalize narrow key nonce = inner at sized sized'
  obtain ⟨key, nonce⟩ := inner
  dsimp only at sized sized' ⊢
  have tagged (ciphertext : Bytes) : (tag key nonce ciphertext).length = 16 :=
    Poly1305.length_tag _ _
  have cut : (apply key nonce 1 plaintext ++ tag key nonce (apply key nonce 1 plaintext)).length
      - 16 = (apply key nonce 1 plaintext).length := by
    rw [List.length_append, tagged]
    omega
  rw [cut, List.take_left, List.drop_left, apply_apply sized sized', if_pos]
  refine ⟨?_, rfl⟩
  rw [List.length_append, tagged]
  omega

end Crypto.ChaCha20
end Rehoming
