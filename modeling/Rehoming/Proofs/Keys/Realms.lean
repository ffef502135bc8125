import Mathlib.Data.List.TakeWhile
import Rehoming.Keys.Realm
import Rehoming.Proofs.Base64
import Rehoming.Proofs.Keys.Ssh
import Rehoming.Proofs.Sequences

/-! The file of realm keys. Each line is read by itself, and what is read of a key has the
fingerprint that its numbers have. Main statement: a key that is looked up is the first one with the
fingerprint, no line interferes with another, and the line that is written for a key is read back. -/

namespace Rehoming.Keys.RealmKey

open Crypto

/-! ## Lines by themselves -/

/-- The key of a line. -/
def Line.key? : Line → Option RealmKey
  | .key k => some k
  | _ => none

theorem Line.key?_eq_some_iff {line : Line} {k : RealmKey} :
    line.key? = some k ↔ line = .key k := by
  cases line <;> simp [Line.key?]

/-- The key on a line as it stands in a file. -/
def usable? (cs : List Char) : Option RealmKey := (readLine 1 cs).key?

/-- The number of a line only shows in reports. -/
theorem readLine_key? (number : Nat) (cs : List Char) :
    (readLine number cs).key? = usable? cs := by
  unfold usable? readLine
  dsimp only
  split
  · rfl
  · rfl
  · split
    · split <;> rfl
    · rfl

/-- All pieces between the ends of lines count, also a last one that is empty. -/
theorem ofText_eq (content : String) :
    ofText content = (content.toList.splitOn '\n').filterMap usable? := by
  have numbered (pieces : List (List Char)) (first : Nat) :
      ((pieces.zipIdx first).map fun l => readLine (l.2 + 1) l.1).filterMap Line.key? =
        pieces.filterMap usable? := by
    rw [List.filterMap_map, ← List.zipIdx_map_fst first pieces, List.filterMap_map,
      List.zipIdx_map_fst]
    exact List.filterMap_congr fun l _ => readLine_key? _ _
  have read : ofText content = (lines content.toList).filterMap usable? :=
    numbered (lines content.toList) 0
  rw [read, lines]
  split
  · rename_i last
    obtain ⟨front, split⟩ := List.getLast?_eq_some_iff.mp last
    rw [split, List.dropLast_concat, List.filterMap_append]
    exact (List.append_nil _).symm
  · rfl

theorem ofText_append (a b : String) : ofText (a ++ "\n" ++ b) = ofText a ++ ofText b := by
  have cut : (a.toList ++ '\n' :: b.toList).splitOn '\n' =
      a.toList.splitOn '\n' ++ b.toList.splitOn '\n' :=
    List.splitOnP_append_cons _ _ (beq_self_eq_true _)
  have text : (a ++ "\n" ++ b).toList = a.toList ++ '\n' :: b.toList := by simp
  rw [ofText_eq, text, cut, List.filterMap_append, ofText_eq, ofText_eq]

/-! ## What a line holds -/

theorem usable?_eq_some_iff {cs : List Char} {k : RealmKey} : usable? cs = some k ↔
    ((Text.trim cs).takeWhile fun c => !Text.isBlank c) = Ssh.rsaName.toList ∧
      ofLine (Text.trim cs) = .ok k := by
  unfold usable? readLine
  dsimp only
  split
  · rename_i none
    rw [none]
    exact iff_of_false nofun fun both => absurd both.1 (by decide)
  · rename_i rest comment
    rw [comment]
    refine iff_of_false nofun fun both => ?_
    have first := congrArg List.head? both.1
    rw [List.head?_takeWhile] at first
    cases first
  · split
    · rename_i rsa
      split
      · rename_i key read
        simp [Line.key?, rsa, read]
      · rename_i e refused
        simp [Line.key?, refused]
    · rename_i other
      exact iff_of_false nofun fun both => other both.1

theorem positive_ok_iff {what : String} {content : Bytes} {n : Nat} :
    positive what content = .ok n ↔ Ssh.positive? content = some n := by
  unfold positive
  split
  · rename_i m value
    simp [value]
  · rename_i none
    simp [none]

/-- The fingerprint that was made of the line is the one of the key. -/
theorem fingerprint_of_ofLine {cs : List Char} {k : RealmKey} (h : ofLine cs = .ok k) :
    k.fingerprint = Keys.fingerprint k.key := by
  unfold ofLine at h
  split at h
  · cases h
  · rename_i parts comment split
    obtain ⟨modulus, value, h⟩ := bind_ok_iff.mp h
    obtain ⟨exponent, value', h⟩ := bind_ok_iff.mp h
    dsimp only at h
    split at h
    · cases h
    · cases h
      obtain ⟨⟨kind, rest⟩, -, found⟩ := Option.bind_eq_some_iff.mp split
      obtain ⟨⟨symbols, comment⟩, -, found⟩ := Option.bind_eq_some_iff.mp found
      obtain ⟨-, -, found⟩ := Option.bind_eq_some_iff.mp found
      obtain ⟨blob, -, found⟩ := Option.bind_eq_some_iff.mp found
      obtain ⟨parts', read, found⟩ := Option.bind_eq_some_iff.mp found
      cases found
      have own := Ssh.RsaPublic.ofKey_of_ofBlob? read (positive_ok_iff.mp value)
        (positive_ok_iff.mp value')
      rw [Keys.fingerprint, own]

/-! ## Written lines -/

theorem segment?_of_end {front : List Char} (h : ∀ c ∈ front, isSegmentChar c = true) :
    segment? front = some (front, []) := by
  have all : front.takeWhile isSegmentChar = front := List.takeWhile_eq_self_iff.mpr h
  rw [segment?, all, List.drop_length]

theorem segment?_of_blank {front : List Char} (h : ∀ c ∈ front, isSegmentChar c = true)
    (rest : List Char) : segment? (front ++ ' ' :: rest) = some (front, rest) := by
  have all : (front ++ ' ' :: rest).takeWhile isSegmentChar = front := by
    rw [List.takeWhile_append_of_pos h, List.takeWhile_cons_of_neg (by decide), List.append_nil]
  rw [segment?, all, List.drop_left]
  rfl

/-- The symbols of a key on its line. -/
def symbolsOf (key : Rsa.PublicKey) : List Char :=
  (Base64.encode (Ssh.RsaPublic.ofKey key).blob).map fun b => Char.ofNat b.toNat

/-- What follows the symbols. -/
def remark (comment : String) : List Char :=
  if comment = "" then [] else ' ' :: comment.toList

theorem toList_publicLine (key : Rsa.PublicKey) (comment : String) :
    (publicLine key comment).toList =
      Ssh.rsaName.toList ++ ' ' :: (symbolsOf key ++ remark comment) := by
  unfold publicLine remark
  dsimp only
  by_cases silent : comment = "" <;> simp [silent, Base64.encodeText, symbolsOf]

theorem symbol_segment : ∀ n, n < 64 →
    isSegmentChar (Char.ofNat (Base64.symbol n).toNat) = true := by decide

theorem symbolsOf_segment (key : Rsa.PublicKey) : ∀ c ∈ symbolsOf key, isSegmentChar c = true := by
  intro c hc
  obtain ⟨b, hb, rfl⟩ := List.mem_map.mp hc
  exact Base64.encode_forall (p := fun b => isSegmentChar (Char.ofNat b.toNat) = true)
    symbol_segment (by decide) _ b hb

theorem decode_symbolsOf (key : Rsa.PublicKey) :
    Base64.decode (Text.Utf8.encode (symbolsOf key)) = .ok (Ssh.RsaPublic.ofKey key).blob := by
  rw [symbolsOf, Base64.utf8_plain (Base64.encode_plain _), Base64.decode_encode]

theorem symbolsOf_ne_nil (key : Rsa.PublicKey) : symbolsOf key ≠ [] := by
  intro none
  have blob := decode_symbolsOf key
  rw [none] at blob
  cases blob

/-- Numbers that make up a key are above zero and not too long for a field. -/
theorem bounds_of_checkForeign {key : Rsa.PublicKey} (h : key.checkForeign = .ok ()) :
    (key.modulus ≠ 0 ∧ key.exponent ≠ 0) ∧
      key.modulus < 256 ^ 1024 ∧ key.exponent < 256 ^ 1024 := by
  unfold Rsa.PublicKey.checkForeign Rsa.PublicKey.check at h
  split at h
  · cases h
  · rename_i short
    split at h
    · cases h
    · rename_i odd
      split at h
      · cases h
      · rename_i fine
        have long : 1 <<< 4096 ≤ 256 ^ 1024 := by decide +kernel
        omega

theorem segment?_symbols (key : Rsa.PublicKey) (comment : String) :
    segment? (symbolsOf key ++ remark comment) = some (symbolsOf key, comment.toList) := by
  unfold remark
  split
  · rename_i silent
    rw [List.append_nil, silent]
    exact segment?_of_end (symbolsOf_segment key)
  · exact segment?_of_blank (symbolsOf_segment key) _

/-- The line of a key has its parts. -/
theorem split?_publicLine {key : Rsa.PublicKey} (sound : key.checkForeign = .ok ())
    {comment : String} (bare : Text.trim comment.toList = comment.toList) :
    split? (publicLine key comment).toList =
      some (Ssh.RsaPublic.ofKey key, comment.toList) := by
  have kind : segment? (publicLine key comment).toList =
      some (Ssh.rsaName.toList, symbolsOf key ++ remark comment) := by
    rw [toList_publicLine]
    exact segment?_of_blank (List.all_eq_true.mp (by decide)) _
  have blob := decode_symbolsOf key
  obtain ⟨-, modulus, exponent⟩ := bounds_of_checkForeign sound
  have read := Ssh.RsaPublic.ofBlob?_blob (Ssh.RsaPublic.ofKey_written modulus exponent)
  have kept : Text.trimEnd comment.toList = comment.toList := (Text.trim_eq_self_iff.mp bare).2
  simp [split?, kind, segment?_symbols, symbolsOf_ne_nil, blob, read, kept, Except.toOption]

theorem ofLine_publicLine {key : Rsa.PublicKey} (sound : key.checkForeign = .ok ())
    {comment : String} (bare : Text.trim comment.toList = comment.toList) :
    ofLine (publicLine key comment).toList =
      .ok ⟨Keys.fingerprint key, key, comment⟩ := by
  obtain ⟨⟨modulus, exponent⟩, -⟩ := bounds_of_checkForeign sound
  have value : positive "modulus" (Ssh.ofNat key.modulus) = .ok key.modulus :=
    positive_ok_iff.mpr (Ssh.positive?_ofNat modulus)
  have value' : positive "public exponent" (Ssh.ofNat key.exponent) = .ok key.exponent :=
    positive_ok_iff.mpr (Ssh.positive?_ofNat exponent)
  simp only [ofLine, split?_publicLine sound bare, Ssh.RsaPublic.ofKey, value, value', bind,
    Except.bind, sound, String.ofList_toList, Keys.fingerprint]

/-- There is no blank at either end of the line. -/
theorem trim_publicLine (key : Rsa.PublicKey) {comment : String}
    (bare : Text.trim comment.toList = comment.toList) :
    Text.trim (publicLine key comment).toList = (publicLine key comment).toList := by
  rw [toList_publicLine, Text.trim_eq_self_iff, Text.trimStart_eq_self_iff,
    Text.trimEnd_eq_self_iff]
  refine ⟨fun c hc => ?_, fun c hc => ?_⟩
  · cases hc
    decide
  · rw [List.append_cons, List.getLast?_append_of_ne_nil _ (by simp [symbolsOf_ne_nil])] at hc
    unfold remark at hc
    split at hc
    · rw [List.append_nil] at hc
      obtain ⟨b, hb, rfl⟩ := List.mem_map.mp (List.mem_of_getLast? hc)
      exact (Base64.encode_plain _ b hb).2
    · rename_i loud
      have some : comment.toList ≠ [] := by simpa using loud
      rw [List.append_cons, List.getLast?_append_of_ne_nil _ some] at hc
      exact Text.trimEnd_eq_self_iff.mp (Text.trim_eq_self_iff.mp bare).2 c hc

/-- A line that is written is a file with one key. -/
theorem ofText_publicLine {key : Rsa.PublicKey} (sound : key.checkForeign = .ok ())
    {comment : String} (single : '\n' ∉ comment.toList)
    (bare : Text.trim comment.toList = comment.toList) :
    ofText (publicLine key comment) = [⟨Keys.fingerprint key, key, comment⟩] := by
  have usable : usable? (publicLine key comment).toList =
      some ⟨Keys.fingerprint key, key, comment⟩ := by
    rw [usable?_eq_some_iff, trim_publicLine key bare]
    refine ⟨?_, ofLine_publicLine sound bare⟩
    rw [toList_publicLine]
    exact List.takeWhile_append_of_pos (List.all_eq_true.mp (by decide))
  have line : ∀ piece ∈ [(publicLine key comment).toList], '\n' ∉ piece := by
    intro piece hp inside
    rw [List.mem_singleton.mp hp, toList_publicLine] at inside
    rcases List.mem_append.mp inside with name | inside
    · exact absurd name (by decide)
    · rcases List.mem_cons.mp inside with blank | inside
      · exact absurd blank (by decide)
      · rcases List.mem_append.mp inside with symbol | inside
        · exact absurd (symbolsOf_segment key _ symbol) (by decide)
        · unfold remark at inside
          split at inside
          · cases inside
          · rcases List.mem_cons.mp inside with blank | inside
            · exact absurd blank (by decide)
            · exact single inside
  have whole := List.splitOn_intercalate '\n' line (List.cons_ne_nil _ _)
  rw [List.intercalate_singleton] at whole
  rw [ofText_eq, whole, List.filterMap_cons_some usable, List.filterMap_nil]

/-! ## Looking keys up -/

/-- The line with this key is the first one with this fingerprint. -/
structure FirstWith (content fingerprint : String) (k : RealmKey) : Prop where
  named : k.fingerprint = fingerprint
  first : ∃ before after, readLines content = before ++ .key k :: after ∧
    ∀ other, .key other ∈ before → other.fingerprint ≠ fingerprint

theorem find?_usable_iff {fingerprint : String} {content : String} {k : RealmKey} :
    ((ofText content).find? fun k => k.fingerprint == fingerprint) = some k ↔
      FirstWith content fingerprint k := by
  have read : ofText content = (readLines content).filterMap Line.key? := rfl
  rw [read, List.find?_filterMap, Option.bind_eq_some_iff]
  constructor
  · intro ⟨line, found, key⟩
    obtain rfl := Line.key?_eq_some_iff.mp key
    obtain ⟨named, before, after, split, others⟩ := List.find?_eq_some_iff_append.mp found
    refine ⟨by simpa [Line.key?] using named, before, after, split, fun other there => ?_⟩
    simpa [Line.key?] using others _ there
  · intro ⟨named, before, after, split, others⟩
    refine ⟨.key k, List.find?_eq_some_iff_append.mpr ⟨?_, before, after, split, ?_⟩, rfl⟩
    · simpa [Line.key?] using named
    · intro line there
      cases line with
      | key other => simpa [Line.key?] using others other there
      | empty => rfl
      | foreign number kind => rfl
      | malformed number error => rfl

theorem find_ok_iff {content fingerprint : String} {key : Rsa.PublicKey} :
    find content fingerprint = .ok key ↔
      ∃ k, FirstWith content fingerprint k ∧ k.key = key := by
  unfold find
  split
  · rename_i k found
    have here := find?_usable_iff.mp found
    constructor
    · intro same
      cases same
      exact ⟨k, here, rfl⟩
    · intro ⟨k', there, same⟩
      cases found.symm.trans (find?_usable_iff.mpr there)
      rw [same]
  · rename_i none
    refine iff_of_false nofun ?_
    intro ⟨k, there, _⟩
    cases none.symm.trans (find?_usable_iff.mpr there)

theorem fingerprint_of_usable {cs : List Char} {k : RealmKey} (h : usable? cs = some k) :
    k.fingerprint = Keys.fingerprint k.key :=
  fingerprint_of_ofLine (usable?_eq_some_iff.mp h).2

theorem fingerprint_of_mem_readLines {content : String} {k : RealmKey}
    (h : .key k ∈ readLines content) : k.fingerprint = Keys.fingerprint k.key := by
  obtain ⟨⟨cs, number⟩, -, read⟩ := List.mem_map.mp h
  have key := Line.key?_eq_some_iff.mpr read
  rw [readLine_key?] at key
  exact fingerprint_of_usable key

/-- **Realm keys.** A key that is looked up has the fingerprint that was asked for, and is the one
on the first line with a usable key of this fingerprint; if there is no such line, that is said.
Files are read line by line, so that what is on one line changes nothing about the others. The line
that is written for a key that is acceptable, with any comment that keeps to the line, is read as
this key, with its fingerprint and the comment. -/
theorem find_first :
    (∀ content fingerprint key, find content fingerprint = .ok key →
      Keys.fingerprint key = fingerprint ∧
        ∃ k, FirstWith content fingerprint k ∧ k.key = key) ∧
    (∀ content fingerprint e, find content fingerprint = .error e →
      e = .invalidKey ("realm key not found: " ++ fingerprint) ∧
        ∀ k, .key k ∈ readLines content → k.fingerprint ≠ fingerprint) ∧
    (∀ a b, ofText (a ++ "\n" ++ b) = ofText a ++ ofText b) ∧
    ∀ key comment, Rsa.PublicKey.checkForeign key = .ok () → '\n' ∉ comment.toList →
      Text.trim comment.toList = comment.toList →
        ofText (publicLine key comment) = [⟨Keys.fingerprint key, key, comment⟩] := by
  refine ⟨fun content fingerprint key found => ?_, fun content fingerprint e none => ?_,
    ofText_append, fun key comment sound single bare => ofText_publicLine sound single bare⟩
  · obtain ⟨k, here, same⟩ := find_ok_iff.mp found
    refine ⟨?_, k, here, same⟩
    obtain ⟨before, after, split, -⟩ := here.first
    have there : .key k ∈ readLines content := by simp [split]
    rw [← same, ← here.named, fingerprint_of_mem_readLines there]
  · unfold find at none
    split at none
    · cases none
    · rename_i absent
      cases none
      refine ⟨rfl, fun k there same => ?_⟩
      have listed : k ∈ ofText content := List.mem_filterMap.mpr ⟨_, there, rfl⟩
      have other := List.find?_eq_none.mp absent k listed
      exact other (by simpa using same)

/-- A file with this line behind two others has its key, whatever the other two are. -/
theorem find_first_behind :
    let key : Rsa.PublicKey := ⟨15, 3⟩
    let file := "# realms" ++ "\n" ++ ("ssh-rsa !!! broken" ++ "\n" ++ publicLine key "realm b")
    ofText file = [⟨Keys.fingerprint key, key, "realm b"⟩] := by
  intro key file
  obtain ⟨-, -, behind, written⟩ := find_first
  have line := written key "realm b" (by decide) (by decide) (by decide)
  have remark : ofText "# realms" = [] := by decide
  have broken : ofText "ssh-rsa !!! broken" = [] := by decide
  rw [behind, behind, line, remark, broken]
  rfl

end Rehoming.Keys.RealmKey
