import Mathlib.Data.List.Basic

/-!
# Lossy decoding of UTF-8

A program may print any bytes.  Lossy decoding reads them as UTF-8, and where
they are not it puts U+FFFD for each maximal piece that could have begun a
character and reads on behind that piece.

Two things are shown: what is UTF-8 is read back as it was written
(`decode_encode`), and whatever the bytes are, U+0000 is read exactly where a
zero byte stands (`nul_mem_decode`).  For that, a character has a zero byte in
its encoding only if it is U+0000, and a piece that is replaced has none.
-/

namespace Utf8Lossy

/-- The character at the front, if one is encoded there. -/
def front (bytes : List UInt8) : Option Char :=
  bytes.toByteArray.utf8DecodeChar? 0

/-- A continuation byte, `10xxxxxx`. -/
def continues (b : UInt8) : Bool :=
  0x80 ≤ b && b ≤ 0xBF

/-- The second bytes that can follow the first byte of three or four. -/
def follows (lead b : UInt8) : Bool :=
  if lead = 0xE0 then 0xA0 ≤ b && b ≤ 0xBF
  else if lead = 0xED then 0x80 ≤ b && b ≤ 0x9F
  else if lead = 0xF0 then 0x90 ≤ b && b ≤ 0xBF
  else if lead = 0xF4 then 0x80 ≤ b && b ≤ 0x8F
  else 0xE1 ≤ lead && lead ≤ 0xF3 && continues b

/-- The length of the piece to be replaced, where no character is encoded. -/
def invalidLength : List UInt8 → Nat
  | lead :: b :: c :: _ =>
      if follows lead b then if 0xF0 ≤ lead && continues c then 3 else 2 else 1
  | [lead, b] => if follows lead b then 2 else 1
  | _ => 1

/-- The characters that are read. -/
def decode : List UInt8 → List Char
  | [] => []
  | b :: bytes =>
      match front (b :: bytes) with
      | some c => c :: decode (bytes.drop (c.utf8Size - 1))
      | none => '\uFFFD' :: decode (bytes.drop (invalidLength (b :: bytes) - 1))
termination_by bytes => bytes.length
decreasing_by all_goals simp only [List.length_drop, List.length_cons]; omega

/-- The text that is read, `String::from_utf8_lossy`. -/
def fromUtf8Lossy (bytes : List UInt8) : String :=
  String.ofList (decode bytes)

/-! ## What is UTF-8 -/

/-- A character is read from its encoding. -/
theorem front_encode (c : Char) (rest : List UInt8) :
    front (String.utf8EncodeChar c ++ rest) = some c := by
  rw [front, List.toByteArray_append]
  exact ByteArray.utf8DecodeChar?_utf8EncodeChar_append

/-- What is read stands in front. -/
theorem eq_of_front {bytes : List UInt8} {c : Char} (h : front bytes = some c) :
    ∃ rest, bytes = String.utf8EncodeChar c ++ rest := by
  obtain ⟨l, hl⟩ := ByteArray.exists_of_utf8DecodeChar?_eq_some h
  refine ⟨l.data.toList, ?_⟩
  have hlist := congrArg (fun b => b.data.toList) hl
  simpa using hlist

/-- Reading a character goes on behind it. -/
theorem decode_encode_append (c : Char) (rest : List UInt8) :
    decode (String.utf8EncodeChar c ++ rest) = c :: decode rest := by
  have hfront := front_encode c rest
  have hlength := String.length_utf8EncodeChar c
  cases hbytes : String.utf8EncodeChar c with
  | nil => exact absurd hbytes String.utf8EncodeChar_ne_nil
  | cons b bs =>
      rw [hbytes] at hfront hlength
      rw [List.cons_append] at hfront ⊢
      rw [decode, hfront]
      have hdrop : c.utf8Size - 1 = bs.length := by
        rw [← hlength]
        rfl
      simp [hdrop]

/-- **What is UTF-8 is read back as it was written.** -/
theorem decode_encode (cs : List Char) : decode (cs.flatMap String.utf8EncodeChar) = cs := by
  induction cs with
  | nil => rw [List.flatMap_nil, decode]
  | cons c cs ih => rw [List.flatMap_cons, decode_encode_append, ih]

/-- Valid UTF-8 is read as the text it encodes. -/
theorem fromUtf8Lossy_eq_fromUTF8 {bytes : List UInt8} (h : bytes.toByteArray.IsValidUTF8) :
    fromUtf8Lossy bytes = String.fromUTF8 bytes.toByteArray h := by
  obtain ⟨cs, hcs⟩ := id h
  have hbytes : bytes = cs.flatMap String.utf8EncodeChar := by
    have hlist := congrArg (fun b => b.data.toList) hcs
    simpa [List.utf8Encode] using hlist
  have htext : String.ofList cs = String.fromUTF8 bytes.toByteArray h :=
    String.toByteArray_inj.mp hcs.symm
  rw [← htext, fromUtf8Lossy, hbytes, decode_encode]

/-! ## Zero bytes -/

private theorem zero_eq_ofNat_iff (n : Nat) : (0 : UInt8) = UInt8.ofNat n ↔ n % 256 = 0 := by
  rw [← UInt8.toNat_inj, UInt8.toNat_ofNat']
  exact eq_comm

/-- Only U+0000 has a zero byte in its encoding. -/
theorem zero_mem_encode {c : Char} : 0 ∈ String.utf8EncodeChar c ↔ c = '\x00' := by
  have hnul : c = '\x00' ↔ c.val.toNat = 0 := by
    rw [Char.ext_iff, ← UInt32.toNat_inj]
    rfl
  rw [hnul]
  unfold String.utf8EncodeChar
  dsimp only
  split
  · simp only [List.mem_singleton, zero_eq_ofNat_iff]
    omega
  · split
    · simp only [List.mem_cons, List.not_mem_nil, or_false, zero_eq_ofNat_iff]
      omega
    · split
      · simp only [List.mem_cons, List.not_mem_nil, or_false, zero_eq_ofNat_iff]
        omega
      · simp only [List.mem_cons, List.not_mem_nil, or_false, zero_eq_ofNat_iff]
        omega

/-- A zero byte in front is read. -/
theorem front_zero (rest : List UInt8) : front (0 :: rest) = some '\x00' :=
  front_encode '\x00' rest

/-- A zero byte continues no character. -/
@[simp] theorem continues_zero : continues 0 = false := rfl

@[simp] theorem follows_zero (lead : UInt8) : follows lead 0 = false := by
  simp [follows]

/-- A piece that is replaced has no zero byte. -/
theorem not_zero_mem_take_invalidLength {bytes : List UInt8} (h : front bytes = none) :
    0 ∉ bytes.take (invalidLength bytes) := by
  have hlead : ∀ lead rest, bytes = lead :: rest → 0 ≠ lead := by
    intro lead rest hbytes hzero
    rw [hbytes, ← hzero, front_zero] at h
    cases h
  unfold invalidLength
  split
  · next lead b c rest =>
      have hb : follows lead b = true → 0 ≠ b := by
        intro hfollows hzero
        rw [← hzero, follows_zero] at hfollows
        cases hfollows
      have hc : continues c = true → 0 ≠ c := by
        intro hcontinues hzero
        rw [← hzero, continues_zero] at hcontinues
        cases hcontinues
      split
      · next hfollows =>
          split
          · next hlong =>
              have hcontinues := (Bool.and_eq_true_iff.mp hlong).2
              simp [hlead _ _ rfl, hb hfollows, hc hcontinues]
          · simp [hlead _ _ rfl, hb hfollows]
      · simp [hlead _ _ rfl]
  · next lead b =>
      split
      · next hfollows =>
          have hb : 0 ≠ b := by
            intro hzero
            rw [← hzero, follows_zero] at hfollows
            cases hfollows
          simp [hlead _ _ rfl, hb]
      · simp [hlead _ _ rfl]
  · cases bytes with
    | nil => simp
    | cons lead rest => simp [hlead lead rest rfl]

/-- Behind the first byte, dropping `n` bytes is dropping `n - 1`. -/
private theorem drop_cons_of_pos {n : Nat} (hn : 0 < n) (b : UInt8) (bytes : List UInt8) :
    (b :: bytes).drop n = bytes.drop (n - 1) := by
  obtain ⟨k, rfl⟩ : ∃ k, n = k + 1 := ⟨n - 1, by omega⟩
  rfl

theorem invalidLength_pos (bytes : List UInt8) : 0 < invalidLength bytes := by
  unfold invalidLength
  split
  · split
    · split <;> decide
    · decide
  · split <;> decide
  · decide

/-- **U+0000 is read exactly where a zero byte stands.** -/
theorem nul_mem_decode (bytes : List UInt8) : '\x00' ∈ decode bytes ↔ 0 ∈ bytes := by
  fun_induction decode bytes with
  | case1 => simp
  | case2 b bytes c hfront ih =>
      obtain ⟨rest, hrest⟩ := eq_of_front hfront
      have hdrop : bytes.drop (c.utf8Size - 1) = rest := by
        rw [← drop_cons_of_pos c.utf8Size_pos b bytes, hrest, ← String.length_utf8EncodeChar]
        exact List.drop_left
      rw [hdrop] at ih ⊢
      rw [hrest, List.mem_append, zero_mem_encode, List.mem_cons, ih, eq_comm]
  | case3 b bytes hfront ih =>
      have hpiece := not_zero_mem_take_invalidLength hfront
      have hnul : '\x00' ≠ '\uFFFD' := by decide
      rw [← drop_cons_of_pos (invalidLength_pos _) b bytes] at ih ⊢
      calc '\x00' ∈ '\uFFFD' :: decode ((b :: bytes).drop (invalidLength (b :: bytes)))
          ↔ 0 ∈ (b :: bytes).drop (invalidLength (b :: bytes)) := by
            rw [List.mem_cons, ih]
            simp [hnul]
        _ ↔ 0 ∈ (b :: bytes).take (invalidLength (b :: bytes)) ++
              (b :: bytes).drop (invalidLength (b :: bytes)) := by
            rw [List.mem_append]
            simp [hpiece]
        _ ↔ 0 ∈ b :: bytes := by rw [List.take_append_drop]

/-- The text that is read has a U+0000 exactly where a zero byte stands. -/
theorem nul_mem_fromUtf8Lossy (bytes : List UInt8) :
    '\x00' ∈ (fromUtf8Lossy bytes).toList ↔ 0 ∈ bytes := by
  rw [fromUtf8Lossy, String.toList_ofList, nul_mem_decode]

/-- A text is read back from its bytes. -/
theorem fromUtf8Lossy_encode (s : String) :
    fromUtf8Lossy (s.toList.flatMap String.utf8EncodeChar) = s := by
  rw [fromUtf8Lossy, decode_encode, String.ofList_toList]

end Utf8Lossy
