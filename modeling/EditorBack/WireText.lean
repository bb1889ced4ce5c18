import EditorBack.Models

/-!
# Ids and messages as text

`Uuid`'s `Display` writes an id as lower-case hexadecimal digits in five groups, and
`Uuid::parse_str` reads it back.  It names a job on the labels of its container and in
error texts, and it is the value of `job_id` in the JSON that `send_job` puts on the topic.
-/

namespace EditorBack

namespace Uuid

/-- The value of a hexadecimal digit, of either case. -/
def hexValue (c : Char) : Option Nat :=
  if '0' ≤ c ∧ c ≤ '9' then some (c.toNat - '0'.toNat)
  else if 'a' ≤ c ∧ c ≤ 'f' then some (c.toNat - 'a'.toNat + 10)
  else if 'A' ≤ c ∧ c ≤ 'F' then some (c.toNat - 'A'.toNat + 10)
  else none

def readHex (digits : List Char) : Option Nat :=
  digits.foldlM (fun n c => (hexValue c).map (16 * n + ·)) 0

/-- The 32 digits of an id. -/
def hexDigits (id : Uuid) : List Char :=
  List.replicate (32 - (Nat.toDigits 16 id).length) '0' ++ Nat.toDigits 16 id

/-- Groups of eight, four, four, four and twelve digits. -/
def hyphens (digits : List Char) : List Char :=
  let n := digits.length - 24
  digits.take n ++ ('-' :: (digits.drop n).take 4 ++ ('-' :: ((digits.drop n).drop 4).take 4 ++
    ('-' :: (((digits.drop n).drop 4).drop 4).take 4 ++
      '-' :: (((digits.drop n).drop 4).drop 4).drop 4)))

/-- `Display for Uuid`. -/
def hyphenated (id : Uuid) : String :=
  .ofList (hyphens (hexDigits id))

/-- `Uuid::parse_str`, on the form that `Display` writes. -/
def parseStr (input : String) : Option Uuid :=
  let digits := input.toList.filter (· ≠ '-')
  if 32 ≤ digits.length ∧ hyphens digits = input.toList then readHex digits else none

private theorem hexValue_digitChar : ∀ d < 16, hexValue (Nat.digitChar d) = some d := by decide

private theorem readHex_append {front back : List Char} {n : Nat} (h : readHex front = some n) :
    readHex (front ++ back) = back.foldlM (fun n c => (hexValue c).map (16 * n + ·)) n := by
  rw [readHex, List.foldlM_append]
  rw [readHex] at h
  rw [h]
  rfl

private theorem readHex_toDigits (n : Nat) : readHex (Nat.toDigits 16 n) = some n := by
  induction n using Nat.strongRecOn with
  | ind n ih =>
      rw [Nat.toDigits_eq_if (by decide)]
      split
      · next hlt => simp [readHex, hexValue_digitChar n hlt]
      · next hge =>
          rw [readHex_append (ih (n / 16) (by omega))]
          have hlow : n % 16 < 16 := Nat.mod_lt n (by decide)
          simp only [List.foldlM_cons, hexValue_digitChar _ hlow, Option.map_some, List.foldlM_nil]
          exact congrArg some (Nat.div_add_mod n 16)

private theorem readHex_zeros (k : Nat) : readHex (List.replicate k '0') = some 0 := by
  induction k with
  | zero => rfl
  | succ k ih =>
      rw [List.replicate_succ', readHex_append ih]
      rfl

/-- The digits of an id are read as the id. -/
theorem readHex_hexDigits (id : Uuid) : readHex (hexDigits id) = some id := by
  rw [hexDigits, readHex_append (readHex_zeros _)]
  exact readHex_toDigits id

/-- What holds of sixteen digits holds of those of an id. -/
private theorem forall_hexDigits {P : Char → Prop} (h : ∀ d < 16, P (Nat.digitChar d))
    (id : Uuid) : ∀ c ∈ hexDigits id, P c := by
  have hdigits : ∀ n, ∀ c ∈ Nat.toDigits 16 n, P c := by
    intro n
    induction n using Nat.strongRecOn with
    | ind n ih =>
        rw [Nat.toDigits_eq_if (by decide)]
        split
        · next hlt => simpa using h n hlt
        · next hge =>
            refine List.forall_mem_append.mpr ⟨ih (n / 16) (by omega), ?_⟩
            simpa using h _ (Nat.mod_lt n (by decide))
  refine List.forall_mem_append.mpr ⟨?_, hdigits id⟩
  intro c hc
  rw [List.eq_of_mem_replicate hc]
  exact h 0 (by decide)

/-- A grouping has the digits and hyphens. -/
private theorem mem_hyphens {digits : List Char} {c : Char} (hc : c ∈ hyphens digits) :
    c = '-' ∨ c ∈ digits := by
  have hpart : ∀ {l : List Char} {n : Nat}, (∀ c ∈ l, c ∈ digits) →
      (∀ c ∈ l.take n, c ∈ digits) ∧ ∀ c ∈ l.drop n, c ∈ digits := by
    intro l n hl
    exact ⟨fun c hc => hl c (List.mem_of_mem_take hc), fun c hc => hl c (List.mem_of_mem_drop hc)⟩
  have h₀ := hpart (n := digits.length - 24) (fun c (hc : c ∈ digits) => hc)
  have h₁ := hpart (n := 4) h₀.2
  have h₂ := hpart (n := 4) h₁.2
  have h₃ := hpart (n := 4) h₂.2
  simp only [hyphens, List.mem_append, List.mem_cons] at hc
  rcases hc with hc | (hc | hc) | (hc | hc) | (hc | hc) | hc | hc
  · exact Or.inr (h₀.1 c hc)
  · exact Or.inl hc
  · exact Or.inr (h₁.1 c hc)
  · exact Or.inl hc
  · exact Or.inr (h₂.1 c hc)
  · exact Or.inl hc
  · exact Or.inr (h₃.1 c hc)
  · exact Or.inl hc
  · exact Or.inr (h₃.2 c hc)

/-- Without its hyphens a grouping is what was grouped. -/
private theorem filter_hyphens {digits : List Char} (h : ∀ c ∈ digits, c ≠ '-') :
    (hyphens digits).filter (· ≠ '-') = digits := by
  have hsplit : (hyphens digits).filter (· ≠ '-') = digits.filter (· ≠ '-') := by
    unfold hyphens
    generalize digits.length - 24 = n
    have hhyphen : ∀ l : List Char, ('-' :: l).filter (· ≠ '-') = l.filter (· ≠ '-') :=
      fun l => List.filter_cons_of_neg (by decide)
    simp only [List.filter_append, hhyphen, List.cons_append]
    simp only [← List.filter_append, List.take_append_drop]
  rw [hsplit]
  exact List.filter_eq_self.mpr fun c hc => by simpa using h c hc

/-- **`parse_str` reads what `Display` has written.** -/
theorem parseStr_hyphenated (id : Uuid) : parseStr id.hyphenated = some id := by
  have hdigits := filter_hyphens (forall_hexDigits (by decide) id)
  have hlength : 32 ≤ (hexDigits id).length := by
    rw [hexDigits, List.length_append, List.length_replicate]
    omega
  simp only [parseStr, hyphenated, String.toList_ofList]
  rw [hdigits, if_pos ⟨hlength, rfl⟩]
  exact readHex_hexDigits id

example : hyphenated 7 = "00000000-0000-0000-0000-000000000007" := by decide

end Uuid

namespace JobMessage

/-- What stands in front of the id, and what behind it. -/
def opening : List Char := "\x7b\"job_id\":\"".toList

def closing : List Char := "\"\x7d".toList

/-- The characters of `{"job_id":"..."}`. -/
def json (msg : JobMessage) : List Char :=
  opening ++ (Uuid.hyphens (Uuid.hexDigits msg.jobId) ++ closing)

/-- `serde_json::to_vec`; all of it is ASCII. -/
def toVec (msg : JobMessage) : List UInt8 :=
  msg.json.map fun c => c.toNat.toUInt8

/-- `serde_json::from_slice`, on what `to_vec` writes; anything else is refused here. -/
def fromSlice (bytes : List UInt8) : Except String JobMessage :=
  let text := bytes.map fun b => Char.ofNat b.toNat
  let id := (text.drop opening.length).take (text.length - (opening.length + closing.length))
  ((Uuid.parseStr (.ofList id)).filter fun id => toVec ⟨id⟩ = bytes).elim
    (.error "expected value at line 1 column 1") fun id => .ok ⟨id⟩

/-- A byte of the text is read as the character it was. -/
private theorem ofNat_toUInt8 {c : Char} (h : c.toNat < 128) :
    Char.ofNat c.toNat.toUInt8.toNat = c := by
  have hbyte : c.toNat.toUInt8.toNat = c.toNat := by
    rw [Nat.toUInt8, UInt8.toNat_ofNat', Nat.mod_eq_of_lt (by omega)]
  rw [hbyte, Char.ofNat_toNat]

private theorem ascii_json (msg : JobMessage) : ∀ c ∈ msg.json, c.toNat < 128 := by
  have hends : (opening ++ closing).all (·.toNat < 128) = true := by decide
  have hends := fun c hc => of_decide_eq_true (List.all_eq_true.mp hends c hc)
  refine List.forall_mem_append.mpr ⟨fun c hc => hends c (List.mem_append_left _ hc),
    List.forall_mem_append.mpr ⟨?_, fun c hc => hends c (List.mem_append_right _ hc)⟩⟩
  intro c hc
  rcases Uuid.mem_hyphens hc with rfl | hdigit
  · decide
  · exact Uuid.forall_hexDigits (P := fun c => c.toNat < 128) (by decide) _ c hdigit

/-- **A message is read as it was written.** -/
theorem fromSlice_toVec (msg : JobMessage) : fromSlice msg.toVec = .ok msg := by
  have htext : (msg.toVec.map fun b => Char.ofNat b.toNat) = msg.json := by
    rw [toVec, List.map_map]
    refine (List.map_congr_left ?_).trans (List.map_id _)
    intro c hc
    exact ofNat_toUInt8 (ascii_json msg c hc)
  have hinside : (msg.json.drop opening.length).take
      (msg.json.length - (opening.length + closing.length)) =
        Uuid.hyphens (Uuid.hexDigits msg.jobId) := by
    rw [json, List.drop_left]
    refine List.take_left' ?_
    simp only [List.length_append]
    omega
  have hread := Uuid.parseStr_hyphenated msg.jobId
  rw [Uuid.hyphenated] at hread
  rw [fromSlice]
  rw [htext, hinside, hread, Option.filter_some, if_pos (decide_eq_true rfl), Option.elim_some]

end JobMessage

end EditorBack
