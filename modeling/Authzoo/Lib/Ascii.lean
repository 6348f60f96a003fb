import Mathlib.Data.List.Basic

/-!
# Lib.Ascii

The UTF-8 bytes of a text, and tests that only ASCII bytes pass: `all_bytes` turns such a test on
every byte into one on every character.
-/

namespace Ascii

def bytes (s : String) : List UInt8 := s.toUTF8.data.toList

theorem bytes_eq (s : String) : bytes s = s.toList.flatMap String.utf8EncodeChar := by
  have h : s.toList.utf8Encode.data.toList = s.toList.flatMap String.utf8EncodeChar :=
    List.toList_data_toByteArray
  rw [bytes, String.toUTF8_eq_toByteArray, ← String.utf8Encode_toList, h]

theorem bytes_append (s t : String) : bytes (s ++ t) = bytes s ++ bytes t := by
  rw [bytes_eq, bytes_eq, bytes_eq, String.toList_append, List.flatMap_append]

theorem bytes_length (s : String) : (bytes s).length = s.utf8ByteSize := rfl

theorem bytes_inj {s t : String} (h : bytes s = bytes t) : s = t := by
  have hdata : s.toUTF8.data = t.toUTF8.data := Array.toList_inj.mp h
  exact String.toByteArray_inj.mp (ByteArray.ext hdata)

theorem encode_ascii {c : Char} (h : c.toNat < 128) :
    String.utf8EncodeChar c = [UInt8.ofNat c.toNat] := by
  have hle : c.val.toNat ≤ 0x7f := by
    have : c.val.toNat = c.toNat := rfl
    omega
  simp only [String.utf8EncodeChar, hle, if_true]
  rfl

theorem encode_other {c : Char} (h : 128 ≤ c.toNat) :
    ∀ b ∈ String.utf8EncodeChar c, 128 ≤ b.toNat := by
  have hle : ¬ c.val.toNat ≤ 0x7f := by
    have : c.val.toNat = c.toNat := rfl
    omega
  intro b hb
  simp only [String.utf8EncodeChar, hle, if_false] at hb
  split at hb
  · rcases List.mem_pair.mp hb with rfl | rfl <;> simp only [UInt8.toNat_ofNat'] <;> omega
  · split at hb
    · simp only [List.mem_cons, List.not_mem_nil, or_false] at hb
      rcases hb with rfl | rfl | rfl <;> simp only [UInt8.toNat_ofNat'] <;> omega
    · simp only [List.mem_cons, List.not_mem_nil, or_false] at hb
      rcases hb with rfl | rfl | rfl | rfl <;> simp only [UInt8.toNat_ofNat'] <;> omega

theorem encode_all {p : UInt8 → Prop} (hp : ∀ b, p b → b.toNat < 128) {c : Char} :
    (∀ b ∈ String.utf8EncodeChar c, p b) ↔ c.toNat < 128 ∧ p (UInt8.ofNat c.toNat) := by
  by_cases hc : c.toNat < 128
  · simp [encode_ascii hc, hc]
  · constructor
    · intro h
      obtain ⟨b, hb⟩ := List.exists_mem_of_ne_nil _ (String.utf8EncodeChar_ne_nil (c := c))
      have hlt := hp b (h b hb)
      have hge := encode_other (by omega) b hb
      omega
    · intro h
      omega

theorem all_bytes {p : UInt8 → Prop} (hp : ∀ b, p b → b.toNat < 128) {s : String} :
    (∀ b ∈ bytes s, p b) ↔ ∀ c ∈ s.toList, c.toNat < 128 ∧ p (UInt8.ofNat c.toNat) := by
  rw [bytes_eq]
  constructor
  · intro h c hc
    exact (encode_all hp).mp fun b hb => h b (List.mem_flatMap.mpr ⟨c, hc, hb⟩)
  · intro h b hb
    obtain ⟨c, hc, hb⟩ := List.mem_flatMap.mp hb
    exact (encode_all hp).mpr (h c hc) b hb

theorem bytes_ascii {s : String} (h : ∀ c ∈ s.toList, c.toNat < 128) :
    bytes s = s.toList.map fun c => UInt8.ofNat c.toNat := by
  rw [bytes_eq, List.map_eq_flatMap]
  exact List.flatMap_congr fun c hc => encode_ascii (h c hc)

theorem isAlphanum_iff {c : Char} : c.isAlphanum = true ↔
    65 ≤ c.toNat ∧ c.toNat ≤ 90 ∨ 97 ≤ c.toNat ∧ c.toNat ≤ 122 ∨
      48 ≤ c.toNat ∧ c.toNat ≤ 57 := by
  delta Char.isAlphanum Char.isAlpha Char.isDigit Char.isUpper Char.isLower
  simp [UInt32.le_iff_toNat_le, or_assoc]

/-- A byte as a character has the same number. -/
theorem toNat_ofNat (b : UInt8) : (Char.ofNat b.toNat).toNat = b.toNat := by
  have hvalid : b.toNat.isValidChar := .inl (Nat.lt_trans b.toNat_lt (by decide))
  rw [Char.ofNat, dif_pos hvalid]
  rfl

end Ascii
