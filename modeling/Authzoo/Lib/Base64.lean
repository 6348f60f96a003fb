import Authzoo.Lib.Ascii
import Mathlib.Data.Char

/-!
# Lib.Base64

The base64url encoding without padding: three bytes become four characters, six bits each.

* `encode_length` : the length of a text is determined by the number of bytes.
* `encode_alphabet` : a text consists of characters of the alphabet.
* `exists_encode_iff` : the texts that encode something, which are not all texts of the alphabet: the
  bits that fill up the last group are zero.
-/

namespace Base64

/-- The character of a six-bit group. -/
def digit (n : Nat) : Char :=
  if n < 26 then Char.ofNat (65 + n)
  else if n < 52 then Char.ofNat (71 + n)
  else if n < 62 then Char.ofNat (n - 4)
  else if n = 62 then '-'
  else '_'

/-- The last group of one or two bytes is filled up with zero bits. -/
def digits : List UInt8 → List Char
  | [] => []
  | [a] => [digit (a.toNat / 4), digit (a.toNat % 4 * 16)]
  | [a, b] =>
    [digit (a.toNat / 4), digit (a.toNat % 4 * 16 + b.toNat / 16), digit (b.toNat % 16 * 4)]
  | a :: b :: c :: rest =>
    digit (a.toNat / 4) :: digit (a.toNat % 4 * 16 + b.toNat / 16) ::
      digit (b.toNat % 16 * 4 + c.toNat / 64) :: digit (c.toNat % 64) :: digits rest

def encode (bytes : List UInt8) : String := .ofList (digits bytes)

/-- Membership in the alphabet. -/
def isDigit (c : Char) : Bool := c.isAlphanum || c = '-' || c = '_'

theorem digit_alphabet (n : Nat) : isDigit (digit n) = true := by
  have hall : (List.range 62).all (fun n => isDigit (digit n)) = true := by decide
  by_cases h : n < 62
  · exact List.all_eq_true.mp hall n (List.mem_range.mpr h)
  · have hlt : ¬ n < 26 ∧ ¬ n < 52 := by omega
    simp only [digit, hlt.1, hlt.2, h, if_false]
    split <;> decide

theorem digits_alphabet (bytes : List UInt8) : ∀ c ∈ digits bytes, isDigit c = true := by
  induction bytes using digits.induct with
  | case1 => simp [digits]
  | case2 a => simp [digits, digit_alphabet]
  | case3 a b => simp [digits, digit_alphabet]
  | case4 a b c rest ih =>
    intro x hx
    simp only [digits, List.mem_cons] at hx
    rcases hx with rfl | rfl | rfl | rfl | hx
    · exact digit_alphabet _
    · exact digit_alphabet _
    · exact digit_alphabet _
    · exact digit_alphabet _
    · exact ih x hx

theorem digits_length (bytes : List UInt8) : (digits bytes).length = (4 * bytes.length + 2) / 3 := by
  induction bytes using digits.induct with
  | case1 => rfl
  | case2 a => simp [digits]
  | case3 a b => simp [digits]
  | case4 a b c rest ih =>
    simp only [digits, List.length_cons, ih]
    omega

theorem encode_alphabet (bytes : List UInt8) : ∀ c ∈ (encode bytes).toList, isDigit c = true := by
  simpa [encode] using digits_alphabet bytes

theorem encode_length (bytes : List UInt8) :
    (encode bytes).toList.length = (4 * bytes.length + 2) / 3 := by
  simpa [encode] using digits_length bytes

/-! ## Decoding -/

/-- The six-bit group of a character. -/
def value (c : Char) : Nat :=
  if c.isUpper then c.toNat - 65
  else if c.isLower then c.toNat - 71
  else if c.isDigit then c.toNat + 4
  else if c = '-' then 62
  else 63

def bytes : List Char → List UInt8
  | a :: b :: c :: d :: rest =>
    .ofNat (value a * 4 + value b / 16) :: .ofNat (value b % 16 * 16 + value c / 4) ::
      .ofNat (value c % 4 * 64 + value d) :: bytes rest
  | [a, b, c] => [.ofNat (value a * 4 + value b / 16), .ofNat (value b % 16 * 16 + value c / 4)]
  | [a, b] => [.ofNat (value a * 4 + value b / 16)]
  | [_] => []
  | [] => []

/-- The last group is filled up with zero bits, and it is not a single character. -/
def Canonical : List Char → Prop
  | _ :: _ :: _ :: _ :: rest => Canonical rest
  | [_, _, c] => value c % 4 = 0
  | [_, b] => value b % 16 = 0
  | [_] => False
  | [] => True

theorem isDigit_ascii {c : Char} (h : isDigit c = true) : c.toNat < 128 := by
  simp only [isDigit, Bool.or_eq_true, decide_eq_true_eq, Ascii.isAlphanum_iff] at h
  obtain (h | rfl) | rfl := h
  · omega
  · decide
  · decide

theorem value_lt (c : Char) (h : isDigit c = true) : value c < 64 := by
  have hall : (List.range 128).all (fun n =>
      !isDigit (.ofNat n) || decide (value (.ofNat n) < 64)) = true := by decide
  have hc := List.all_eq_true.mp hall c.toNat (List.mem_range.mpr (isDigit_ascii h))
  simpa [h] using hc

theorem digit_value {c : Char} (h : isDigit c = true) : digit (value c) = c := by
  have hall : (List.range 128).all (fun n =>
      !isDigit (.ofNat n) || decide (digit (value (.ofNat n)) = .ofNat n)) = true := by decide
  have hc := List.all_eq_true.mp hall c.toNat (List.mem_range.mpr (isDigit_ascii h))
  simpa [h] using hc

theorem value_digit {n : Nat} (h : n < 64) : value (digit n) = n := by
  have hall : (List.range 64).all (fun n => decide (value (digit n) = n)) = true := by decide
  simpa using List.all_eq_true.mp hall n (List.mem_range.mpr h)

theorem bytes_length (s : List Char) : (bytes s).length = s.length * 3 / 4 := by
  induction s using bytes.induct with
  | case1 a b c d rest ih =>
    simp only [bytes, List.length_cons, ih]
    omega
  | case2 a b c => simp [bytes]
  | case3 a b => simp [bytes]
  | case4 a => simp [bytes]
  | case5 => simp [bytes]

theorem byte_toNat {n : Nat} (h : n < 256) : (UInt8.ofNat n).toNat = n :=
  UInt8.toNat_ofNat_of_lt' h

/-- Four groups, joined to three bytes and split again. -/
theorem regroup {a b c d : Nat} (hb : b < 64) (hc : c < 64) (hd : d < 64) :
    (a * 4 + b / 16) / 4 = a ∧ (a * 4 + b / 16) % 4 * 16 + (b % 16 * 16 + c / 4) / 16 = b ∧
      (b % 16 * 16 + c / 4) % 16 * 4 + (c % 4 * 64 + d) / 64 = c ∧ (c % 4 * 64 + d) % 64 = d := by
  omega

/-- What is decoded from a canonical text encodes to it. -/
theorem digits_bytes {s : List Char} (hdigits : ∀ c ∈ s, isDigit c = true) (h : Canonical s) :
    digits (bytes s) = s := by
  induction s using Canonical.induct with
  | case1 a b c d rest ih =>
    simp only [List.forall_mem_cons] at hdigits
    obtain ⟨ha, hb, hc, hd, hrest⟩ := hdigits
    have hva := value_lt a ha
    have hvb := value_lt b hb
    have hvc := value_lt c hc
    have hvd := value_lt d hd
    obtain ⟨hfirst, hsecond, hthird, hfourth⟩ := regroup (a := value a) hvb hvc hvd
    rw [Canonical] at h
    rw [bytes, digits, ih hrest h, byte_toNat (by omega), byte_toNat (by omega),
      byte_toNat (by omega), hfirst, hsecond, hthird, hfourth, digit_value ha, digit_value hb,
      digit_value hc, digit_value hd]
  | case2 a b c =>
    simp only [List.forall_mem_cons] at hdigits
    obtain ⟨ha, hb, hc, -⟩ := hdigits
    have hva := value_lt a ha
    have hvb := value_lt b hb
    have hvc := value_lt c hc
    obtain ⟨hfirst, hsecond, -, -⟩ := regroup (a := value a) (d := 0) hvb hvc (by omega)
    rw [Canonical] at h
    have hthird : (value b % 16 * 16 + value c / 4) % 16 * 4 = value c := by omega
    rw [bytes, digits, byte_toNat (by omega), byte_toNat (by omega), hfirst, hsecond, hthird,
      digit_value ha, digit_value hb, digit_value hc]
  | case3 a b =>
    simp only [List.forall_mem_cons] at hdigits
    obtain ⟨ha, hb, -⟩ := hdigits
    have hva := value_lt a ha
    have hvb := value_lt b hb
    rw [Canonical] at h
    have hfirst : (value a * 4 + value b / 16) / 4 = value a := by omega
    have hsecond : (value a * 4 + value b / 16) % 4 * 16 = value b := by omega
    rw [bytes, digits, byte_toNat (by omega), hfirst, hsecond, digit_value ha, digit_value hb]
  | case4 a => cases h
  | case5 => rfl

theorem canonical_digits (bytes : List UInt8) : Canonical (digits bytes) := by
  induction bytes using digits.induct with
  | case1 => trivial
  | case2 a =>
    rw [digits, Canonical, value_digit (by omega)]
    omega
  | case3 a b =>
    rw [digits, Canonical, value_digit (by omega)]
    omega
  | case4 a b c rest ih => exact ih

/-- **The image of the encoding**, by number of bytes. -/
theorem exists_encode_iff {s : List Char} {n : Nat} :
    (∃ bytes : List UInt8, bytes.length = n ∧ digits bytes = s) ↔
      (∀ c ∈ s, isDigit c = true) ∧ Canonical s ∧ s.length * 3 / 4 = n := by
  constructor
  · rintro ⟨bytes, rfl, rfl⟩
    refine ⟨digits_alphabet bytes, canonical_digits bytes, ?_⟩
    rw [digits_length]
    omega
  · rintro ⟨hdigits, hcanonical, rfl⟩
    exact ⟨bytes s, bytes_length s, digits_bytes hdigits hcanonical⟩

/-- The characters whose two low bits are zero. -/
theorem value_mod_four {c : Char} (h : isDigit c = true) :
    value c % 4 = 0 ↔ c ∈ "AEIMQUYcgkosw048".toList := by
  have hall : (List.range 128).all (fun n => !isDigit (.ofNat n) ||
      decide (value (.ofNat n) % 4 = 0 ↔ Char.ofNat n ∈ "AEIMQUYcgkosw048".toList)) = true := by
    decide
  have hc := List.all_eq_true.mp hall c.toNat (List.mem_range.mpr (isDigit_ascii h))
  rw [Char.ofNat_toNat, h, Bool.not_true, Bool.false_or, decide_eq_true_eq] at hc
  exact hc

/-- With a last group of three characters only the last one matters. -/
theorem canonical_iff_last {s : List Char} (h : s.length % 4 = 3) :
    Canonical s ↔ ∃ c, s.getLast? = some c ∧ value c % 4 = 0 := by
  induction s using Canonical.induct with
  | case1 a b c d rest ih =>
    simp only [List.length_cons] at h
    have hlength : rest.length % 4 = 3 := by omega
    cases rest with
    | nil => cases hlength
    | cons e rest => simpa [Canonical] using ih hlength
  | case2 a b c => simp [Canonical]
  | case3 a b => cases h
  | case4 a => cases h
  | case5 => cases h

end Base64
