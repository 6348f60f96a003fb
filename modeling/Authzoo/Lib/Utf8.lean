import Authzoo.Lib.Ascii

/-!
# Lib.Utf8

The text of bytes that need not be UTF-8.

* `step` : one byte, with the sequence that is open. A byte that cannot continue the sequence ends
  it, and is read again on its own.
* `fromUtf8Lossy` : every piece that is no character, as long as it could have become one, is
  replaced by U+FFFD.
* `fromUtf8Lossy_bytes` : the bytes of a text are read back.
-/

namespace Utf8

def replacement : Char := '\uFFFD'

/-- An open sequence: its value so far, the range of its next byte and how many come after. -/
structure Sequence where
  value : Nat
  low : Nat
  high : Nat
  more : Nat

/-- A byte where no sequence is open. The ranges exclude overlong forms, surrogates and what is
beyond the last code point. -/
def lead (b : Nat) : List Char × Option Sequence :=
  if b < 0x80 then ([.ofNat b], none)
  else if 0xC2 ≤ b ∧ b ≤ 0xDF then ([], some ⟨b - 0xC0, 0x80, 0xBF, 0⟩)
  else if 0xE0 ≤ b ∧ b ≤ 0xEF then
    ([], some ⟨b - 0xE0, if b = 0xE0 then 0xA0 else 0x80, if b = 0xED then 0x9F else 0xBF, 1⟩)
  else if 0xF0 ≤ b ∧ b ≤ 0xF4 then
    ([], some ⟨b - 0xF0, if b = 0xF0 then 0x90 else 0x80, if b = 0xF4 then 0x8F else 0xBF, 2⟩)
  else ([replacement], none)

def step : Option Sequence → Nat → List Char × Option Sequence
  | none, b => lead b
  | some s, b =>
    if s.low ≤ b ∧ b ≤ s.high then
      let value := 64 * s.value + (b - 0x80)
      match s.more with
      | 0 => ([.ofNat value], none)
      | more + 1 => ([], some ⟨value, 0x80, 0xBF, more⟩)
    else (replacement :: (lead b).1, (lead b).2)

def chars : Option Sequence → List UInt8 → List Char
  | none, [] => []
  | some _, [] => [replacement]
  | s, b :: bytes => (step s b.toNat).1 ++ chars (step s b.toNat).2 bytes

def fromUtf8Lossy (bytes : List UInt8) : String := .ofList (chars none bytes)

/-! ## Whole characters -/

section

variable {rest : List UInt8} {s : Sequence} {b b0 b1 b2 b3 : UInt8} {n value low high more : Nat}

theorem chars_open (h : lead b.toNat = ([], some s)) :
    chars none (b :: rest) = chars (some s) rest := by
  rw [chars, step, h, List.nil_append]

theorem chars_more (hlow : low ≤ b.toNat) (hhigh : b.toNat ≤ high)
    (hn : n = 64 * value + (b.toNat - 0x80)) :
    chars (some ⟨value, low, high, more + 1⟩) (b :: rest) =
      chars (some ⟨n, 0x80, 0xBF, more⟩) rest := by
  rw [chars, step, if_pos ⟨hlow, hhigh⟩, hn]
  rfl

theorem chars_last (hlow : low ≤ b.toNat) (hhigh : b.toNat ≤ high)
    (hn : n = 64 * value + (b.toNat - 0x80)) :
    chars (some ⟨value, low, high, 0⟩) (b :: rest) = .ofNat n :: chars none rest := by
  rw [chars, step, if_pos ⟨hlow, hhigh⟩, hn]
  rfl

theorem chars_one (h : b0.toNat < 0x80) :
    chars none (b0 :: rest) = .ofNat b0.toNat :: chars none rest := by
  rw [chars, step, lead, if_pos h, List.singleton_append]

theorem chars_two (h0 : b0.toNat = n / 64 + 0xC0) (h1 : b1.toNat = n % 64 + 0x80)
    (hlow : 0x80 ≤ n) (hhigh : n < 0x800) :
    chars none (b0 :: b1 :: rest) = .ofNat n :: chars none rest := by
  have hlead : lead b0.toNat = ([], some ⟨n / 64, 0x80, 0xBF, 0⟩) := by
    rw [lead, if_neg (by omega), if_pos (by omega), h0, Nat.add_sub_cancel]
  rw [chars_open hlead]
  exact chars_last (by omega) (by omega) (by omega)

theorem chars_three (h0 : b0.toNat = n / 4096 + 0xE0) (h1 : b1.toNat = n / 64 % 64 + 0x80)
    (h2 : b2.toNat = n % 64 + 0x80) (hlow : 0x800 ≤ n) (hhigh : n < 0x10000)
    (hvalid : n < 0xD800 ∨ 0xDFFF < n) :
    chars none (b0 :: b1 :: b2 :: rest) = .ofNat n :: chars none rest := by
  have hvalue : b0.toNat - 0xE0 = n / 4096 := by omega
  have hlead : lead b0.toNat = ([], some ⟨n / 4096, if b0.toNat = 0xE0 then 0xA0 else 0x80,
      if b0.toNat = 0xED then 0x9F else 0xBF, 1⟩) := by
    rw [lead, if_neg (by omega), if_neg (by omega), if_pos (by omega), hvalue]
  -- the range of the second byte leaves out the overlong forms and the surrogates
  have hnext : (if b0.toNat = 0xE0 then 0xA0 else 0x80) ≤ b1.toNat ∧
      b1.toNat ≤ if b0.toNat = 0xED then 0x9F else 0xBF := by
    constructor <;> split <;> omega
  rw [chars_open hlead, chars_more (n := n / 64) hnext.1 hnext.2 (by omega)]
  exact chars_last (by omega) (by omega) (by omega)

theorem chars_four (h0 : b0.toNat = n / 262144 + 0xF0) (h1 : b1.toNat = n / 4096 % 64 + 0x80)
    (h2 : b2.toNat = n / 64 % 64 + 0x80) (h3 : b3.toNat = n % 64 + 0x80) (hlow : 0x10000 ≤ n)
    (hhigh : n < 0x110000) :
    chars none (b0 :: b1 :: b2 :: b3 :: rest) = .ofNat n :: chars none rest := by
  have hvalue : b0.toNat - 0xF0 = n / 262144 := by omega
  have hlead : lead b0.toNat = ([], some ⟨n / 262144, if b0.toNat = 0xF0 then 0x90 else 0x80,
      if b0.toNat = 0xF4 then 0x8F else 0xBF, 2⟩) := by
    rw [lead, if_neg (by omega), if_neg (by omega), if_neg (by omega), if_pos (by omega), hvalue]
  have hnext : (if b0.toNat = 0xF0 then 0x90 else 0x80) ≤ b1.toNat ∧
      b1.toNat ≤ if b0.toNat = 0xF4 then 0x8F else 0xBF := by
    constructor <;> split <;> omega
  rw [chars_open hlead, chars_more (n := n / 4096) hnext.1 hnext.2 (by omega),
    chars_more (n := n / 64) (by omega) (by omega) (by omega)]
  exact chars_last (by omega) (by omega) (by omega)

end

/-- One encoded character is read back, one case for each length. -/
theorem chars_encode (c : Char) (rest : List UInt8) :
    chars none (String.utf8EncodeChar c ++ rest) = c :: chars none rest := by
  have hvalid : c.val.toNat < 0xD800 ∨ 0xDFFF < c.val.toNat ∧ c.val.toNat < 0x110000 := c.valid
  have hc : Char.ofNat c.val.toNat = c := Char.ofNat_toNat c
  unfold String.utf8EncodeChar
  generalize c.val.toNat = v at hvalid hc
  subst hc
  dsimp only
  split
  · have h0 : (UInt8.ofNat v).toNat = v := by
      rw [UInt8.toNat_ofNat']
      omega
    rw [List.singleton_append, chars_one (by omega), h0]
  · split
    · exact chars_two (by rw [UInt8.toNat_ofNat']; omega) (by rw [UInt8.toNat_ofNat']; omega)
        (by omega) (by omega)
    · split
      · exact chars_three (by rw [UInt8.toNat_ofNat']; omega) (by rw [UInt8.toNat_ofNat']; omega)
          (by rw [UInt8.toNat_ofNat']; omega) (by omega) (by omega) (by omega)
      · exact chars_four (by rw [UInt8.toNat_ofNat']; omega) (by rw [UInt8.toNat_ofNat']; omega)
          (by rw [UInt8.toNat_ofNat']; omega) (by rw [UInt8.toNat_ofNat']; omega) (by omega)
          (by omega)

/-- The bytes of a text are read back. -/
theorem fromUtf8Lossy_bytes (s : String) : fromUtf8Lossy (Ascii.bytes s) = s := by
  have hchars : ∀ cs : List Char, chars none (cs.flatMap String.utf8EncodeChar) = cs := by
    intro cs
    induction cs with
    | nil => rfl
    | cons c cs ih => rw [List.flatMap_cons, chars_encode, ih]
  rw [fromUtf8Lossy, Ascii.bytes_eq, hchars, String.ofList_toList]

/-- A piece that breaks off, and bytes that begin nothing. -/
example : fromUtf8Lossy [0xE2, 0x82, 0x41, 0xC0, 0x80] = "\uFFFDA\uFFFD\uFFFD" := by decide

end Utf8
