import Authzoo.Lib.Text
import Authzoo.Lib.Utf8
import Authzoo.Lib.Words

/-!
# Lib.FormUrlencoded

`application/x-www-form-urlencoded`: names and values in a query.

* `parse` : the decoded pairs of a query.
* `appendPair` : a query with one more pair.
* `decode_encode` : a text that is written and read is the same, whatever it is.
* `parse_appendPair` : a pair that is appended is read after the pairs that were there, and changes
  none of them.
* `mem_encode` : what a text is written with.
-/

namespace FormUrlencoded

/-! ## Writing -/

/-- The characters that are written as they are. -/
def isUnchanged (c : Char) : Bool := c.isAlphanum || c = '*' || c = '-' || c = '.' || c = '_'

def hexDigit (n : Nat) : Char := if n < 10 then .ofNat (48 + n) else .ofNat (55 + n)

def encodeByte (b : UInt8) : List Char :=
  if isUnchanged (.ofNat b.toNat) then [.ofNat b.toNat]
  else if b = 32 then ['+']
  else ['%', hexDigit (b.toNat / 16), hexDigit (b.toNat % 16)]

def encode (s : String) : List Char := (Ascii.bytes s).flatMap encodeByte

def appendPair (query name value : String) : String :=
  query ++ (if query = "" then "" else "&") ++ .ofList (encode name ++ '=' :: encode value)

/-! ## Reading -/

def hexValue (b : UInt8) : Option Nat :=
  if 48 ≤ b.toNat ∧ b.toNat ≤ 57 then some (b.toNat - 48)
  else if 65 ≤ b.toNat ∧ b.toNat ≤ 70 then some (b.toNat - 55)
  else if 97 ≤ b.toNat ∧ b.toNat ≤ 102 then some (b.toNat - 87)
  else none

/-- The byte that `%` and two hexadecimal digits stand for. -/
def escaped (b high low : UInt8) : Option UInt8 :=
  if b = 37 then
    match hexValue high, hexValue low with
    | some high, some low => some (.ofNat (16 * high + low))
    | _, _ => none
  else none

/-- A `%` without two digits behind it stays. -/
def percentDecode : List UInt8 → List UInt8
  | b :: high :: low :: rest =>
    match escaped b high low with
    | some byte => byte :: percentDecode rest
    | none => b :: percentDecode (high :: low :: rest)
  | rest => rest

def replacePlus (b : UInt8) : UInt8 := if b = 43 then 32 else b

def decodeBytes (input : List UInt8) : List UInt8 := percentDecode (input.map replacePlus)

def decode (input : List UInt8) : String := Utf8.fromUtf8Lossy (decodeBytes input)

/-- Name and value stand around the first `=`. -/
def pair (sequence : List UInt8) : String × String :=
  (decode (sequence.takeWhile (· ≠ 61)), decode ((sequence.dropWhile (· ≠ 61)).drop 1))

/-- The pairs between `&`, without empty ones. -/
def parse (input : List UInt8) : List (String × String) := (Words.words 38 input).map pair

/-! ## What is written -/

/-- The characters of an encoded text. -/
def isWritten (c : Char) : Bool := isUnchanged c || c = '+' || c = '%'

/-- The byte of an ASCII character. -/
def byte (c : Char) : UInt8 := .ofNat c.toNat

theorem isUnchanged_range {c : Char} (h : isUnchanged c = true) :
    0x21 ≤ c.toNat ∧ c.toNat ≤ 0x7E ∧ c.toNat ≠ 37 ∧ c.toNat ≠ 43 := by
  simp only [isUnchanged, Bool.or_eq_true, decide_eq_true_eq, Ascii.isAlphanum_iff] at h
  obtain (((h | rfl) | rfl) | rfl) | rfl := h
  · omega
  all_goals decide

theorem hexDigit_written : ∀ n < 16, isUnchanged (hexDigit n) = true := by decide

theorem hexValue_hexDigit : ∀ n < 16, hexValue (byte (hexDigit n)) = some n := by decide

theorem mem_encodeByte {b : UInt8} {c : Char} (hc : c ∈ encodeByte b) : isWritten c = true := by
  have hb : b.toNat < 256 := b.toNat_lt
  unfold encodeByte at hc
  split at hc
  · rename_i hsame
    obtain rfl := List.mem_singleton.mp hc
    simp [isWritten, hsame]
  · split at hc
    · obtain rfl := List.mem_singleton.mp hc
      decide
    · simp only [List.mem_cons, List.not_mem_nil, or_false] at hc
      obtain rfl | rfl | rfl := hc
      · decide
      · simp [isWritten, hexDigit_written (b.toNat / 16) (by omega)]
      · simp [isWritten, hexDigit_written (b.toNat % 16) (by omega)]

theorem mem_encode {s : String} {c : Char} (hc : c ∈ encode s) : isWritten c = true := by
  obtain ⟨b, -, hb⟩ := List.mem_flatMap.mp hc
  exact mem_encodeByte hb

theorem isWritten_range {c : Char} (h : isWritten c = true) : 0x21 ≤ c.toNat ∧ c.toNat ≤ 0x7E := by
  simp only [isWritten, Bool.or_eq_true, decide_eq_true_eq] at h
  obtain (h | rfl) | rfl := h
  · obtain ⟨hlow, hhigh, -⟩ := isUnchanged_range h
    exact ⟨hlow, hhigh⟩
  · decide
  · decide

theorem isWritten_lt {c : Char} (h : isWritten c = true) : c.toNat < 128 := by
  have hrange := isWritten_range h
  omega

theorem byte_toNat {c : Char} (h : c.toNat < 128) : (byte c).toNat = c.toNat := by
  rw [byte, UInt8.toNat_ofNat']
  omega

/-- An encoded text has neither of the two separators. -/
theorem byte_ne {c d : Char} (h : isWritten c = true) (hd : isWritten d = false)
    (hlt : d.toNat < 128) : byte c ≠ byte d := by
  intro heq
  have hval := congrArg UInt8.toNat heq
  rw [byte_toNat (isWritten_lt h), byte_toNat hlt] at hval
  exact Text.ne_of_test h hd (Char.toNat_inj.mp hval)

/-! ## Reading what is written -/

theorem percentDecode_plain {b : UInt8} (h : b ≠ 37) (rest : List UInt8) :
    percentDecode (b :: rest) = b :: percentDecode rest := by
  cases rest with
  | nil => rfl
  | cons high rest =>
    cases rest with
    | nil => rfl
    | cons low rest => rw [percentDecode, escaped, if_neg h]

theorem percentDecode_escaped {high low : UInt8} {x y : Nat} (hx : hexValue high = some x)
    (hy : hexValue low = some y) (rest : List UInt8) :
    percentDecode (37 :: high :: low :: rest) = .ofNat (16 * x + y) :: percentDecode rest := by
  rw [percentDecode, escaped, if_pos rfl, hx, hy]

theorem byte_ofNat (b : UInt8) : byte (.ofNat b.toNat) = b := by
  rw [byte, Ascii.toNat_ofNat, UInt8.ofNat_toNat]

theorem replacePlus_byte {c : Char} (h : isUnchanged c = true) :
    replacePlus (byte c) = byte c ∧ byte c ≠ 37 := by
  obtain ⟨-, hhigh, hpercent, hplus⟩ := isUnchanged_range h
  have hval := byte_toNat (c := c) (by omega)
  refine ⟨if_neg fun heq => hplus ?_, fun heq => hpercent ?_⟩
  · rw [← hval, heq]
    rfl
  · rw [← hval, heq]
    rfl

/-- One byte that is written is read back, in each of the three ways of writing it. -/
theorem decodeBytes_encodeByte (b : UInt8) (rest : List UInt8) :
    decodeBytes ((encodeByte b).map byte ++ rest) = b :: decodeBytes rest := by
  have hb : b.toNat < 256 := b.toNat_lt
  unfold encodeByte
  split
  · rename_i hsame
    obtain ⟨hplus, hpercent⟩ := replacePlus_byte hsame
    rw [byte_ofNat] at hplus hpercent
    rw [List.map_singleton, byte_ofNat, List.singleton_append, decodeBytes, List.map_cons, hplus,
      percentDecode_plain hpercent]
    rfl
  · split
    · rename_i hspace
      subst hspace
      exact percentDecode_plain (by decide) _
    · have hhigh : b.toNat / 16 < 16 := by omega
      have hlow : b.toNat % 16 < 16 := Nat.mod_lt _ (by decide)
      have hvalue : UInt8.ofNat (16 * (b.toNat / 16) + b.toNat % 16) = b := by
        rw [Nat.div_add_mod, UInt8.ofNat_toNat]
      simp only [List.map_cons, List.map_nil, List.cons_append, List.nil_append, decodeBytes,
        (replacePlus_byte (hexDigit_written _ hhigh)).1,
        (replacePlus_byte (hexDigit_written _ hlow)).1]
      exact (percentDecode_escaped (hexValue_hexDigit _ hhigh) (hexValue_hexDigit _ hlow) _).trans
        (by rw [hvalue])

/-- **A text survives.** What is written for it is read back as the same text. -/
theorem decode_encode (s : String) : decode ((encode s).map byte) = s := by
  have hbytes : ∀ bs : List UInt8, decodeBytes ((bs.flatMap encodeByte).map byte) = bs := by
    intro bs
    induction bs with
    | nil => rfl
    | cons b bs ih => rw [List.flatMap_cons, List.map_append, decodeBytes_encodeByte, ih]
  rw [decode, encode, hbytes, Utf8.fromUtf8Lossy_bytes]

theorem not_mem_encode {s : String} {d : Char} (hd : isWritten d = false) (hlt : d.toNat < 128) :
    byte d ∉ (encode s).map byte := by
  intro hin
  obtain ⟨c, hc, heq⟩ := List.mem_map.mp hin
  exact byte_ne (mem_encode hc) hd hlt heq

/-- The bytes of a pair as it is written. -/
theorem bytes_pair (name value : String) :
    Ascii.bytes (.ofList (encode name ++ '=' :: encode value)) =
      (encode name).map byte ++ 61 :: (encode value).map byte := by
  have hascii : ∀ c ∈ (String.ofList (encode name ++ '=' :: encode value)).toList,
      c.toNat < 128 := by
    intro c hc
    rw [String.toList_ofList, List.mem_append, List.mem_cons] at hc
    obtain hc | rfl | hc := hc
    · exact isWritten_lt (mem_encode hc)
    · decide
    · exact isWritten_lt (mem_encode hc)
  rw [Ascii.bytes_ascii hascii, String.toList_ofList, List.map_append, List.map_cons]
  rfl

theorem pair_written (name value : String) :
    pair ((encode name).map byte ++ 61 :: (encode value).map byte) = (name, value) := by
  have hequals : (61 : UInt8) ∉ (encode name).map byte :=
    not_mem_encode (d := '=') (by decide) (by decide)
  have hname : ∀ b ∈ (encode name).map byte, decide (b ≠ 61) = true := fun b hb =>
    decide_eq_true fun heq => hequals (heq ▸ hb)
  obtain ⟨htake, hdrop⟩ := Text.takeWhile_append hname (t := 61 :: (encode value).map byte)
    fun b hb => by
      obtain rfl := Option.some.inj hb
      decide
  rw [pair, htake, hdrop, List.drop_one, List.tail_cons, decode_encode, decode_encode]

/-- **A pair is added.** The pairs of a query with one more are its pairs and the new one, whatever
they are. -/
theorem parse_appendPair (query name value : String) :
    parse (Ascii.bytes (appendPair query name value)) =
      parse (Ascii.bytes query) ++ [(name, value)] := by
  have hsep : (38 : UInt8) ∉ (encode name).map byte ++ 61 :: (encode value).map byte := by
    rw [List.mem_append, List.mem_cons, not_or, not_or]
    exact ⟨not_mem_encode (d := '&') (by decide) (by decide), by decide,
      not_mem_encode (d := '&') (by decide) (by decide)⟩
  have hpair : parse ((encode name).map byte ++ 61 :: (encode value).map byte) =
      [(name, value)] := by
    rw [parse, Words.words_single (by simp) hsep, List.map_singleton, pair_written]
  by_cases hempty : query = ""
  · subst hempty
    rw [appendPair, if_pos rfl, String.append_empty, String.empty_append, bytes_pair, hpair]
    rfl
  · rw [appendPair, if_neg hempty, Ascii.bytes_append, Ascii.bytes_append, bytes_pair, ← hpair,
      List.append_assoc]
    exact (congrArg (List.map pair) (Words.words_append_sep _ _)).trans List.map_append

end FormUrlencoded
