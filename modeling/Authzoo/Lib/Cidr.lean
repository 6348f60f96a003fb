import Mathlib.Tactic.Linarith

/-!
# Lib.Cidr

Address blocks: the addresses of `w` bits that share their first `len` bits with a base.

* `agree_high`, `agree_low` : membership of an address that is put together from digits (octets,
  segments) is decided by the digit in which the prefix ends.
* `Block.mono` : a block lies in every shorter block that holds its base.
* `and_netmask` : the bits a netmask keeps.
-/

namespace Cidr

/-- Equality above the lowest `j` bits. -/
def Agree (j a b : Nat) : Prop := a / 2 ^ j = b / 2 ^ j

instance (j a b : Nat) : Decidable (Agree j a b) := inferInstanceAs (Decidable (_ = _))

theorem Agree.trans {j a b c : Nat} (h : Agree j a b) (h' : Agree j b c) : Agree j a c :=
  Eq.trans h h'

theorem Agree.mono {j k a b : Nat} (hle : j ≤ k) (h : Agree j a b) : Agree k a b := by
  unfold Agree at h ⊢
  rw [← Nat.sub_add_cancel hle, Nat.add_comm, pow_add, ← Nat.div_div_eq_div_mul,
    ← Nat.div_div_eq_div_mul, h]

/-- The prefix ends in the high digit. -/
theorem agree_high {j k x y u v : Nat} (hle : k ≤ j) (hy : y < 2 ^ k) (hv : v < 2 ^ k) :
    Agree j (x * 2 ^ k + y) (u * 2 ^ k + v) ↔ Agree (j - k) x u := by
  have hdiv : ∀ {z low : Nat}, low < 2 ^ k → (z * 2 ^ k + low) / 2 ^ j = z / 2 ^ (j - k) := by
    intro z low hlow
    rw [show j = k + (j - k) by omega, pow_add, ← Nat.div_div_eq_div_mul, Nat.mul_comm z,
      Nat.mul_add_div (Nat.two_pow_pos k), Nat.div_eq_of_lt hlow]
    simp
  unfold Agree
  rw [hdiv hy, hdiv hv]

/-- The prefix ends in the low digit. -/
theorem agree_low {j k x y u v : Nat} (hle : j ≤ k) (hy : y < 2 ^ k) (hv : v < 2 ^ k) :
    Agree j (x * 2 ^ k + y) (u * 2 ^ k + v) ↔ x = u ∧ Agree j y v := by
  constructor
  · intro h
    have hhigh := h.mono hle
    rw [agree_high (Nat.le_refl k) hy hv] at hhigh
    have hx : x = u := by simpa [Agree] using hhigh
    refine ⟨hx, ?_⟩
    subst hx
    unfold Agree at h ⊢
    rw [← Nat.sub_add_cancel hle, pow_add, ← Nat.mul_assoc, Nat.mul_comm _ (2 ^ j),
      Nat.mul_add_div (Nat.two_pow_pos j), Nat.mul_add_div (Nat.two_pow_pos j)] at h
    omega
  · rintro ⟨rfl, h⟩
    unfold Agree at h ⊢
    rw [← Nat.sub_add_cancel hle, pow_add, ← Nat.mul_assoc, Nat.mul_comm _ (2 ^ j),
      Nat.mul_add_div (Nat.two_pow_pos j), Nat.mul_add_div (Nat.two_pow_pos j), h]

/-- A block of `w`-bit addresses. -/
structure Block (w : Nat) where
  base : Nat
  len : Nat
  base_lt : base < 2 ^ w
  len_le : len ≤ w

namespace Block

variable {w : Nat}

def Contains (b : Block w) (addr : Nat) : Prop := Agree (w - b.len) addr b.base

instance (b : Block w) (addr : Nat) : Decidable (b.Contains addr) :=
  inferInstanceAs (Decidable (Agree _ _ _))

theorem mono {b c : Block w} {addr : Nat} (hlen : c.len ≤ b.len) (hbase : c.Contains b.base)
    (h : b.Contains addr) : c.Contains addr :=
  (Agree.mono (Nat.sub_le_sub_left hlen w) h).trans hbase

end Block

/-- Masking with `len` one bits out of `w` keeps what `Agree` compares. -/
theorem and_netmask {w j x : Nat} (hle : j ≤ w) (hx : x < 2 ^ w) :
    x &&& (2 ^ w - 2 ^ j) = x / 2 ^ j * 2 ^ j := by
  have hmask : 2 ^ w - 2 ^ j = (2 ^ (w - j) - 1) * 2 ^ j := by
    rw [Nat.sub_mul, ← pow_add, Nat.sub_add_cancel hle, Nat.one_mul]
  refine Nat.eq_of_testBit_eq fun i => ?_
  rw [Nat.testBit_and, hmask]
  simp only [Nat.testBit_mul_two_pow, Nat.testBit_two_pow_sub_one, Nat.testBit_div_two_pow]
  cases Nat.lt_or_ge i j with
  | inl hlow => simp [Nat.not_le.mpr hlow]
  | inr hkept =>
    rw [Nat.sub_add_cancel hkept]
    cases Nat.lt_or_ge i w with
    | inl hinside => simp [hkept, show i - j < w - j by omega]
    | inr houtside =>
      have hzero : x.testBit i = false :=
        Nat.testBit_lt_two_pow (hx.trans_le (Nat.pow_le_pow_right Nat.two_pos houtside))
      simp [hzero]

end Cidr
