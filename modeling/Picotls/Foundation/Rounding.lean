import Mathlib.Algebra.Order.Ring.Nat
import Mathlib.Data.Nat.Log

/-!
# Rounding to a number of significant bits

A number format with significands of fixed size represents the numbers that have no more bits than
that between their first and their last one. Other numbers are rounded to the nearest one that is
represented, and to the one with an even significand if there are two. Rounding keeps the order and
does not leave the interval between two powers of two.
-/

namespace Foundation

/-- The number of bits that a number has beyond `p` significant ones. -/
def excessBits (p n : ℕ) : ℕ := n.log2 + 1 - p

/-- A number divided by a power of two, rounded to the nearest number and to an even one between
two. -/
def roundShift (e n : ℕ) : ℕ :=
  if 2 ^ e < 2 * (n % 2 ^ e) ∨ 2 ^ e = 2 * (n % 2 ^ e) ∧ n / 2 ^ e % 2 = 1 then n / 2 ^ e + 1
  else n / 2 ^ e

/-- A number rounded to `p` significant bits. -/
def roundToBits (p n : ℕ) : ℕ := roundShift (excessBits p n) n * 2 ^ excessBits p n

theorem div_le_roundShift (e n : ℕ) : n / 2 ^ e ≤ roundShift e n := by
  unfold roundShift
  split <;> omega

theorem roundShift_le (e n : ℕ) : roundShift e n ≤ n / 2 ^ e + 1 := by
  unfold roundShift
  split <;> omega

/-- Rounding at a fixed place keeps the order. -/
theorem roundShift_mono (e : ℕ) {m n : ℕ} (h : m ≤ n) : roundShift e m ≤ roundShift e n := by
  rcases (Nat.div_le_div_right (c := 2 ^ e) h).lt_or_eq with hlt | heq
  · exact (roundShift_le e m).trans (hlt.trans_le (div_le_roundShift e n))
  · have hmod : m % 2 ^ e ≤ n % 2 ^ e := by
      have hm := Nat.div_add_mod m (2 ^ e)
      have hn := Nat.div_add_mod n (2 ^ e)
      rw [heq] at hm
      omega
    unfold roundShift
    rw [heq]
    split <;> split <;> omega

section

variable {p n : ℕ} (hp : 0 < p)

include hp

theorem excessBits_le (n : ℕ) : excessBits p n ≤ n.log2 := by
  unfold excessBits
  omega

variable (hn : n ≠ 0)

include hn

/-- A rounded number is not below the power of two below it. -/
theorem two_pow_log2_le_roundToBits : 2 ^ n.log2 ≤ roundToBits p n := by
  have hpow : 2 ^ n.log2 = 2 ^ (n.log2 - excessBits p n) * 2 ^ excessBits p n := by
    rw [← pow_add, Nat.sub_add_cancel (excessBits_le hp n)]
  have hdiv : 2 ^ (n.log2 - excessBits p n) ≤ n / 2 ^ excessBits p n := by
    rw [Nat.le_div_iff_mul_le (Nat.two_pow_pos _), ← hpow]
    exact Nat.log2_self_le hn
  rw [hpow]
  exact Nat.mul_le_mul_right _ (hdiv.trans (div_le_roundShift _ n))

omit hn in
/-- A rounded number is not above the next power of two. -/
theorem roundToBits_le_two_pow (n : ℕ) : roundToBits p n ≤ 2 ^ (n.log2 + 1) := by
  have hle := excessBits_le hp n
  have hpow : 2 ^ (n.log2 + 1) = 2 ^ (n.log2 + 1 - excessBits p n) * 2 ^ excessBits p n := by
    rw [← pow_add, Nat.sub_add_cancel (by omega)]
  have hdiv : n / 2 ^ excessBits p n < 2 ^ (n.log2 + 1 - excessBits p n) := by
    rw [Nat.div_lt_iff_lt_mul (Nat.two_pow_pos _), ← hpow]
    exact Nat.lt_log2_self
  rw [hpow]
  exact Nat.mul_le_mul_right _ ((roundShift_le _ n).trans hdiv)

end

/-- Rounding keeps the order. -/
theorem roundToBits_mono {p : ℕ} (hp : 0 < p) {m n : ℕ} (h : m ≤ n) :
    roundToBits p m ≤ roundToBits p n := by
  rcases Nat.eq_zero_or_pos m with rfl | hm
  · simp [roundToBits, roundShift]
  · have hlog : m.log2 ≤ n.log2 := by
      rw [Nat.le_log2 (by omega)]
      exact (Nat.log2_self_le hm.ne').trans h
    rcases hlog.lt_or_eq with hlt | heq
    · calc roundToBits p m ≤ 2 ^ (m.log2 + 1) := roundToBits_le_two_pow hp m
        _ ≤ 2 ^ n.log2 := Nat.pow_le_pow_right (by decide) hlt
        _ ≤ roundToBits p n := two_pow_log2_le_roundToBits hp (by omega)
    · have hexcess : excessBits p m = excessBits p n := by rw [excessBits, excessBits, heq]
      rw [roundToBits, roundToBits, hexcess]
      exact Nat.mul_le_mul_right _ (roundShift_mono _ h)

end Foundation
