import Mathlib.Algebra.Order.Ring.Nat
import Mathlib.Data.List.Basic

/-!
# Octet strings and fixed-width big-endian numbers

Wire formats are octet strings in which numbers occupy a fixed number of octets, most significant
first. The encoding and its inverse are total; the round trip is exact for numbers that fit.
-/

namespace Foundation

/-- An octet string. -/
abbrev Bytes := List UInt8

/-- A run of zero octets. -/
def zeros (n : ℕ) : Bytes := List.replicate n 0

@[simp] theorem zeros_length (n : ℕ) : (zeros n).length = n := List.length_replicate

theorem xor_xor_cancel (a b : UInt8) : (a ^^^ b) ^^^ b = a := by
  rw [UInt8.xor_assoc, UInt8.xor_self, UInt8.xor_zero]

/-- Facts about every octet are found out by going through all of them. -/
theorem forall_octet (P : UInt8 → Prop) (h : ∀ n < 256, P (UInt8.ofNat n)) (octet : UInt8) :
    P octet := by
  have hoctet := h octet.toNat octet.toNat_lt
  rwa [UInt8.ofNat_toNat] at hoctet

/-- The text of a C string: the octets before the first null octet. -/
def cString (octets : Bytes) : Bytes := octets.takeWhile (· ≠ 0)

/-- The largest `size_t`. -/
abbrev sizeMax : ℕ := 2 ^ 64 - 1

/-- A number as a `size_t`. -/
def toSize (n : ℕ) : ℕ := n % 2 ^ 64

/-- The `w` low-order octets of a number, most significant first. -/
def toBE : ℕ → ℕ → Bytes
  | 0, _ => []
  | w + 1, n => UInt8.ofNat (n / 256 ^ w) :: toBE w n

/-- The number an octet string denotes, most significant octet first. -/
def ofBE : Bytes → ℕ
  | [] => 0
  | o :: b => o.toNat * 256 ^ b.length + ofBE b

@[simp] theorem toBE_length (w n : ℕ) : (toBE w n).length = w := by
  induction w with
  | zero => rfl
  | succ w ih => simp [toBE, ih]

/-- Reading back an encoded number recovers its low-order octets. -/
theorem ofBE_toBE_mod (w n : ℕ) : ofBE (toBE w n) = n % 256 ^ w := by
  induction w with
  | zero => simp [toBE, ofBE, Nat.mod_one]
  | succ w ih =>
    have hbyte : (UInt8.ofNat (n / 256 ^ w)).toNat = n / 256 ^ w % 256 := UInt8.toNat_ofNat'
    rw [toBE, ofBE, toBE_length, ih, hbyte, Nat.pow_succ, Nat.mod_mul, Nat.mul_comm, Nat.add_comm]

/-- Only the low octets of a number are written. -/
theorem toBE_mod (w n : ℕ) : toBE w (n % 256 ^ w) = toBE w n := by
  induction w generalizing n with
  | zero => rfl
  | succ w ih =>
    have htail : n % 256 ^ (w + 1) % 256 ^ w = n % 256 ^ w :=
      Nat.mod_mod_of_dvd n (pow_dvd_pow 256 (Nat.le_succ w))
    have hhead : n % 256 ^ (w + 1) / 256 ^ w = n / 256 ^ w % 256 := by
      rw [pow_succ, Nat.mod_mul_right_div_self]
    rw [toBE, toBE, ← ih (n % 256 ^ (w + 1)), htail, ih, hhead, UInt8.ofNat_mod_size]

/-- A number that fits is recovered exactly. -/
theorem ofBE_toBE {w n : ℕ} (h : n < 256 ^ w) : ofBE (toBE w n) = n := by
  rw [ofBE_toBE_mod, Nat.mod_eq_of_lt h]

/-- Distinct numbers that fit have distinct encodings. -/
theorem toBE_inj {w m n : ℕ} (hm : m < 256 ^ w) (hn : n < 256 ^ w) :
    toBE w m = toBE w n ↔ m = n := by
  constructor
  · intro h
    rw [← ofBE_toBE hm, h, ofBE_toBE hn]
  · rintro rfl
    rfl

/-- Replace the octets from an offset on by others, leaving the rest of the string. -/
def overwrite (b : Bytes) (off : ℕ) (src : Bytes) : Bytes :=
  b.take off ++ src ++ b.drop (off + src.length)

/-- Overwriting the octets between two parts replaces exactly those octets. -/
theorem overwrite_append {a b c d : Bytes} (h : d.length = b.length) :
    overwrite (a ++ b ++ c) a.length d = a ++ d ++ c := by
  simp [overwrite, h]

/-- Overwriting within bounds keeps the length. -/
theorem overwrite_length {b src : Bytes} {off : ℕ} (h : off + src.length ≤ b.length) :
    (overwrite b off src).length = b.length := by
  simp only [overwrite, List.length_append, List.length_take, List.length_drop]
  omega

/-- Overwriting keeps the octets before it. -/
theorem overwrite_take {b src : Bytes} {off n : ℕ} (hn : n ≤ off) (hoff : off ≤ b.length) :
    (overwrite b off src).take n = b.take n := by
  have hlength : (b.take off).length = off := by
    rw [List.length_take, Nat.min_eq_left hoff]
  rw [overwrite, List.append_assoc, List.take_append_of_le_length (by omega), List.take_take,
    Nat.min_eq_left hn]

end Foundation
