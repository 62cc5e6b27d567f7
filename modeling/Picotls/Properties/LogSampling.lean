import Picotls.Log.Slots
import Mathlib.Algebra.Order.Field.Basic

/-!
# The sample of connections that a slot takes

The number of a connection is meant to be below one. The numbers of 32 bits that are nearest to
2 ^ 32 in single precision become one, so that a slot with a ratio of one does not take every
connection. For all others the ratio works as it is meant to.
-/

namespace Picotls.Log

open Foundation

/-- A slot takes a connection with a number that was drawn. -/
def Takes (slot : Slot) (r : UInt32) (address : Bytes) (sni : Option Bytes) : Prop :=
  ∀ (generation : UInt64) (conns : Fin 32 → Option Slot) (i : Fin 32), generation ≠ 0 →
    conns i = some slot →
      (ptlsLogRecalcConn generation conns sni (ptlsLogInitConnState r address)).activeConns i

/-- A slot takes the name and the address of a connection. -/
def Slot.Admits (slot : Slot) (address : Bytes) (sni : Option Bytes) : Prop :=
  isInStringlist slot.snis sni ∧ isInAddresslist slot.addresses address

theorem takes_iff (slot : Slot) (r : UInt32) (address : Bytes) (sni : Option Bytes) :
    Takes slot r address sni ↔ sampleNumber r < slot.sampleRatio ∧ slot.Admits address sni := by
  have hactive {generation : UInt64} {conns : Fin 32 → Option Slot} {i : Fin 32}
      (hgeneration : generation ≠ 0) (hslot : conns i = some slot) :
      (ptlsLogRecalcConn generation conns sni (ptlsLogInitConnState r address)).activeConns i ↔
        sampleNumber r < slot.sampleRatio ∧ slot.Admits address sni := by
    have hchanged : (ptlsLogInitConnState r address).generation ≠ generation := hgeneration.symm
    rw [ptlsLogRecalcConn, if_pos hchanged]
    simp only [hslot, Option.any_some, Slot.takes, Slot.Admits, ptlsLogInitConnState,
      Bool.and_eq_true, and_assoc]
    exact and_congr_left' decide_eq_true_iff
  constructor
  · intro h
    exact (hactive (by decide) rfl).mp (h 1 (fun _ => some slot) 0 (by decide) rfl)
  · intro h generation conns i hgeneration hslot
    exact (hactive hgeneration hslot).mpr h

/-- What the number of a connection is meant to do: it lies between zero and one and grows with what
was drawn; slots with a ratio of one take every connection that they admit, slots with a ratio of
zero none, and a slot with a greater ratio takes what a slot with a smaller one takes. -/
structure SamplesAsMeant (r : UInt32) : Prop where
  nonneg : 0 ≤ sampleNumber r
  lt_one : sampleNumber r < 1
  mono : ∀ r', r ≤ r' → sampleNumber r ≤ sampleNumber r'
  takes_one : ∀ slot address sni, slot.sampleRatio = 1 → slot.Admits address sni →
    Takes slot r address sni
  not_takes_zero : ∀ slot address sni, slot.sampleRatio = 0 → ¬ Takes slot r address sni
  takes_of_le : ∀ slot address sni ratio, slot.sampleRatio ≤ ratio → Takes slot r address sni →
    Takes { slot with sampleRatio := ratio } r address sni

theorem sampleNumber_nonneg (r : UInt32) : 0 ≤ sampleNumber r :=
  div_nonneg (Nat.cast_nonneg _) (by norm_num)

theorem sampleNumber_mono {r r' : UInt32} (h : r ≤ r') : sampleNumber r ≤ sampleNumber r' := by
  have hround := roundToBits_mono (by decide : 0 < floatBits) (UInt32.le_iff_toNat_le.mp h)
  exact div_le_div_of_nonneg_right (Nat.cast_le.mpr hround) (by norm_num)

/-- The numbers that are nearest to 2 ^ 32 are rounded to it. -/
theorem sampleNumber_lt_one_iff (r : UInt32) : sampleNumber r < 1 ↔ r.toNat < 2 ^ 32 - 128 := by
  have hone : sampleNumber r < 1 ↔ roundToBits floatBits r.toNat < 2 ^ 32 := by
    rw [sampleNumber, div_lt_one (by norm_num)]
    exact_mod_cast Iff.rfl
  rw [hone]
  constructor
  · intro h
    by_contra hge
    have hround := roundToBits_mono (by decide : 0 < floatBits) (not_lt.mp hge)
    have hlast : roundToBits floatBits (2 ^ 32 - 128) = 2 ^ 32 := by decide +kernel
    omega
  · intro h
    have hround := roundToBits_mono (by decide : 0 < floatBits)
      (by omega : r.toNat ≤ 2 ^ 32 - 129)
    have hlast : roundToBits floatBits (2 ^ 32 - 129) = 2 ^ 32 - 256 := by decide +kernel
    omega

/-- The number of a connection does what it is meant to do exactly if what was drawn is not among
the 128 greatest numbers. -/
theorem log_sampling_iff (r : UInt32) : SamplesAsMeant r ↔ r.toNat < 2 ^ 32 - 128 := by
  constructor
  · intro h
    exact (sampleNumber_lt_one_iff r).mp h.lt_one
  · intro h
    have hone := (sampleNumber_lt_one_iff r).mpr h
    refine ⟨sampleNumber_nonneg r, hone, fun r' hle => sampleNumber_mono hle, ?_, ?_, ?_⟩
    · intro slot address sni hratio hadmits
      rw [takes_iff, hratio]
      exact ⟨hone, hadmits⟩
    · intro slot address sni hratio htakes
      rw [takes_iff, hratio] at htakes
      exact not_lt.mpr (sampleNumber_nonneg r) htakes.1
    · intro slot address sni ratio hle htakes
      rw [takes_iff] at htakes ⊢
      exact ⟨htakes.1.trans_le hle, htakes.2⟩

/-- The greatest number becomes one, which no ratio exceeds. -/
theorem log_sampling_greatest : sampleNumber 0xffffffff = 1 ∧
    ¬ Takes ⟨[], [], 1⟩ 0xffffffff in6addrAny none := by
  have hround : roundToBits floatBits (0xffffffff : UInt32).toNat = 2 ^ 32 := by decide +kernel
  have hone : sampleNumber 0xffffffff = 1 := by
    rw [sampleNumber, hround]
    norm_num
  refine ⟨hone, ?_⟩
  rw [takes_iff, hone]
  exact fun h => lt_irrefl _ h.1

end Picotls.Log
