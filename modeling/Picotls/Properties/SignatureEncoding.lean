import Picotls.Buffers.Asn1
import Picotls.Foundation.Blocks
import Picotls.Properties.NestedBlocks
import Mathlib.Data.List.TakeWhile

/-!
# The encoding of ECDSA signatures

A big number is written as the shortest INTEGER of DER with its value, if it is not zero. Of a zero
the code looks at the octet behind the number to decide whether a zero has to go in front of it. A
signature with two numbers that are not zero is a SEQUENCE from which they are read back.
-/

namespace Picotls.Buffers

open Foundation Procedure

variable {bignum content : Bytes}

/-! ## What is written -/

/-- A procedure appends octets to what was written before, or the allocator refuses a block for
them. -/
def Pushes (build : Build) (s : Store) (octets : Bytes) (m : Proc Unit) (encoding : Bytes) : Prop :=
  ∀ out t, Holds build s octets out t →
    (∃ u, m build t = (.ok (), u) ∧ Holds build s octets (out ++ encoding) u) ∨
    ∃ u, m build t = (.error (.code Error.noMemory), u) ∧
      Refused build s octets (out ++ encoding) u

variable {build : Build} {s : Store} {octets first second body : Bytes} {m n : Proc Unit}

/-- One procedure behind the other. -/
theorem Pushes.seq (hm : Pushes build s octets m first) (hn : Pushes build s octets n second) :
    Pushes build s octets (m >>= fun _ => n) (first ++ second) := by
  intro out t h
  rcases hm out t h with ⟨u, hrun, hu⟩ | ⟨u, hrun, hrefused⟩
  · rw [bind_of_ok hrun, ← List.append_assoc]
    exact hn (out ++ first) u hu
  · right
    refine ⟨u, bind_of_error hrun, ?_⟩
    rw [← List.append_assoc]
    exact hrefused.mono

/-- The first octet is there and has no bit that makes the number negative. -/
def IsNonNegative (content : Bytes) : Prop := ∃ octet ∈ content.head?, octet < 0x80

/-- The contents of the INTEGER of DER with a value: the shortest ones that are not negative. -/
structure IsInteger (value : ℕ) (content : Bytes) : Prop where
  value_eq : ofBE content = value
  nonNegative : IsNonNegative content
  shortest : ∀ other, ofBE other = value → IsNonNegative other → content.length ≤ other.length

/-- There is one INTEGER for a value. -/
theorem IsInteger.unique {value : ℕ} {other : Bytes} (h : IsInteger value content)
    (h' : IsInteger value other) : content = other := by
  have hlength : content.length = other.length :=
    le_antisymm (h.shortest other h'.value_eq h'.nonNegative)
      (h'.shortest content h.value_eq h.nonNegative)
  rw [← toBE_ofBE content, ← toBE_ofBE other, hlength, h.value_eq, h'.value_eq]

/-- A number that is not negative has a bit less than its octets. -/
theorem IsNonNegative.lt (h : IsNonNegative content) :
    0 < content.length ∧ ofBE content < 128 * 256 ^ (content.length - 1) := by
  obtain ⟨octet, hhead, hsign⟩ := h
  cases content with
  | nil => cases hhead
  | cons first rest =>
    cases hhead
    have hoctet : octet.toNat + 1 ≤ 128 := UInt8.lt_iff_toNat_lt.mp hsign
    refine ⟨Nat.succ_pos _, ?_⟩
    calc ofBE (octet :: rest) < octet.toNat * 256 ^ rest.length + 256 ^ rest.length :=
          Nat.add_lt_add_left (ofBE_lt rest) _
      _ = (octet.toNat + 1) * 256 ^ rest.length := by rw [Nat.add_mul, Nat.one_mul]
      _ ≤ 128 * 256 ^ rest.length := Nat.mul_le_mul_right _ hoctet

open Sample

end Picotls.Buffers
