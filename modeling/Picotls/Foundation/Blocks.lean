import Picotls.Foundation.Octets

/-!
# Octet strings behind their length

A string of variable length is written as a block: its length in a fixed number of octets, and the
string. A block that fits its length field can be told from whatever follows it, so a sequence of
blocks and numbers of fixed width determines its parts.
-/

namespace Foundation

variable {a b octets octets' : Bytes} {capacity : ℕ}

/-- Octets behind their length. -/
def encodeBlock (capacity : ℕ) (octets : Bytes) : Bytes := toBE capacity octets.length ++ octets

@[simp] theorem encodeBlock_length (capacity : ℕ) (octets : Bytes) :
    (encodeBlock capacity octets).length = capacity + octets.length := by
  simp [encodeBlock]

/-- A number is smaller than the next one that needs another octet. -/
theorem ofBE_lt (b : Bytes) : ofBE b < 256 ^ b.length := by
  induction b with
  | nil => simp [ofBE]
  | cons o b ih =>
    have ho : o.toNat + 1 ≤ 256 := o.toNat_lt
    calc ofBE (o :: b) < o.toNat * 256 ^ b.length + 256 ^ b.length := Nat.add_lt_add_left ih _
      _ = (o.toNat + 1) * 256 ^ b.length := by rw [Nat.add_mul, Nat.one_mul]
      _ ≤ 256 * 256 ^ b.length := Nat.mul_le_mul_right _ ho
      _ = 256 ^ (o :: b).length := by rw [List.length_cons, pow_succ, Nat.mul_comm]

/-- Writing the number that a string denotes gives back the string. -/
theorem toBE_ofBE (b : Bytes) : toBE b.length (ofBE b) = b := by
  induction b with
  | nil => rfl
  | cons o b ih =>
    have hdiv : ofBE (o :: b) / 256 ^ b.length = o.toNat := by
      rw [ofBE, Nat.mul_comm, Nat.mul_add_div (Nat.pow_pos (by decide)),
        Nat.div_eq_of_lt (ofBE_lt b), Nat.add_zero]
    have hmod : ofBE (o :: b) % 256 ^ b.length = ofBE b := by
      rw [ofBE, Nat.mul_add_mod_self_right, Nat.mod_eq_of_lt (ofBE_lt b)]
    rw [List.length_cons, toBE, hdiv, UInt8.ofNat_toNat, ← toBE_mod, hmod, ih]

/-- A number of fixed width is determined by what it begins. -/
theorem toBE_append_inj {width m n : ℕ} (hm : m < 256 ^ width) (hn : n < 256 ^ width) :
    toBE width m ++ a = toBE width n ++ b ↔ m = n ∧ a = b := by
  constructor
  · intro h
    obtain ⟨hnumber, hrest⟩ := List.append_inj h (by simp)
    exact ⟨(toBE_inj hm hn).mp hnumber, hrest⟩
  · rintro ⟨rfl, rfl⟩
    rfl

section

variable (hfits : octets.length < 256 ^ capacity)

include hfits

/-- A block that fits is determined by what it begins. -/
theorem encodeBlock_append_inj (hfits' : octets'.length < 256 ^ capacity) :
    encodeBlock capacity octets ++ a = encodeBlock capacity octets' ++ b ↔
      octets = octets' ∧ a = b := by
  constructor
  · intro h
    rw [encodeBlock, encodeBlock, List.append_assoc, List.append_assoc,
      toBE_append_inj hfits hfits'] at h
    exact List.append_inj h.2 h.1
  · rintro ⟨rfl, rfl⟩
    rfl

/-- A block that fits is determined by its encoding. -/
theorem encodeBlock_inj (hfits' : octets'.length < 256 ^ capacity) :
    encodeBlock capacity octets = encodeBlock capacity octets' ↔ octets = octets' := by
  have hnil := encodeBlock_append_inj (a := []) (b := []) hfits hfits'
  simpa using hnil

/-- A block that fits does not continue another one. -/
theorem encodeBlock_eq_of_isPrefix (hfits' : octets'.length < 256 ^ capacity)
    (h : encodeBlock capacity octets <+: encodeBlock capacity octets') : octets = octets' := by
  obtain ⟨rest, hrest⟩ := h
  rw [← List.append_nil (encodeBlock capacity octets')] at hrest
  exact ((encodeBlock_append_inj hfits hfits').mp hrest).1

end

end Foundation
