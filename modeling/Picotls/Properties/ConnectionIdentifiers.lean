import Picotls.Ciphers.QuicLb
import Mathlib.Data.List.GetD

/-!
# Connection identifiers

Decryption of connection identifiers inverts encryption for any function in place of AES. The rounds
are undone in reverse order. Between the two directions what is outside of the masks gets lost, but
neither the rounds nor the result depend on it.
-/

namespace Picotls.QuicLb

open Foundation

variable {aesecb : Block16 → Block16} {memory : Memory} {len : ℕ} {l r : Block16}

/-! ## Rounds -/

/-- A round adds the outcome of AES for one half to the other half; odd rounds change the right one.
-/
def pass (aesecb : Block16 → Block16) (len : ℕ) (rnd : UInt8) :
    Block16 × Block16 → Block16 × Block16 :=
  if rnd % 2 = 1 then
    mixRight (fun x y => picotlsQuiclbOneRound aesecb x y (maskFor len).l (lenPass len rnd)) id
  else mixLeft (fun x y => picotlsQuiclbOneRound aesecb x y (maskFor len).r (lenPass len rnd)) id

theorem picotlsQuiclbOneRound_twice (x y mask pass : Block16) :
    picotlsQuiclbOneRound aesecb (picotlsQuiclbOneRound aesecb x y mask pass) y mask pass = x := by
  funext i
  simp only [picotlsQuiclbOneRound]
  rw [← UInt8.xor_assoc, UInt8.xor_self, UInt8.zero_xor]

theorem pass_involutive (aesecb : Block16 → Block16) (len : ℕ) (rnd : UInt8) :
    Function.Involutive (pass aesecb len rnd) := by
  unfold pass
  split_ifs
  · exact mixRight_involutive (fun x y => picotlsQuiclbOneRound_twice x y _ _) id
  · exact mixLeft_involutive (fun x y => picotlsQuiclbOneRound_twice x y _ _) id

/-- The numbers of the rounds. -/
def roundNumbers : List UInt8 := [1, 2, 3, 4]

/-- Put the halves together after some rounds. -/
def mergeAfter (aesecb : Block16 → Block16) (len : ℕ) (order : List UInt8)
    (halves : Block16 × Block16) : Bytes :=
  picotlsQuiclbMergeOutput len (passes (pass aesecb len) order halves).1
    (passes (pass aesecb len) order halves).2

section

variable (hlow : minBlockSize ≤ len)

include hlow

theorem picotlsQuiclbTransform_encrypt (hhigh : len ≤ maxBlockSize) (memory : Memory)
    (output input : ℕ) :
    picotlsQuiclbTransform aesecb memory output input len true = .ok (memory.write output
      (mergeAfter aesecb len roundNumbers (picotlsQuiclbSplitInput memory input len))) := by
  rw [picotlsQuiclbTransform, if_pos ⟨hlow, hhigh⟩]
  rfl

theorem picotlsQuiclbTransform_decrypt (hhigh : len ≤ maxBlockSize) (memory : Memory)
    (output input : ℕ) :
    picotlsQuiclbTransform aesecb memory output input len false = .ok (memory.write output
      (mergeAfter aesecb len roundNumbers.reverse (picotlsQuiclbSplitInput memory input len))) := by
  rw [picotlsQuiclbTransform, if_pos ⟨hlow, hhigh⟩]
  rfl

/-! ## Masks -/

/-- The mask for the left half, by position. -/
theorem maskFor_l (hhigh : len ≤ maxBlockSize) (i : Fin 16) :
    (maskFor len).l i = if i.val < len / 2 then 0xff
      else if i.val = len / 2 ∧ len % 2 = 1 then 0xf0 else 0 := by
  have htable : ∀ k < 13, ∀ i : Fin 16, (maskFor (k + 7)).l i = if i.val < (k + 7) / 2 then 0xff
      else if i.val = (k + 7) / 2 ∧ (k + 7) % 2 = 1 then 0xf0 else 0 := by decide
  obtain ⟨k, rfl⟩ := Nat.exists_eq_add_of_le' hlow
  have hk : k + 7 ≤ 19 := hhigh
  exact htable k (by omega) i

/-- The mask for the right half, by position. -/
theorem maskFor_r (hhigh : len ≤ maxBlockSize) (i : Fin 16) :
    (maskFor len).r i = if i.val = 0 ∧ len % 2 = 1 then 0x0f
      else if i.val < (len + 1) / 2 then 0xff else 0 := by
  have htable : ∀ k < 13, ∀ i : Fin 16, (maskFor (k + 7)).r i = if i.val = 0 ∧ (k + 7) % 2 = 1 then
      0x0f else if i.val < (k + 7 + 1) / 2 then 0xff else 0 := by decide
  obtain ⟨k, rfl⟩ := Nat.exists_eq_add_of_le' hlow
  have hk : k + 7 ≤ 19 := hhigh
  exact htable k (by omega) i

end

/-- Two pairs of halves agree within the masks. -/
structure Agree (len : ℕ) (halves halves' : Block16 × Block16) : Prop where
  left : ∀ i, halves.1 i &&& (maskFor len).l i = halves'.1 i &&& (maskFor len).l i
  right : ∀ i, halves.2 i &&& (maskFor len).r i = halves'.2 i &&& (maskFor len).r i

/-- Rounds look at what is within the masks only. -/
theorem pass_agree (aesecb : Block16 → Block16) (rnd : UInt8) (halves halves' : Block16 × Block16)
    (h : Agree len halves halves') :
    Agree len (pass aesecb len rnd halves) (pass aesecb len rnd halves') := by
  unfold pass
  split_ifs
  · refine ⟨h.left, fun i => ?_⟩
    simp only [mixRight, picotlsQuiclbOneRound, id_eq, h.left]
    rw [xor_and, xor_and, h.right i]
  · refine ⟨fun i => ?_, h.right⟩
    simp only [mixLeft, picotlsQuiclbOneRound, id_eq, h.right]
    rw [xor_and, xor_and, h.left i]

/-! ## Cutting and joining -/

theorem merge_length (len : ℕ) (l r : Block16) :
    (picotlsQuiclbMergeOutput len l r).length = len := by
  unfold picotlsQuiclbMergeOutput
  split_ifs with heven
  · simp
    omega
  · simp
    omega

/-- The octets that two halves come to, one by one. -/
theorem merge_getD {j : ℕ} (hj : j < len) :
    (picotlsQuiclbMergeOutput len l r).getD j 0 =
      if j < len / 2 then octetOf l j
      else if j = len / 2 ∧ len % 2 = 1 then (octetOf l j &&& 0xf0) ||| (octetOf r 0 &&& 0x0f)
      else octetOf r (j - len / 2) := by
  unfold picotlsQuiclbMergeOutput
  by_cases hleft : j < len / 2
  · rw [if_pos hleft, List.getD_append _ _ _ _ (by simpa using hleft)]
    simp [hleft]
  · rw [if_neg hleft, List.getD_append_right _ _ _ _ (by simpa using hleft), List.length_map,
      List.length_range]
    by_cases hodd : len % 2 = 0
    · rw [if_pos hodd, if_neg (by omega), List.getD_eq_getElem _ _ (by simp; omega)]
      simp
    · rw [if_neg hodd]
      by_cases hmiddle : j = len / 2
      · rw [if_pos ⟨hmiddle, by omega⟩, hmiddle, Nat.sub_self]
        rfl
      · obtain ⟨k, hk⟩ : ∃ k, j - len / 2 = k + 1 := ⟨j - len / 2 - 1, by omega⟩
        rw [if_neg (fun h => hmiddle h.1), hk, List.getD_cons_succ,
          List.getD_eq_getElem _ _ (by simp; omega)]
        simp

theorem octetOf_val (b : Block16) (i : Fin 16) : octetOf b i.val = b i := dif_pos i.isLt

theorem not_f0 : ~~~(0xf0 : UInt8) = 0x0f := by decide

theorem eq_of_getD {a b : Bytes} (hlength : a.length = b.length)
    (h : ∀ j < b.length, a.getD j 0 = b.getD j 0) : a = b := by
  refine List.ext_getElem hlength fun j h₁ h₂ => ?_
  have hj := h j h₂
  rwa [List.getD_eq_getElem _ _ h₁, List.getD_eq_getElem _ _ h₂] at hj

/-- Octets that are put together again after they were cut into halves. -/
theorem merge_split (hhigh : len ≤ maxBlockSize) (memory : Memory) (input : ℕ) :
    picotlsQuiclbMergeOutput len (picotlsQuiclbSplitInput memory input len).1
      (picotlsQuiclbSplitInput memory input len).2 = memory.read input len := by
  have hmax : len ≤ 19 := hhigh
  refine eq_of_getD (by rw [merge_length, Memory.read_length]) fun j hj => ?_
  rw [Memory.read_length] at hj
  have hread : (memory.read input len).getD j 0 = memory (input + j) := by
    rw [List.getD_eq_getElem _ _ (by simpa using hj)]
    simp [Memory.read]
  have hleft (hi : j < (len + 1) / 2) :
      octetOf (picotlsQuiclbSplitInput memory input len).1 j = memory (input + j) := by
    rw [octetOf, dif_pos (by omega)]
    exact if_pos hi
  have hright (i : ℕ) (hi : i < (len + 1) / 2) :
      octetOf (picotlsQuiclbSplitInput memory input len).2 i = memory (input + (i + len / 2)) := by
    rw [octetOf, dif_pos (by omega)]
    exact if_pos hi
  rw [merge_getD hj, hread]
  split_ifs with hless hmiddle
  · exact hleft (by omega)
  · rw [hleft (by omega), hright 0 (by omega), Nat.zero_add, ← hmiddle.1, ← not_f0, and_or_self]
  · rw [hright (j - len / 2) (by omega), Nat.sub_add_cancel (not_lt.mp hless)]

/-- The octets depend on what is within the masks only. -/
theorem merge_congr (hlow : minBlockSize ≤ len) (hhigh : len ≤ maxBlockSize)
    {halves halves' : Block16 × Block16} (h : Agree len halves halves') :
    picotlsQuiclbMergeOutput len halves.1 halves.2 =
      picotlsQuiclbMergeOutput len halves'.1 halves'.2 := by
  have hmax : len ≤ 19 := hhigh
  refine eq_of_getD (by rw [merge_length, merge_length]) fun j hj => ?_
  rw [merge_length] at hj
  rw [merge_getD hj, merge_getD hj]
  split_ifs with hless hmiddle
  · have hoctet := h.left ⟨j, by omega⟩
    rw [maskFor_l hlow hhigh, if_pos hless, and_ff, and_ff] at hoctet
    rw [octetOf, octetOf, dif_pos (by omega), dif_pos (by omega)]
    exact hoctet
  · have hhigh' := h.left ⟨j, by omega⟩
    have hlow' := h.right 0
    rw [maskFor_l hlow hhigh, if_neg hless, if_pos hmiddle] at hhigh'
    rw [maskFor_r hlow hhigh, if_pos ⟨rfl, hmiddle.2⟩] at hlow'
    simp only [octetOf]
    rw [dif_pos (by omega), dif_pos (by omega), dif_pos (by omega), dif_pos (by omega)]
    exact congr (congrArg _ hhigh') hlow'
  · have hoctet := h.right ⟨j - len / 2, by omega⟩
    rw [maskFor_r hlow hhigh, if_neg (by simp only; omega), if_pos (by simp only; omega), and_ff,
      and_ff] at hoctet
    rw [octetOf, octetOf, dif_pos (by omega), dif_pos (by omega)]
    exact hoctet

/-- What is within the masks is found again. -/
theorem split_merge (hlow : minBlockSize ≤ len) (hhigh : len ≤ maxBlockSize) (memory : Memory)
    (output : ℕ) (halves : Block16 × Block16) :
    Agree len (picotlsQuiclbSplitInput
      (memory.write output (picotlsQuiclbMergeOutput len halves.1 halves.2)) output len)
        halves := by
  have hwritten (j : ℕ) (hj : j < len) :
      memory.write output (picotlsQuiclbMergeOutput len halves.1 halves.2) (output + j) =
        (picotlsQuiclbMergeOutput len halves.1 halves.2).getD j 0 := by
    have hlength : j < (picotlsQuiclbMergeOutput len halves.1 halves.2).length := by
      rwa [merge_length]
    rw [Memory.write, if_pos (Nat.le_add_right output j), Nat.add_sub_cancel_left,
      List.getD_eq_getElem _ _ hlength, List.getD_eq_getElem _ _ hlength]
  refine ⟨fun i => ?_, fun i => ?_⟩
  · rw [maskFor_l hlow hhigh]
    simp only [picotlsQuiclbSplitInput]
    split_ifs with hi hless hmiddle hmiddle
    · rw [hwritten _ (by omega), merge_getD (by omega), if_pos hless, octetOf_val]
    · rw [hwritten _ (by omega), merge_getD (by omega), if_neg hless, if_pos hmiddle, octetOf_val,
        ← not_f0, and_or_and_not]
    · rw [UInt8.and_zero, UInt8.and_zero]
    · omega
    · omega
    · rw [UInt8.and_zero, UInt8.and_zero]
  · rw [maskFor_r hlow hhigh]
    simp only [picotlsQuiclbSplitInput]
    split_ifs with hi hmiddle hmiddle
    · rw [hwritten _ (by omega), merge_getD (by omega), if_neg (by omega), if_pos (by omega),
        ← not_f0, and_not_or_and, ← hmiddle.1, octetOf_val]
    · rw [hwritten _ (by omega), merge_getD (by omega), if_neg (by omega), if_neg (by omega),
        Nat.add_sub_cancel, octetOf_val]
    · omega
    · rw [UInt8.and_zero, UInt8.and_zero]

/-- Decryption inverts encryption, and only the output is written. -/
theorem quiclb_decryption_inverts (aesecb : Block16 → Block16) (len : ℕ)
    (hlow : minBlockSize ≤ len) (hhigh : len ≤ maxBlockSize) (memory : Memory)
    (input output output' : ℕ) :
    ∃ encrypted decrypted,
      picotlsQuiclbTransform aesecb memory output input len true = .ok encrypted ∧
      picotlsQuiclbTransform aesecb encrypted output' output len false = .ok decrypted ∧
      decrypted.read output' len = memory.read input len ∧
      (∀ a, a < output ∨ output + len ≤ a → encrypted a = memory a) ∧
      ∀ a, a < output' ∨ output' + len ≤ a → decrypted a = encrypted a := by
  refine ⟨_, _, picotlsQuiclbTransform_encrypt hlow hhigh memory output input,
    picotlsQuiclbTransform_decrypt hlow hhigh _ output' output, ?_, fun a ha => ?_, fun a ha => ?_⟩
  · have hagree := passes_rel (pass_agree aesecb) roundNumbers.reverse
      (split_merge hlow hhigh memory output (passes (pass aesecb len) roundNumbers
        (picotlsQuiclbSplitInput memory input len)))
    rw [passes_reverse (pass_involutive aesecb len)] at hagree
    have hmerged := (merge_congr hlow hhigh hagree).trans (merge_split hhigh memory input)
    rw [mergeAfter, mergeAfter, hmerged]
    have hread (m : Memory) := Memory.read_write_self m output' (memory.read input len)
    rw [Memory.read_length] at hread
    exact hread _
  · exact Memory.write_apply_of_not_mem (by rwa [mergeAfter, merge_length])
  · exact Memory.write_apply_of_not_mem (by rwa [mergeAfter, merge_length])

/-- Nine octets, encrypted in place and decrypted to another address, with AES replaced by a map
that is not even injective. -/
theorem quiclb_nine_octets :
    ∃ encrypted decrypted,
      picotlsQuiclbTransform (fun _ _ => 5) (fun a => UInt8.ofNat a) 100 100 9 true =
        .ok encrypted ∧
      picotlsQuiclbTransform (fun _ _ => 5) encrypted 200 100 9 false = .ok decrypted ∧
      decrypted.read 200 9 = Memory.read (fun a => UInt8.ofNat a) 100 9 ∧
      (∀ a, a < 100 ∨ 100 + 9 ≤ a → encrypted a = UInt8.ofNat a) ∧
      ∀ a, a < 200 ∨ 200 + 9 ≤ a → decrypted a = encrypted a :=
  quiclb_decryption_inverts (fun _ _ => 5) 9 (by decide) (by decide) (fun a => UInt8.ofNat a) 100
    100 200

end Picotls.QuicLb
