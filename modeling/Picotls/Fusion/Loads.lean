import Mathlib.Data.List.GetD
import Picotls.Foundation.Vectors

/-!
# Partial loads of the fusion engine

A vector of 16 or 32 octets is loaded at an address where only the first octets may be read. Octets
behind them are masked away, so that it does not matter what they are; what matters is that the load
does not touch a page on which none of the wanted octets lies. A load reports the octets it reads.
-/

namespace Picotls.Fusion

open Foundation

variable {upper upper' : BitVec 128} {i : ℕ}

/-- The contents of memory. -/
abbrev Memory := ℕ → BitVec 8

/-- A read of consecutive octets of memory. -/
structure Access where
  addr : ℕ
  size : ℕ

/-- Load a vector from memory. -/
def loadVector (w : ℕ) (mem : Memory) (p : ℕ) : BitVec w := ofOctets w fun i => mem (p + i)

/-- Load a vector from a constant table. -/
def loadTable (w : ℕ) (table : List (BitVec 8)) (offset : ℕ) : BitVec w :=
  ofOctets w fun i => table.getD (offset + i) 0

/-- Octets of ones followed by octets of zeros. -/
def loadnMask : List (BitVec 8) := List.replicate 32 0xff ++ List.replicate 31 0x00

/-- Positions of octets followed by marks for zero. -/
def loadnShuffle : List (BitVec 8) := (List.range 16).map (BitVec.ofNat 8) ++ List.replicate 15 0x80

/-- The size of a page. -/
abbrev pageSize : ℕ := 4096

/-- Load the aligned vector that holds an address, with the octet at the address moved to the
front. -/
def loadnEndOfPage (mem : Memory) (p : ℕ) : BitVec 128 × List Access :=
  let shift := p % 16
  let pattern := loadTable 128 loadnShuffle shift
  (shuffleOctets (loadVector 128 mem (p - shift)) pattern, [⟨p - shift, 16⟩])

/-- Load up to 16 octets. -/
def loadn128 (mem : Memory) (p l : ℕ) : BitVec 128 × List Access :=
  let mask := loadTable 128 loadnMask (32 - l)
  let mod4k := p % pageSize
  let (v, reads) :=
    if mod4k ≤ pageSize - 16 ∨ mod4k + l > pageSize then (loadVector 128 mem p, [⟨p, 16⟩])
    else loadnEndOfPage mem p
  (v &&& mask, reads)

/-- Load up to 31 octets. A cast to the larger type leaves the upper half of the result undefined;
these halves are parameters. -/
def loadn256 (mem : Memory) (upper upper' : BitVec 128) (p l : ℕ) : BitVec 256 × List Access :=
  let mask := loadTable 256 loadnMask (32 - l)
  let mod4k := p % pageSize
  let (v, reads) :=
    if mod4k < pageSize - 32 ∨ mod4k + l > pageSize then (loadVector 256 mem p, [⟨p, 32⟩])
    else if l > 16 then
      let first16 := loadVector 128 mem p
      let (second16, reads) := loadn128 mem (p + 16) (l - 16)
      (permuteHalves (upper ++ first16) (upper' ++ second16) 0x20, ⟨p, 16⟩ :: reads)
    else if l = 16 then (upper ++ loadVector 128 mem p, [⟨p, 16⟩])
    else
      let (v, reads) := loadnEndOfPage mem p
      (upper ++ v, reads)
  (v &&& mask, reads)

/-! ## What the loads return -/

/-- The octets at an address, followed by zeros. -/
def padded (w : ℕ) (mem : Memory) (p l : ℕ) : BitVec w :=
  ofOctets w fun i => if i < l then mem (p + i) else 0

/-- The reads touch only pages on which one of the octets lies. -/
def StaysOnPages (reads : List Access) (p l : ℕ) : Prop :=
  ∀ access ∈ reads, ∀ a, access.addr ≤ a → a < access.addr + access.size →
    ∃ i < l, a / pageSize = (p + i) / pageSize

variable {mem : Memory} {p l w : ℕ}

/-- The mask keeps the first octets. -/
theorem octet_loadnMask (hl : l ≤ 32) (hi : 8 * i + 8 ≤ w) :
    octet (loadTable w loadnMask (32 - l)) i = if i < l then 0xff else 0 := by
  rw [loadTable, octet_ofOctets hi, loadnMask]
  split_ifs with hfirst
  · rw [List.getD_append _ _ _ _ (by rw [List.length_replicate]; omega)]
    grind
  · rw [List.getD_append_right _ _ _ _ (by rw [List.length_replicate]; omega)]
    grind

/-- A vector that has the wanted octets in front is padded by the mask. -/
theorem and_loadnMask {v : BitVec w} (hw : 8 ∣ w) (hl : l ≤ 32)
    (hv : ∀ i < l, 8 * i < w → octet v i = mem (p + i)) :
    v &&& loadTable w loadnMask (32 - l) = padded w mem p l := by
  refine ext_octets fun i hi => ?_
  have hoctet : 8 * i + 8 ≤ w := by omega
  rw [octet_and, octet_loadnMask hl hoctet, padded, octet_ofOctets hoctet]
  split_ifs with hfirst
  · rw [hv i hfirst hi]
    exact BitVec.and_allOnes
  · exact BitVec.and_zero

theorem octet_loadVector (hi : 8 * i + 8 ≤ w) : octet (loadVector w mem p) i = mem (p + i) :=
  octet_ofOctets hi

/-- The aligned load has the octets up to the end of its vector in front. -/
theorem octet_loadnEndOfPage (hi : i < 16) :
    octet (loadnEndOfPage mem p).1 i = if p % 16 + i < 16 then mem (p + i) else 0 := by
  have hpattern : octet (loadTable 128 loadnShuffle (p % 16)) i =
      if p % 16 + i < 16 then BitVec.ofNat 8 (p % 16 + i) else 0x80 := by
    rw [loadTable, octet_ofOctets (by omega), loadnShuffle]
    split_ifs with hinside
    · rw [List.getD_append _ _ _ _ (by simp; omega)]
      simp [List.getD, hinside]
    · rw [List.getD_append_right _ _ _ _ (by simp; omega), List.length_map, List.length_range]
      grind
  rw [loadnEndOfPage, shuffleOctets, octet_ofOctets (by omega), hpattern]
  split_ifs with hinside hzero hzero
  · have hbit : (BitVec.ofNat 8 (p % 16 + i)).msb = false := by
      rw [BitVec.msb_eq_false_iff_two_mul_lt, BitVec.toNat_ofNat]
      omega
    rw [hbit] at hzero
    cases hzero
  · have hselect : 16 * (i / 16) + (BitVec.ofNat 8 (p % 16 + i)).toNat % 16 = p % 16 + i := by
      rw [BitVec.toNat_ofNat]
      omega
    have haddress : p - p % 16 + (p % 16 + i) = p + i := by omega
    rw [hselect, octet_loadVector (by omega), haddress]
  · rfl
  · exact absurd (by decide) hzero

/-! ## Values -/

theorem loadn128_value (hl : l ≤ 16) : (loadn128 mem p l).1 = padded 128 mem p l := by
  rw [loadn128]
  dsimp only [pageSize]
  split_ifs with hunaligned
  · refine and_loadnMask (by decide) (by omega) fun i hi _ => ?_
    exact octet_loadVector (by omega)
  · refine and_loadnMask (by decide) (by omega) fun i hi _ => ?_
    rw [octet_loadnEndOfPage (by omega), if_pos (by omega)]

/-- A load of fewer than 16 octets in the last but one vector of a page is right if the octets lie
within one aligned vector; every other load is right. -/
def Loadn256Works (p l : ℕ) : Prop :=
  16 ≤ l ∨ p % pageSize < pageSize - 32 ∨ pageSize - 16 ≤ p % pageSize ∨ p % 16 + l ≤ 16

instance (p l : ℕ) : Decidable (Loadn256Works p l) := inferInstanceAs (Decidable (_ ∨ _))

theorem loadn256_value (hl : l ≤ 31) (hworks : Loadn256Works p l) :
    (loadn256 mem upper upper' p l).1 = padded 256 mem p l := by
  rw [loadn256]
  dsimp only [pageSize]
  split_ifs with hunaligned hlong hhalf
  · refine and_loadnMask (by decide) (by omega) fun i hi _ => ?_
    exact octet_loadVector (by omega)
  · refine and_loadnMask (by decide) (by omega) fun i hi _ => ?_
    rw [loadn128_value (by omega)]
    change octet (lowHalf (upper' ++ padded 128 mem (p + 16) (l - 16)) ++
      lowHalf (upper ++ loadVector 128 mem p)) i = _
    rw [lowHalf_append, lowHalf_append]
    by_cases hfirst : i < 16
    · rw [octet_append_low _ hfirst, octet_loadVector (by omega)]
    · have haddress : p + 16 + (i - 16) = p + i := by omega
      rw [octet_append_high _ (by omega), padded, octet_ofOctets (by omega), if_pos (by omega),
        haddress]
  · refine and_loadnMask (by decide) (by omega) fun i hi _ => ?_
    rw [octet_append_low _ (by omega), octet_loadVector (by omega)]
  · refine and_loadnMask (by decide) (by omega) fun i hi _ => ?_
    rw [octet_append_low _ (by omega), octet_loadnEndOfPage (by omega), if_pos]
    simp only [Loadn256Works, pageSize] at hworks
    omega

/-- Where the load is not right, it loses an octet that lies behind the aligned vector. -/
theorem octet_loadn256_lost (hworks : ¬ Loadn256Works p l) :
    octet (loadn256 mem upper upper' p l).1 (16 - p % 16) = 0 := by
  simp only [Loadn256Works, pageSize, not_or, Nat.not_le, Nat.not_lt] at hworks
  obtain ⟨hshort, hpage, hlast, hcrosses⟩ := hworks
  rw [loadn256]
  dsimp only [pageSize]
  rw [if_neg (by omega), if_neg (by omega), if_neg (by omega)]
  dsimp only
  rw [octet_and, octet_append_low _ (by omega), octet_loadnEndOfPage (by omega), if_neg (by omega)]
  exact BitVec.zero_and

/-! ## Pages -/

/-- A read that stays between the pages of the first and the last octet. -/
theorem staysOnPages_cons {addr size : ℕ} {reads : List Access} (hl : 0 < l)
    (hfirst : p / pageSize ≤ addr / pageSize)
    (hlast : (addr + size - 1) / pageSize ≤ (p + l - 1) / pageSize)
    (hnext : (p + l - 1) / pageSize ≤ p / pageSize + 1) (hreads : StaysOnPages reads p l) :
    StaysOnPages (⟨addr, size⟩ :: reads) p l := by
  intro access haccess a hlow hhigh
  rcases List.mem_cons.mp haccess with rfl | haccess
  · have hstart : addr / pageSize ≤ a / pageSize := Nat.div_le_div_right hlow
    have hend : a / pageSize ≤ (addr + size - 1) / pageSize :=
      Nat.div_le_div_right (Nat.le_sub_one_of_lt hhigh)
    rcases Nat.lt_or_ge (p / pageSize) (a / pageSize) with hsecond | hsame
    · have hoctet : p + (l - 1) = p + l - 1 := by omega
      exact ⟨l - 1, by omega, by rw [hoctet]; omega⟩
    · exact ⟨0, hl, by rw [Nat.add_zero]; omega⟩
  · exact hreads access haccess a hlow hhigh

theorem staysOnPages_nil : StaysOnPages [] p l := fun _ h => absurd h List.not_mem_nil

theorem loadn128_pages (hl : 0 < l) (hl' : l ≤ 16) : StaysOnPages (loadn128 mem p l).2 p l := by
  rw [loadn128]
  dsimp only [pageSize]
  split_ifs with hunaligned
  · refine staysOnPages_cons hl ?_ ?_ ?_ staysOnPages_nil <;> simp only [pageSize] <;> omega
  · refine staysOnPages_cons hl ?_ ?_ ?_ staysOnPages_nil <;> simp only [pageSize] <;> omega

/-- Reads for a part of the octets. -/
theorem StaysOnPages.mono {reads : List Access} {p' l' : ℕ} (h : StaysOnPages reads p' l')
    (hstart : p ≤ p') (hend : p' + l' ≤ p + l) : StaysOnPages reads p l := by
  intro access haccess a hlow hhigh
  obtain ⟨i, hi, hpage⟩ := h access haccess a hlow hhigh
  have haddress : p + (p' - p + i) = p' + i := by omega
  exact ⟨p' - p + i, by omega, by rw [haddress, hpage]⟩

theorem loadn256_pages (hl : 0 < l) (hl' : l ≤ 31) :
    StaysOnPages (loadn256 mem upper upper' p l).2 p l := by
  rw [loadn256]
  dsimp only [pageSize]
  split_ifs with hunaligned hlong hhalf
  · refine staysOnPages_cons hl ?_ ?_ ?_ staysOnPages_nil <;> simp only [pageSize] <;> omega
  · have hrest : StaysOnPages (loadn128 mem (p + 16) (l - 16)).2 p l :=
      (loadn128_pages (by omega) (by omega)).mono (by omega) (by omega)
    refine staysOnPages_cons hl ?_ ?_ ?_ hrest <;> simp only [pageSize] <;> omega
  · refine staysOnPages_cons hl ?_ ?_ ?_ staysOnPages_nil <;> simp only [pageSize] <;> omega
  · refine staysOnPages_cons hl ?_ ?_ ?_ staysOnPages_nil <;> simp only [pageSize] <;> omega

end Picotls.Fusion
