import Mathlib.Data.BitVec

/-!
# Vectors of octets

A vector register is a bit vector whose octets are numbered from the least significant one. The
operations on registers that move octets around are given by the octets of their results; the
others act on lanes of 64 or 128 bits.
-/

namespace Foundation

variable {w : ℕ} {i : ℕ} {f : ℕ → BitVec 8}

/-! ## Octets -/

/-- The vector with the first of the given octets, the others being zero. -/
def firstOctets (w : ℕ) (f : ℕ → BitVec 8) : ℕ → BitVec w
  | 0 => 0
  | n + 1 => firstOctets w f n ||| ((f n).setWidth w <<< (8 * n))

/-- The vector with the given octets. -/
def ofOctets (w : ℕ) (f : ℕ → BitVec 8) : BitVec w := firstOctets w f ((w + 7) / 8)

theorem getLsbD_firstOctets (f : ℕ → BitVec 8) {n : ℕ} (hi : i < w) :
    (firstOctets w f n).getLsbD i = (decide (i < 8 * n) && (f (i / 8)).getLsbD (i % 8)) := by
  induction n with
  | zero => simp [firstOctets]
  | succ n ih =>
    rw [firstOctets, BitVec.getLsbD_or, ih, BitVec.getLsbD_shiftLeft, BitVec.getLsbD_setWidth]
    rcases Nat.lt_trichotomy (i / 8) n with hbefore | rfl | hafter
    · have hbit : i < 8 * n := by omega
      simp [hi, hbit, show i < 8 * (n + 1) by omega]
    · have hmod : i - 8 * (i / 8) = i % 8 := by omega
      simp [hi, hmod, show ¬ i < 8 * (i / 8) by omega, show i < 8 * (i / 8 + 1) by omega,
        show i % 8 < w by omega]
    · have hbit : 8 ≤ i - 8 * n := by omega
      simp [show ¬ i < 8 * n by omega, show ¬ i < 8 * (n + 1) by omega,
        BitVec.getLsbD_of_ge _ _ hbit]

theorem getLsbD_ofOctets (f : ℕ → BitVec 8) (hi : i < w) :
    (ofOctets w f).getLsbD i = (f (i / 8)).getLsbD (i % 8) := by
  rw [ofOctets, getLsbD_firstOctets f hi, decide_eq_true (by omega), Bool.true_and]

/-- An octet of a vector. -/
def octet (v : BitVec w) (i : ℕ) : BitVec 8 := v.extractLsb' (8 * i) 8

/-- A bit of a vector is a bit of one of its octets. -/
theorem getLsbD_eq_octet (v : BitVec w) (i : ℕ) :
    v.getLsbD i = (octet v (i / 8)).getLsbD (i % 8) := by
  rw [octet, BitVec.getLsbD_extractLsb', Nat.div_add_mod]
  simp [Nat.mod_lt]

/-- Vectors with the same octets are equal. -/
theorem ext_octets {v v' : BitVec w} (h : ∀ i, 8 * i < w → octet v i = octet v' i) : v = v' := by
  apply BitVec.eq_of_getLsbD_eq
  intro i hi
  rw [getLsbD_eq_octet v, getLsbD_eq_octet v', h (i / 8) (by omega)]

@[simp] theorem octet_ofOctets (hi : 8 * i + 8 ≤ w) : octet (ofOctets w f) i = f i := by
  apply BitVec.eq_of_getLsbD_eq
  intro j hj
  have hdiv : (8 * i + j) / 8 = i := by omega
  have hmod : (8 * i + j) % 8 = j := by omega
  rw [octet, BitVec.getLsbD_extractLsb', getLsbD_ofOctets f (by omega), hdiv, hmod]
  simp [hj]

/-- Only the octets of the vector matter. -/
theorem ofOctets_congr {g : ℕ → BitVec 8} (h : ∀ i, 8 * i < w → f i = g i) :
    ofOctets w f = ofOctets w g := by
  apply BitVec.eq_of_getLsbD_eq
  intro i hi
  rw [getLsbD_ofOctets f hi, getLsbD_ofOctets g hi, h (i / 8) (by omega)]

@[simp] theorem octet_and (v v' : BitVec w) (i : ℕ) :
    octet (v &&& v') i = octet v i &&& octet v' i := by
  simp [octet, BitVec.extractLsb'_and]

@[simp] theorem octet_zero (i : ℕ) : octet (0 : BitVec w) i = 0 := by
  simp [octet]

/-! ## Halves -/

/-- The lower half of a vector of 256 bits. -/
def lowHalf (v : BitVec 256) : BitVec 128 := v.extractLsb' 0 128

/-- The upper half of a vector of 256 bits. -/
def highHalf (v : BitVec 256) : BitVec 128 := v.extractLsb' 128 128

theorem octet_append_low {v : BitVec 128} (v' : BitVec 128) (hi : i < 16) :
    octet (v' ++ v) i = octet v i := by
  apply BitVec.eq_of_getLsbD_eq
  intro j hj
  rw [octet, octet, BitVec.getLsbD_extractLsb', BitVec.getLsbD_extractLsb', BitVec.getLsbD_append,
    if_pos (by omega)]

theorem octet_append_high (v : BitVec 128) {v' : BitVec 128} (hi : 16 ≤ i) :
    octet (v' ++ v) i = octet v' (i - 16) := by
  apply BitVec.eq_of_getLsbD_eq
  intro j hj
  rw [octet, octet, BitVec.getLsbD_extractLsb', BitVec.getLsbD_extractLsb', BitVec.getLsbD_append,
    if_neg (by omega)]
  have hbit : 8 * i + j - 128 = 8 * (i - 16) + j := by omega
  rw [hbit]

@[simp] theorem lowHalf_append (v v' : BitVec 128) : lowHalf (v' ++ v) = v := by
  apply BitVec.eq_of_getLsbD_eq
  intro i hi
  rw [lowHalf, BitVec.getLsbD_extractLsb', BitVec.getLsbD_append, if_pos (by omega)]
  simp [hi]

/-- A half of either of two vectors, or zero, as selected by four bits. -/
def selectHalf (v v' : BitVec 256) (selector : ℕ) : BitVec 128 :=
  if selector / 8 % 2 = 1 then 0
  else match selector % 4 with
    | 0 => lowHalf v
    | 1 => highHalf v
    | 2 => lowHalf v'
    | _ => highHalf v'

/-- The halves of two vectors as selected by eight bits. -/
def permuteHalves (v v' : BitVec 256) (selector : ℕ) : BitVec 256 :=
  selectHalf v v' (selector / 16) ++ selectHalf v v' selector

/-! ## Shuffles within lanes of 128 bits -/

/-- The octets of a vector as a pattern selects them; zero where its highest bit is set. -/
def shuffleOctets (v pattern : BitVec w) : BitVec w :=
  ofOctets w fun i =>
    if (octet pattern i).msb then 0 else octet v (16 * (i / 16) + (octet pattern i).toNat % 16)

/-- The groups of four octets as selected by two bits each. -/
def shuffleWords (v : BitVec w) (selector : ℕ) : BitVec w :=
  ofOctets w fun i => octet v (16 * (i / 16) + 4 * (selector / 4 ^ (i % 16 / 4) % 4) + i % 4)

/-! ## Carry-less multiplication -/

/-- The carry-less product of two lanes of 64 bits. -/
def clmul (a b : BitVec 64) : BitVec 128 :=
  (List.range 64).foldl
    (fun acc i => if a.getLsbD i then acc ^^^ (b.setWidth 128 <<< i) else acc) 0

/-- The product of the lanes that a selector names. -/
def clmulSelected (v v' : BitVec 128) (selector : ℕ) : BitVec 128 :=
  clmul (v.extractLsb' (64 * (selector % 2)) 64) (v'.extractLsb' (64 * (selector / 16 % 2)) 64)

/-- The products in both halves. -/
def clmulHalves (v v' : BitVec 256) (selector : ℕ) : BitVec 256 :=
  clmulSelected (highHalf v) (highHalf v') selector ++
    clmulSelected (lowHalf v) (lowHalf v') selector

end Foundation
