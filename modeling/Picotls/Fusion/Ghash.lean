import Picotls.Fusion.Loads

/-!
# The hash of the associated data

The fusion engine hashes associated data with vectors of 32 octets, two blocks at a time. Six
vectors are multiplied before the products are reduced. The last vectors are as many as there are
left; if they hold an odd number of blocks, the first of them holds one block only, so that the last
block is the second one of its vector.
-/

namespace Picotls.Fusion

open Foundation

variable {fuel n p : ℕ}

/-! ## Multiplication -/

/-- Powers of the hash key, for both halves of a vector, and the sums of their lanes. -/
structure GhashPrecompute256 where
  hx2 : BitVec 256
  rx2 : BitVec 256

/-- The sums of products that are not reduced yet. -/
structure GfmulState256 where
  hi : BitVec 256 := 0
  lo : BitVec 256 := 0
  mid : BitVec 256 := 0
  deriving DecidableEq

/-- The reduction polynomial. -/
def poly : BitVec 128 := BitVec.ofNat 64 0xc200000000000000 ++ BitVec.ofNat 64 1

/-- The order of octets reversed in each half. -/
def byteswap256 : BitVec 256 := ofOctets 256 fun i => BitVec.ofNat 8 (15 - i % 16)

/-- Reduce a sum of products. -/
def gfmulDoReduce (hi lo mid : BitVec 128) : BitVec 128 :=
  let mid := mid ^^^ hi
  let mid := mid ^^^ lo
  let lo := lo ^^^ (mid <<< 64)
  let hi := hi ^^^ (mid >>> 64)
  let r := clmulSelected lo poly 0x10
  let lo := shuffleWords lo 78
  let lo := lo ^^^ r
  let r := clmulSelected lo poly 0x10
  let lo := shuffleWords lo 78
  let lo := lo ^^^ r
  hi ^^^ lo

/-- Add the product of a vector and a power of the key. -/
def gfmulDoStep256 (gstate : GfmulState256) (x : BitVec 256) (precompute : GhashPrecompute256) :
    GfmulState256 where
  lo := gstate.lo ^^^ clmulHalves precompute.hx2 x 0x00
  hi := gstate.hi ^^^ clmulHalves precompute.hx2 x 0x11
  mid := gstate.mid ^^^ clmulHalves precompute.rx2 (shuffleWords x 78 ^^^ x) 0x00

/-- Begin a sum with a vector, of which only the first block counts if it is a half. -/
def gfmulFirststep256 (gstate : GfmulState256) (x : BitVec 256) (half : Bool)
    (precompute : GhashPrecompute256) : GfmulState256 :=
  let x := shuffleOctets x byteswap256
  let x := gstate.lo ^^^ x
  let x := if half then permuteHalves x x 0x08 else x
  gfmulDoStep256 {} x precompute

/-- Continue a sum. -/
def gfmulNextstep256 (gstate : GfmulState256) (x : BitVec 256) (precompute : GhashPrecompute256) :
    GfmulState256 :=
  gfmulDoStep256 gstate (shuffleOctets x byteswap256) precompute

/-- Reduce a sum. -/
def gfmulReduce256 (gstate : GfmulState256) : GfmulState256 :=
  let hi := lowHalf gstate.hi ^^^ highHalf gstate.hi
  let lo := lowHalf gstate.lo ^^^ highHalf gstate.lo
  let mid := lowHalf gstate.mid ^^^ highHalf gstate.mid
  { gstate with lo := (0 : BitVec 128) ++ gfmulDoReduce hi lo mid }

/-! ## Associated data -/

/-- The variables of the loop: the sum, the address and length of what is left, and the position in
the table of powers. -/
structure AadState where
  gstate : GfmulState256
  aad : ℕ
  aadlen : ℕ
  index : ℕ

section Loop

variable (ghash : ℕ → GhashPrecompute256) (mem : Memory)

/-- Begin a sum with the next vector, and go on behind some of its octets. -/
def AadState.first (s : AadState) (x : BitVec 256) (half : Bool) (n : ℕ) : AadState where
  gstate := gfmulFirststep256 s.gstate x half (ghash (s.index - 1))
  aad := s.aad + n
  aadlen := s.aadlen - n
  index := s.index - 1

/-- Continue a sum with the next vector. -/
def AadState.next (s : AadState) (x : BitVec 256) (n : ℕ) : AadState where
  gstate := gfmulNextstep256 s.gstate x (ghash (s.index - 1))
  aad := s.aad + n
  aadlen := s.aadlen - n
  index := s.index - 1

/-- The next vector. -/
def AadState.vector (s : AadState) : BitVec 256 := loadVector 256 mem s.aad

/-- Reduce the sum. -/
def AadState.reduce (s : AadState) : AadState := { s with gstate := gfmulReduce256 s.gstate }

/-- Continue a sum with some full vectors. -/
def AadState.nextVectors : ℕ → AadState → AadState
  | 0, s => s
  | n + 1, s => AadState.nextVectors n (s.next ghash (s.vector mem) 32)

/-- A batch of six vectors. -/
def AadState.batch (s : AadState) : AadState :=
  let s := { s with index := 6 }
  let s := s.first ghash (s.vector mem) false 32
  (AadState.nextVectors ghash mem 5 s).reduce

/-- The loop over batches. -/
def AadState.batches : ℕ → AadState → AadState
  | 0, s => s
  | fuel + 1, s =>
    if 6 * 32 ≤ s.aadlen then AadState.batches fuel (s.batch ghash mem) else s

/-- The loop over the full vectors after the first one of the rest. -/
def AadState.fullVectors : ℕ → AadState → AadState
  | 0, s => s
  | fuel + 1, s =>
    if 32 ≤ s.aadlen then AadState.fullVectors fuel (s.next ghash (s.vector mem) 32) else s

variable (upper upper' : BitVec 128)

/-- The first vector of the rest, which holds one block only if the number of blocks is odd. -/
def AadState.beginRest (s : AadState) : AadState :=
  if s.aadlen % 32 = 0 ∨ s.aadlen % 32 > 16 then s.first ghash (s.vector mem) false 32
  else s.first ghash (s.vector mem) true 16

/-- The last vector; an assertion fails if it does not hold two blocks. -/
def AadState.lastVector (s : AadState) : Option AadState :=
  if s.aadlen ≠ 0 then
    if s.aadlen > 16 then some (s.next ghash (loadn256 mem upper upper' s.aad s.aadlen).1 0)
    else none
  else some s

/-- A rest of a vector or more. -/
def AadState.longRest (s : AadState) : Option AadState :=
  let s := s.beginRest ghash mem
  AadState.lastVector ghash mem upper upper' (AadState.fullVectors ghash mem s.aadlen s)

/-- A rest of less than a vector. -/
def AadState.shortRest (s : AadState) : AadState :=
  s.first ghash (loadn256 mem upper upper' s.aad s.aadlen).1 (s.aadlen ≤ 16) 0

/-- Reduce the sum at the end of the table; an assertion fails elsewhere. -/
def AadState.finish (s : AadState) : Option AadState :=
  if s.index = 0 then some s.reduce else none

/-- What is left behind the batches. -/
def AadState.rest (s : AadState) : Option AadState :=
  let s := { s with index := (s.aadlen + 31) / 32 }
  (if 32 ≤ s.aadlen then AadState.longRest ghash mem upper upper' s
    else some (AadState.shortRest ghash mem upper upper' s)).bind AadState.finish

/-- The sum after the associated data; there is none if an assertion fails. -/
def ghashAad256 (aad aadlen : ℕ) : Option GfmulState256 :=
  let s : AadState := { gstate := {}, aad := aad, aadlen := aadlen, index := 0 }
  if s.aadlen ≠ 0 then
    let s := AadState.batches ghash mem s.aadlen s
    if s.aadlen ≠ 0 then (AadState.rest ghash mem upper upper' s).map AadState.gstate
    else some s.gstate
  else some s.gstate

end Loop

/-! ## The address does not matter -/

section Address

variable {ghash : ℕ → GhashPrecompute256} {mem mem' : Memory} {s s' : AadState}
  {upper₁ upper₂ upper₁' upper₂' : BitVec 128}

/-- Two states that agree in everything but where the rest of the data is. -/
structure AadState.Agree (mem mem' : Memory) (s s' : AadState) : Prop where
  gstate : s'.gstate = s.gstate
  aadlen : s'.aadlen = s.aadlen
  index : s'.index = s.index
  octets : ∀ i < s.aadlen, mem' (s'.aad + i) = mem (s.aad + i)

namespace AadState.Agree

section

variable (h : Agree mem mem' s s')

include h

theorem vector (hlength : 32 ≤ s.aadlen) : s'.vector mem' = s.vector mem :=
  ofOctets_congr fun i hi => h.octets i (by omega)

/-- What is left behind some octets agrees. -/
theorem advance (gstate : GfmulState256) (index : ℕ) :
    Agree mem mem' ⟨gstate, s.aad + n, s.aadlen - n, index⟩
      ⟨gstate, s'.aad + n, s'.aadlen - n, index⟩ where
  gstate := rfl
  aadlen := congrArg (· - n) h.aadlen
  index := rfl
  octets i hi := by
    dsimp only at hi ⊢
    rw [Nat.add_assoc, Nat.add_assoc]
    exact h.octets (n + i) (by omega)

theorem first (x : BitVec 256) (half : Bool) (n : ℕ) :
    Agree mem mem' (s.first ghash x half n) (s'.first ghash x half n) := by
  rw [AadState.first, AadState.first, h.gstate, h.index]
  exact h.advance _ _

theorem next (x : BitVec 256) (n : ℕ) : Agree mem mem' (s.next ghash x n) (s'.next ghash x n) := by
  rw [AadState.next, AadState.next, h.gstate, h.index]
  exact h.advance _ _

theorem reduce : Agree mem mem' s.reduce s'.reduce :=
  ⟨congrArg gfmulReduce256 h.gstate, h.aadlen, h.index, h.octets⟩

theorem setIndex (n : ℕ) : Agree mem mem' { s with index := n } { s' with index := n } :=
  ⟨h.gstate, h.aadlen, rfl, h.octets⟩

/-- Full vectors that are there agree. -/
theorem nextVectors (hlength : 32 * n ≤ s.aadlen) :
    Agree mem mem' (AadState.nextVectors ghash mem n s) (AadState.nextVectors ghash mem' n s') := by
  induction n generalizing s s' with
  | zero => exact h
  | succ n ih =>
    rw [AadState.nextVectors, AadState.nextVectors, h.vector (by omega)]
    refine ih (h.next _ 32) ?_
    change 32 * n ≤ s.aadlen - 32
    omega

theorem batch (hbatch : 6 * 32 ≤ s.aadlen) :
    Agree mem mem' (s.batch ghash mem) (s'.batch ghash mem') := by
  have hstart := h.setIndex 6
  have hlength : 32 ≤ s.aadlen := by omega
  rw [AadState.batch, AadState.batch, hstart.vector hlength]
  refine reduce (nextVectors (hstart.first _ false 32) ?_)
  change 32 * 5 ≤ s.aadlen - 32
  omega

theorem batches :
    Agree mem mem' (AadState.batches ghash mem fuel s) (AadState.batches ghash mem' fuel s') := by
  induction fuel generalizing s s' with
  | zero => exact h
  | succ fuel ih =>
    rw [AadState.batches, AadState.batches, h.aadlen]
    split_ifs with hbatch
    · exact ih (h.batch hbatch)
    · exact h

theorem fullVectors :
    Agree mem mem' (AadState.fullVectors ghash mem fuel s)
      (AadState.fullVectors ghash mem' fuel s') := by
  induction fuel generalizing s s' with
  | zero => exact h
  | succ fuel ih =>
    rw [AadState.fullVectors, AadState.fullVectors, h.aadlen]
    split_ifs with hfull
    · rw [h.vector hfull]
      exact ih (h.next _ 32)
    · exact h

end

/-- A partial load that works at both addresses. -/
theorem loadn256 (h : Agree mem mem' s s') (hlength : s.aadlen ≤ 31)
    (hworks : Loadn256Works s.aad s.aadlen) (hworks' : Loadn256Works s'.aad s.aadlen) :
    (loadn256 mem' upper₁' upper₂' s'.aad s.aadlen).1 =
      (loadn256 mem upper₁ upper₂ s.aad s.aadlen).1 := by
  rw [loadn256_value hlength hworks, loadn256_value hlength hworks']
  refine ofOctets_congr fun i _ => ?_
  split_ifs with hi
  · exact h.octets i hi
  · rfl

end AadState.Agree

/-- The loops leave what does not make a full vector or a batch. -/
theorem AadState.fullVectors_aadlen (hfuel : s.aadlen ≤ 32 * fuel) :
    (AadState.fullVectors ghash mem fuel s).aadlen = s.aadlen % 32 := by
  induction fuel generalizing s with
  | zero =>
    rw [AadState.fullVectors]
    omega
  | succ fuel ih =>
    rw [AadState.fullVectors]
    split_ifs with hfull
    · have hnext : (s.next ghash (s.vector mem) 32).aadlen = s.aadlen - 32 := rfl
      rw [ih (by omega), hnext]
      omega
    · omega

theorem AadState.nextVectors_rest :
    (AadState.nextVectors ghash mem n s).aad = s.aad + 32 * n ∧
      (AadState.nextVectors ghash mem n s).aadlen = s.aadlen - 32 * n := by
  induction n generalizing s with
  | zero => exact ⟨rfl, rfl⟩
  | succ n ih =>
    rw [AadState.nextVectors, ih.1, ih.2]
    change s.aad + 32 + 32 * n = _ ∧ s.aadlen - 32 - 32 * n = _
    omega

theorem AadState.batch_rest :
    (s.batch ghash mem).aad = s.aad + 6 * 32 ∧ (s.batch ghash mem).aadlen = s.aadlen - 6 * 32 := by
  rw [AadState.batch, AadState.reduce]
  dsimp only
  rw [AadState.nextVectors_rest.1, AadState.nextVectors_rest.2]
  change s.aad + 32 + 32 * 5 = _ ∧ s.aadlen - 32 - 32 * 5 = _
  omega

theorem AadState.batches_rest (hfuel : s.aadlen ≤ 6 * 32 * fuel) :
    (AadState.batches ghash mem fuel s).aad = s.aad + s.aadlen / (6 * 32) * (6 * 32) ∧
      (AadState.batches ghash mem fuel s).aadlen = s.aadlen % (6 * 32) := by
  induction fuel generalizing s with
  | zero =>
    rw [AadState.batches]
    omega
  | succ fuel ih =>
    rw [AadState.batches]
    split_ifs with hbatch
    · have hrest : (s.batch ghash mem).aad = s.aad + 6 * 32 ∧
          (s.batch ghash mem).aadlen = s.aadlen - 6 * 32 := AadState.batch_rest
      rw [(ih (by omega)).1, (ih (by omega)).2, hrest.1, hrest.2]
      omega
    · omega

namespace AadState.Agree

section

variable (h : Agree mem mem' s s')

include h

theorem beginRest (hlength : 32 ≤ s.aadlen) :
    Agree mem mem' (s.beginRest ghash mem) (s'.beginRest ghash mem') := by
  rw [AadState.beginRest, AadState.beginRest, h.aadlen, h.vector hlength]
  split_ifs
  · exact h.first _ false 32
  · exact h.first _ true 16

theorem lastVector (hlength : s.aadlen ≤ 31) :
    Option.Rel (Agree mem mem') (AadState.lastVector ghash mem upper₁ upper₂ s)
      (AadState.lastVector ghash mem' upper₁' upper₂' s') := by
  rw [AadState.lastVector, AadState.lastVector, h.aadlen]
  split_ifs with hsome hlong
  · have hworks (p : ℕ) : Loadn256Works p s.aadlen := .inl (by omega)
    rw [h.loadn256 hlength (hworks _) (hworks _)]
    exact .some (h.next _ 0)
  · exact .none
  · exact .some h

/-- A rest of a vector or more is hashed alike. -/
theorem longRest (hlength : 32 ≤ s.aadlen) :
    Option.Rel (Agree mem mem') (AadState.longRest ghash mem upper₁ upper₂ s)
      (AadState.longRest ghash mem' upper₁' upper₂' s') := by
  have hbegin : Agree mem mem' (s.beginRest ghash mem) (s'.beginRest ghash mem') :=
    h.beginRest hlength
  rw [AadState.longRest, AadState.longRest, hbegin.aadlen]
  refine hbegin.fullVectors.lastVector ?_
  rw [AadState.fullVectors_aadlen (by omega)]
  omega

/-- A rest of less than a vector is hashed alike if the partial loads work. -/
theorem shortRest (hlength : s.aadlen ≤ 31) (hworks : Loadn256Works s.aad s.aadlen)
    (hworks' : Loadn256Works s'.aad s.aadlen) :
    Agree mem mem' (AadState.shortRest ghash mem upper₁ upper₂ s)
      (AadState.shortRest ghash mem' upper₁' upper₂' s') := by
  rw [AadState.shortRest, AadState.shortRest, h.aadlen, h.loadn256 hlength hworks hworks']
  exact h.first _ _ 0

theorem finish : Option.Rel (Agree mem mem') s.finish s'.finish := by
  rw [AadState.finish, AadState.finish, h.index]
  split_ifs
  · exact .some h.reduce
  · exact .none

end

theorem finish_bind {o o' : Option AadState} (h : Option.Rel (Agree mem mem') o o') :
    Option.Rel (Agree mem mem') (o.bind AadState.finish) (o'.bind AadState.finish) := by
  cases h with
  | some h => exact h.finish
  | none => exact .none

theorem map_gstate {o o' : Option AadState} (h : Option.Rel (Agree mem mem') o o') :
    o'.map AadState.gstate = o.map AadState.gstate := by
  cases h with
  | some h => exact congrArg some h.gstate
  | none => rfl

/-- What is left behind the batches is hashed alike. -/
theorem rest (h : Agree mem mem' s s')
    (hworks : s.aadlen < 32 → Loadn256Works s.aad s.aadlen ∧ Loadn256Works s'.aad s.aadlen) :
    Option.Rel (Agree mem mem') (AadState.rest ghash mem upper₁ upper₂ s)
      (AadState.rest ghash mem' upper₁' upper₂' s') := by
  have hstart := h.setIndex ((s.aadlen + 31) / 32)
  rw [AadState.rest, AadState.rest]
  dsimp only
  rw [← h.aadlen] at hstart hworks ⊢
  split_ifs with hlength
  · exact finish_bind (hstart.longRest (h.aadlen ▸ hlength))
  · have hshort := hworks (by omega)
    have hfits : s'.aadlen ≤ 31 := by omega
    exact finish_bind (.some (hstart.shortRest hfits hshort.1 hshort.2))

end AadState.Agree

/-- The hash depends on the octets of the associated data and not on their address, if the partial
load of a rest of less than a vector works at both addresses. -/
theorem ghashAad256_congr {p' : ℕ} (hoctets : ∀ i < n, mem' (p' + i) = mem (p + i))
    (hworks : n % (6 * 32) < 32 →
      Loadn256Works (p + n / (6 * 32) * (6 * 32)) (n % (6 * 32)) ∧
        Loadn256Works (p' + n / (6 * 32) * (6 * 32)) (n % (6 * 32))) :
    ghashAad256 ghash mem' upper₁' upper₂' p' n = ghashAad256 ghash mem upper₁ upper₂ p n := by
  have hstart : AadState.Agree mem mem' ⟨{}, p, n, 0⟩ ⟨{}, p', n, 0⟩ := ⟨rfl, rfl, rfl, hoctets⟩
  have hbatches : AadState.Agree mem mem' (AadState.batches ghash mem n ⟨{}, p, n, 0⟩)
      (AadState.batches ghash mem' n ⟨{}, p', n, 0⟩) := hstart.batches
  have hrest : (AadState.batches ghash mem n ⟨{}, p, n, 0⟩).aad = p + n / (6 * 32) * (6 * 32) ∧
      (AadState.batches ghash mem n ⟨{}, p, n, 0⟩).aadlen = n % (6 * 32) :=
    AadState.batches_rest (Nat.le_mul_of_pos_left n (by decide))
  have hrest' : (AadState.batches ghash mem' n ⟨{}, p', n, 0⟩).aad = p' + n / (6 * 32) * (6 * 32) ∧
      (AadState.batches ghash mem' n ⟨{}, p', n, 0⟩).aadlen = n % (6 * 32) :=
    AadState.batches_rest (Nat.le_mul_of_pos_left n (by decide))
  rw [ghashAad256, ghashAad256]
  dsimp only
  split_ifs with hsome hleft hleft' hleft'
  · have hsame : Option.Rel (AadState.Agree mem mem')
        (AadState.rest ghash mem upper₁ upper₂ (AadState.batches ghash mem n ⟨{}, p, n, 0⟩))
        (AadState.rest ghash mem' upper₁' upper₂' (AadState.batches ghash mem' n ⟨{}, p', n, 0⟩)) :=
      hbatches.rest (by rwa [hrest.1, hrest.2, hrest'.1])
    exact AadState.Agree.map_gstate hsame
  · exact absurd hbatches.aadlen (by omega)
  · exact absurd hbatches.aadlen (by omega)
  · rw [hbatches.gstate]
  · rfl

/-- Less than a vector of associated data. -/
theorem ghashAad256_short {l : ℕ} (hl : 0 < l) (hl' : l < 32) :
    ghashAad256 ghash mem upper₁ upper₂ p l = some (gfmulReduce256
      (gfmulFirststep256 {} (loadn256 mem upper₁ upper₂ p l).1 (l ≤ 16) (ghash 0))) := by
  have hbatches (fuel : ℕ) : AadState.batches ghash mem fuel ⟨{}, p, l, 0⟩ = ⟨{}, p, l, 0⟩ := by
    cases fuel with
    | zero => rfl
    | succ fuel => rw [AadState.batches, if_neg (by dsimp only; omega)]
  have hindex : (l + 31) / 32 = 1 := by omega
  rw [ghashAad256]
  dsimp only
  rw [if_pos (by omega), hbatches, if_pos (by dsimp only; omega), AadState.rest]
  dsimp only
  rw [if_neg (by omega), hindex]
  rfl

end Address

end Picotls.Fusion
