import Picotls.Ciphers.Ffx
import Mathlib.Data.List.GetD

/-!
# Blocks of any length

What `ffx_encrypt` makes of a block is the block again after decryption, for any underlying cipher:
every pass undoes itself, and decryption makes them in reverse order. The bits of the last octet
that are not in the mask are copied. They are the ones behind the bit length only if that is a
multiple of four: the table of masks has them in the wrong order.
-/

namespace Picotls.Ffx

open Foundation

variable {ctx : FfxContext} {input output : Bytes} {halves : Block16 × Block16} {bitLength n : ℕ}

/-! ## Rounds -/

/-- The pass with a number: even ones are over the left half. -/
def pass (ctx : FfxContext) (round : ℤ) : Block16 × Block16 → Block16 × Block16 :=
  if round % 2 = 0 then fun halves => (passLeft ctx round halves.1 halves.2, halves.2)
  else fun halves => (halves.1, passRight ctx round halves.1 halves.2)

/-- A pass adds the same keystream when it is made again. -/
theorem ptlsFfxOnePass_twice (encCtx : Block16 → Block16) (source : Block16) (sourceSize : ℕ)
    (target : Block16) (targetSize : ℕ) (mask : UInt8) (tweaks : Block16)
    (round nbRounds : UInt8) :
    ptlsFfxOnePass encCtx source sourceSize
      (ptlsFfxOnePass encCtx source sourceSize target targetSize mask tweaks round nbRounds)
      targetSize mask tweaks round nbRounds = target := by
  funext j
  simp only [ptlsFfxOnePass, xorFirst]
  split_ifs with hlast hless
  · omega
  · rw [xor_xor_cancel]
  · rw [xor_xor_cancel]
  · rfl

theorem pass_involutive (ctx : FfxContext) (round : ℤ) : Function.Involutive (pass ctx round) := by
  intro halves
  unfold pass
  split_ifs
  · exact Prod.ext (ptlsFfxOnePass_twice ..) rfl
  · exact Prod.ext rfl (ptlsFfxOnePass_twice ..)

/-- The numbers of the passes from one on, two for each iteration. -/
def ascending : ℕ → ℤ → List ℤ
  | 0, _ => []
  | count + 1, i => i :: (i + 1) :: ascending count (i + 2)

/-- The numbers of the passes in front of one, the last one first. -/
def descending : ℕ → ℤ → List ℤ
  | 0, _ => []
  | count + 1, i => (i - 1) :: (i - 2) :: descending count (i - 2)

theorem ascending_concat (count : ℕ) (i : ℤ) :
    ascending (count + 1) i = ascending count i ++ [i + 2 * count, i + 2 * count + 1] := by
  induction count generalizing i with
  | zero => simp [ascending]
  | succ count ih =>
    rw [ascending, ih, ascending, List.cons_append, List.cons_append]
    push_cast
    rw [show i + 2 + 2 * (count : ℤ) = i + 2 * (count + 1) by omega]

/-- Decryption makes the passes in reverse order. -/
theorem descending_eq_reverse (count : ℕ) (i : ℤ) :
    descending count (i + 2 * count) = (ascending count i).reverse := by
  induction count with
  | zero => rfl
  | succ count ih =>
    rw [ascending_concat, List.reverse_append, ← ih, descending]
    push_cast
    rw [show i + 2 * ((count : ℤ) + 1) - 1 = i + 2 * count + 1 by omega,
      show i + 2 * ((count : ℤ) + 1) - 2 = i + 2 * count by omega]
    rfl

theorem encryptLoop_eq (count : ℕ) {i : ℤ} (hi : i % 2 = 0) (halves : Block16 × Block16) :
    encryptLoop ctx count i halves = passes (pass ctx) (ascending count i) halves := by
  induction count generalizing i halves with
  | zero => rfl
  | succ count ih =>
    rw [ascending, passes_cons, passes_cons, ← ih (by omega)]
    simp [encryptLoop, pass, hi, show (i + 1) % 2 ≠ 0 by omega]

theorem decryptLoop_eq (count : ℕ) {i : ℤ} (heven : ctx.nbRounds % 2 = 0) (hi : i % 2 = 0)
    (halves : Block16 × Block16) :
    decryptLoop ctx count i halves =
      passes (pass ctx) (descending count (ctx.nbRounds - i)) halves := by
  induction count generalizing i halves with
  | zero => rfl
  | succ count ih =>
    rw [descending, passes_cons, passes_cons,
      show ctx.nbRounds - i - 2 = ctx.nbRounds - (i + 2) by omega, ← ih (by omega)]
    have hodd : (ctx.nbRounds - 1 - i) % 2 ≠ 0 := by omega
    have heven' : (ctx.nbRounds - 2 - i) % 2 = 0 := by omega
    rw [show ctx.nbRounds - i - 1 = ctx.nbRounds - 1 - i by omega,
      show ctx.nbRounds - (i + 2) = ctx.nbRounds - 2 - i by omega]
    simp only [decryptLoop, pass, if_neg hodd, if_pos heven']

theorem xor_and_and (x c m : UInt8) (h : x &&& m = x) :
    (x ^^^ (c &&& m)) &&& m = x ^^^ (c &&& m) := by
  rw [xor_and, h, UInt8.and_assoc, UInt8.and_self]

/-! ## Halves -/

/-- The halves of a block lie in their arrays. -/
structure FfxContext.Fits (ctx : FfxContext) : Prop where
  sum : ctx.nbLeft + ctx.nbRight = ctx.byteLength
  left_pos : 0 < ctx.nbLeft
  right_pos : 0 < ctx.nbRight
  left_le : ctx.nbLeft ≤ 16
  right_le : ctx.nbRight ≤ 16

/-- The halves of a block; of the last octet only what is in the mask. -/
def split (ctx : FfxContext) (input : Bytes) : Block16 × Block16 :=
  (copyFirst ctx.nbLeft input,
    modifyAt (copyFirst ctx.nbRight (input.drop ctx.nbLeft)) (ctx.nbRight - 1)
      (· &&& ctx.maskLastByte))

/-- The last octet of a block. -/
def lastOctet (ctx : FfxContext) (input : Bytes) : UInt8 :=
  (input.drop ctx.nbLeft).getD (ctx.nbRight - 1) 0

/-- Put the halves together; what is not in the mask comes from an octet. -/
def join (ctx : FfxContext) (lastByte : UInt8) (halves : Block16 × Block16) : Bytes :=
  firstOctets ctx.nbLeft halves.1 ++ firstOctets ctx.nbRight
    (modifyAt (modifyAt halves.2 (ctx.nbRight - 1) (· &&& ctx.maskLastByte)) (ctx.nbRight - 1)
      (· ||| (lastByte &&& ~~~ctx.maskLastByte)))

/-- All passes of an encryption or decryption. -/
def rounds (ctx : FfxContext) (halves : Block16 × Block16) : Block16 × Block16 :=
  if ctx.isEnc then encryptLoop ctx ctx.iterations 0 halves
  else decryptLoop ctx ctx.iterations 0 halves

theorem ffxEncrypt_eq (ctx : FfxContext) (h : input.length = ctx.byteLength) :
    ffxEncrypt ctx input = .ok (join ctx (lastOctet ctx input) (rounds ctx (split ctx input))) := by
  unfold ffxEncrypt
  rw [if_neg (not_not.mpr h)]
  rfl

theorem firstOctets_length (h : n ≤ 16) (b : Block16) : (firstOctets n b).length = n := by
  simp [firstOctets, h]

theorem firstOctets_getElem {i : ℕ} {b : Block16} (h : i < (firstOctets n b).length) (hi : i < 16) :
    (firstOctets n b)[i] = b ⟨i, hi⟩ := by
  simp only [firstOctets, List.getElem_take, List.getElem_ofFn]

/-- Octets that are copied to an array and back. -/
theorem firstOctets_copyFirst {octets : Bytes} (hn : n ≤ 16) (h : n ≤ octets.length) :
    firstOctets n (copyFirst n octets) = octets.take n := by
  refine List.ext_getElem (by simp [firstOctets_length hn, h]) fun i h₁ h₂ => ?_
  rw [firstOctets_length hn] at h₁
  rw [firstOctets_getElem _ (by omega), List.getElem_take, copyFirst, if_pos h₁,
    List.getD_eq_getElem]

/-- An array whose first octets are copied out and back. -/
theorem copyFirst_firstOctets {b : Block16} (hn : n ≤ 16) (h : ∀ i, n ≤ i.val → b i = 0)
    (rest : Bytes) : copyFirst n (firstOctets n b ++ rest) = b := by
  funext i
  unfold copyFirst
  split_ifs with hi
  · have hlength : i.val < (firstOctets n b).length := by rwa [firstOctets_length hn]
    rw [List.getD_append _ _ _ _ hlength, List.getD_eq_getElem _ _ hlength,
      firstOctets_getElem hlength i.isLt]
  · exact (h i (not_lt.mp hi)).symm

/-- Behind the halves the arrays hold zeros, and the last octet has nothing outside of the mask. -/
structure Clean (ctx : FfxContext) (halves : Block16 × Block16) : Prop where
  left : ∀ i, ctx.nbLeft ≤ i.val → halves.1 i = 0
  right : ∀ i, ctx.nbRight ≤ i.val → halves.2 i = 0
  last : ∀ i, i.val = ctx.nbRight - 1 → halves.2 i &&& ctx.maskLastByte = halves.2 i

theorem split_clean (hctx : ctx.Fits) (input : Bytes) : Clean ctx (split ctx input) where
  left i hi := if_neg (not_lt.mpr hi)
  right i hi := by
    have hne : i.val ≠ ctx.nbRight - 1 := by
      have := hctx.right_pos
      omega
    simp only [split, modifyAt, if_neg hne]
    exact if_neg (not_lt.mpr hi)
  last i hi := by
    simp only [split, modifyAt, if_pos hi]
    rw [UInt8.and_assoc, UInt8.and_self]

theorem ptlsFfxOnePass_of_le {encCtx : Block16 → Block16} {source target tweaks : Block16}
    {sourceSize targetSize : ℕ} {mask round nbRounds : UInt8} (hpos : 0 < targetSize) {i : Fin 16}
    (hi : targetSize ≤ i.val) :
    ptlsFfxOnePass encCtx source sourceSize target targetSize mask tweaks round nbRounds i =
      target i := by
  simp only [ptlsFfxOnePass, xorFirst]
  rw [if_neg (by omega), if_neg (by omega)]

theorem pass_clean (hctx : ctx.Fits) (round : ℤ) (halves : Block16 × Block16)
    (h : Clean ctx halves) : Clean ctx (pass ctx round halves) := by
  unfold pass
  split_ifs
  · refine ⟨fun i hi => ?_, h.right, h.last⟩
    exact (ptlsFfxOnePass_of_le hctx.left_pos hi).trans (h.left i hi)
  · refine ⟨h.left, fun i hi => ?_, fun i hi => ?_⟩
    · exact (ptlsFfxOnePass_of_le hctx.right_pos hi).trans (h.right i hi)
    · simp only [passRight, ptlsFfxOnePass, xorFirst, if_pos hi]
      rw [if_neg (by omega)]
      exact xor_and_and _ _ _ (h.last i hi)

theorem rounds_eq (ctx : FfxContext) (heven : ctx.nbRounds % 2 = 0) (halves : Block16 × Block16) :
    rounds ctx halves = passes (pass ctx) (if ctx.isEnc then ascending ctx.iterations 0
      else descending ctx.iterations ctx.nbRounds) halves := by
  unfold rounds
  split_ifs
  · exact encryptLoop_eq ctx.iterations rfl halves
  · rw [decryptLoop_eq ctx.iterations heven rfl, Int.sub_zero]

section

variable (hctx : ctx.Fits)

include hctx

theorem join_length (lastByte : UInt8) (halves : Block16 × Block16) :
    (join ctx lastByte halves).length = ctx.byteLength := by
  rw [join, List.length_append, firstOctets_length hctx.left_le, firstOctets_length hctx.right_le,
    hctx.sum]

theorem join_drop (lastByte : UInt8) (halves : Block16 × Block16) :
    (join ctx lastByte halves).drop ctx.nbLeft = firstOctets ctx.nbRight
      (modifyAt (modifyAt halves.2 (ctx.nbRight - 1) (· &&& ctx.maskLastByte)) (ctx.nbRight - 1)
        (· ||| (lastByte &&& ~~~ctx.maskLastByte))) :=
  List.drop_left' (firstOctets_length hctx.left_le halves.1)

/-- The halves are found again. -/
theorem split_join (lastByte : UInt8) (h : Clean ctx halves) :
    split ctx (join ctx lastByte halves) = halves := by
  have hpos := hctx.right_pos
  refine Prod.ext (copyFirst_firstOctets hctx.left_le h.left _) ?_
  have hzero (i : Fin 16) (hi : ctx.nbRight ≤ i.val) :
      modifyAt (modifyAt halves.2 (ctx.nbRight - 1) (· &&& ctx.maskLastByte)) (ctx.nbRight - 1)
        (· ||| (lastByte &&& ~~~ctx.maskLastByte)) i = 0 := by
    rw [modifyAt, modifyAt, if_neg (by omega), if_neg (by omega), h.right i hi]
  have hcopy := copyFirst_firstOctets hctx.right_le hzero []
  rw [List.append_nil] at hcopy
  funext i
  simp only [split]
  rw [join_drop hctx, hcopy]
  by_cases hi : i.val = ctx.nbRight - 1
  · simp only [modifyAt, if_pos hi]
    rw [and_or_and_not, h.last i hi]
  · simp only [modifyAt, if_neg hi]

theorem lastOctet_join (lastByte : UInt8) (halves : Block16 × Block16) {i : Fin 16}
    (hi : i.val = ctx.nbRight - 1) :
    lastOctet ctx (join ctx lastByte halves) =
      (halves.2 i &&& ctx.maskLastByte) ||| (lastByte &&& ~~~ctx.maskLastByte) := by
  have hpos := hctx.right_pos
  have hle := hctx.right_le
  have hlength (b : Block16) : ctx.nbRight - 1 < (firstOctets ctx.nbRight b).length := by
    rw [firstOctets_length hle]
    omega
  rw [lastOctet, join_drop hctx, List.getD_eq_getElem _ _ (hlength _),
    firstOctets_getElem (hlength _) (by omega), show (⟨ctx.nbRight - 1, _⟩ : Fin 16) = i from
      Fin.ext hi.symm]
  simp only [modifyAt, if_pos hi]

/-- What is not in the mask is the octet's. -/
theorem lastOctet_join_and (lastByte : UInt8) (halves : Block16 × Block16) :
    lastOctet ctx (join ctx lastByte halves) &&& ~~~ctx.maskLastByte =
      lastByte &&& ~~~ctx.maskLastByte := by
  have hlt : ctx.nbRight - 1 < 16 := by
    have := hctx.right_le
    omega
  have hexact := lastOctet_join hctx lastByte halves (i := ⟨ctx.nbRight - 1, hlt⟩) rfl
  rw [hexact, and_not_or_and]

/-- A block that is cut into halves and put together again. -/
theorem join_split (h : input.length = ctx.byteLength) {lastByte : UInt8}
    (hlast : lastByte &&& ~~~ctx.maskLastByte = lastOctet ctx input &&& ~~~ctx.maskLastByte) :
    join ctx lastByte (split ctx input) = input := by
  have hsum := hctx.sum
  have hdrop : ctx.nbRight = (input.drop ctx.nbLeft).length := by
    rw [List.length_drop]
    omega
  have hright : modifyAt (modifyAt (split ctx input).2 (ctx.nbRight - 1) (· &&& ctx.maskLastByte))
      (ctx.nbRight - 1) (· ||| (lastByte &&& ~~~ctx.maskLastByte)) =
      copyFirst ctx.nbRight (input.drop ctx.nbLeft) := by
    funext i
    by_cases hi : i.val = ctx.nbRight - 1
    · have hpos := hctx.right_pos
      have hcopied : copyFirst ctx.nbRight (input.drop ctx.nbLeft) i = lastOctet ctx input := by
        rw [copyFirst, if_pos (by omega), lastOctet, hi]
      simp only [split, modifyAt, if_pos hi, hcopied, hlast]
      rw [UInt8.and_assoc, UInt8.and_self, and_or_self]
    · simp only [split, modifyAt, if_neg hi]
  rw [join, hright, firstOctets_copyFirst hctx.right_le hdrop.le, hdrop, List.take_length]
  exact (congrArg (· ++ _) (firstOctets_copyFirst hctx.left_le (by omega))).trans
    (List.take_append_drop _ _)

end

/-! ## Decryption -/

/-- What is known of a context for a number of bits. -/
theorem ptlsFfxSetupCrypto_ok (encCtx : Block16 → Block16) (isEnc : Bool) (nbRounds : ℤ)
    (hlow : 9 ≤ bitLength) (hhigh : bitLength ≤ 256) :
    ∃ ctx, ptlsFfxSetupCrypto (some encCtx) isEnc nbRounds bitLength = .ok ctx ∧ ctx.Fits ∧
      ctx.encCtx = encCtx ∧ ctx.nbRounds = nbRounds ∧ ctx.isEnc = isEnc ∧
      ctx.byteLength = (bitLength + 7) / 8 ∧
      ctx.maskLastByte = lastByteMask.getD (bitLength % 8) 0 := by
  have hlen : (bitLength + 7) / 8 ≤ 32 ∧ 2 ≤ (bitLength + 7) / 8 := by omega
  refine ⟨_, if_pos hlen, ⟨?_, ?_, ?_, ?_, ?_⟩, rfl, rfl, rfl, rfl,
    (List.getD_eq_getElem lastByteMask 0 (Nat.mod_lt bitLength (by decide))).symm⟩
  all_goals
    dsimp only
    omega

/-- The context for the other direction. -/
def FfxContext.reversed (ctx : FfxContext) : FfxContext := { ctx with isEnc := !ctx.isEnc }

/-- The passes of one direction undo those of the other. -/
theorem rounds_reversed (heven : ctx.nbRounds % 2 = 0) (halves : Block16 × Block16) :
    rounds ctx.reversed (rounds ctx halves) = halves := by
  have horder : descending ctx.iterations ctx.nbRounds = (ascending ctx.iterations 0).reverse := by
    rw [← descending_eq_reverse, Int.zero_add]
    by_cases hpos : 0 ≤ ctx.nbRounds
    · have hcount : ctx.nbRounds = 2 * ctx.iterations := by
        unfold FfxContext.iterations
        omega
      rw [← hcount]
    · have hzero : ctx.iterations = 0 := by
        unfold FfxContext.iterations
        omega
      rw [hzero]
      rfl
  have hreverse := rounds_eq ctx.reversed heven (rounds ctx halves)
  rw [hreverse, rounds_eq ctx heven]
  change passes (pass ctx) (if (!ctx.isEnc) = true then ascending ctx.iterations 0
    else descending ctx.iterations ctx.nbRounds) _ = halves
  cases ctx.isEnc with
  | true =>
    simp only [Bool.not_true, Bool.false_eq_true, if_false, if_true, horder]
    exact passes_reverse (pass_involutive ctx) _ _
  | false =>
    simp only [Bool.not_false, Bool.false_eq_true, if_false, if_true, horder]
    have h := passes_reverse (pass_involutive ctx) (ascending ctx.iterations 0).reverse halves
    rwa [List.reverse_reverse] at h

theorem rounds_clean (hctx : ctx.Fits) (heven : ctx.nbRounds % 2 = 0) (h : Clean ctx halves) :
    Clean ctx (rounds ctx halves) := by
  rw [rounds_eq ctx heven]
  exact passes_inv (fun round halves => pass_clean hctx round halves) _ h

/-- The other direction returns the block. -/
theorem ffxEncrypt_reversed (ctx : FfxContext) (hctx : ctx.Fits)
    (heven : ctx.nbRounds % 2 = 0) (h : input.length = ctx.byteLength) :
    ∃ output, ffxEncrypt ctx input = .ok output ∧ output.length = ctx.byteLength ∧
      ffxEncrypt ctx.reversed output = .ok input := by
  refine ⟨_, ffxEncrypt_eq ctx h, join_length hctx _ _, ?_⟩
  have hclean := rounds_clean hctx heven (split_clean hctx input)
  have hsplit := split_join hctx (lastOctet ctx input) hclean
  have hlast := lastOctet_join_and hctx (lastOctet ctx input) (rounds ctx (split ctx input))
  have hrounds := rounds_reversed heven (split ctx input)
  have hlength := join_length hctx (lastOctet ctx input) (rounds ctx (split ctx input))
  generalize join ctx (lastOctet ctx input) (rounds ctx (split ctx input)) = output at *
  have hrun : ffxEncrypt ctx.reversed output = .ok (join ctx (lastOctet ctx output)
      (rounds ctx.reversed (split ctx output))) := ffxEncrypt_eq ctx.reversed hlength
  rw [hrun, hsplit, hrounds, join_split hctx h hlast]

/-- Blocks of a number of octets. -/
abbrev Blocks (n : ℕ) := { block : Bytes // block.length = n }

/-- A context is a map on blocks, whose inverse is the context for the other direction. -/
theorem exists_map (ctx : FfxContext) (hctx : ctx.Fits) (heven : ctx.nbRounds % 2 = 0) :
    ∃ f g : Blocks ctx.byteLength → Blocks ctx.byteLength,
      (∀ block, ffxEncrypt ctx block.val = .ok (f block).val) ∧
      (∀ block, ffxEncrypt ctx.reversed block.val = .ok (g block).val) ∧
      Function.LeftInverse g f ∧ Function.RightInverse g f := by
  have hforth (block : Blocks ctx.byteLength) := ffxEncrypt_reversed ctx hctx heven block.property
  have hback (block : Blocks ctx.byteLength) : ∃ output, ffxEncrypt ctx.reversed block.val =
      .ok output ∧ output.length = ctx.byteLength ∧ ffxEncrypt ctx output = .ok block.val := by
    have h := ffxEncrypt_reversed ctx.reversed ⟨hctx.sum, hctx.left_pos, hctx.right_pos,
      hctx.left_le, hctx.right_le⟩ heven block.property
    rwa [show ctx.reversed.reversed = ctx by simp [FfxContext.reversed]] at h
  choose f hf hflength hfback using hforth
  choose g hg hglength hgback using hback
  refine ⟨fun block => ⟨f block, hflength block⟩, fun block => ⟨g block, hglength block⟩, hf, hg,
    fun block => Subtype.ext ?_, fun block => Subtype.ext ?_⟩
  · exact Except.ok.inj ((hg ⟨f block, hflength block⟩).symm.trans (hfback block))
  · exact Except.ok.inj ((hf ⟨g block, hglength block⟩).symm.trans (hgback block))

/-- Decryption inverts encryption, which is a bijection on blocks. -/
theorem ffx_decryption_inverts (encCtx : Block16 → Block16) (tweaks : Block16) (nbRounds : ℤ)
    (heven : nbRounds % 2 = 0) (bitLength : ℕ) (hlow : 9 ≤ bitLength) (hhigh : bitLength ≤ 256) :
    ∃ enc dec, ptlsFfxSetupCrypto (some encCtx) true nbRounds bitLength = .ok enc ∧
      ptlsFfxSetupCrypto (some encCtx) false nbRounds bitLength = .ok dec ∧
      ∃ f g : Blocks ((bitLength + 7) / 8) → Blocks ((bitLength + 7) / 8),
        (∀ block, ffxEncrypt (ffxInit enc tweaks) block.val = .ok (f block).val) ∧
        (∀ block, ffxEncrypt (ffxInit dec tweaks) block.val = .ok (g block).val) ∧
        (∀ block, g (f block) = block) ∧ Function.Bijective f := by
  obtain ⟨enc, henc, hfits, -, hrounds, -, hlength, -⟩ :=
    ptlsFfxSetupCrypto_ok encCtx true nbRounds hlow hhigh
  have hdec : ptlsFfxSetupCrypto (some encCtx) false nbRounds bitLength = .ok enc.reversed := by
    have hlen : (bitLength + 7) / 8 ≤ 32 ∧ 2 ≤ (bitLength + 7) / 8 := by omega
    unfold ptlsFfxSetupCrypto at henc ⊢
    rw [if_pos hlen] at henc ⊢
    cases henc
    rfl
  refine ⟨enc, enc.reversed, henc, hdec, ?_⟩
  have hmap := exists_map (ffxInit enc tweaks) ⟨hfits.sum, hfits.left_pos, hfits.right_pos,
      hfits.left_le, hfits.right_le⟩ (by rw [← heven, ← hrounds]; rfl)
  rw [show (ffxInit enc tweaks).byteLength = (bitLength + 7) / 8 from hlength] at hmap
  obtain ⟨f, g, hf, hg, hleft, hright⟩ := hmap
  exact ⟨f, g, hf, hg, hleft, hleft.injective, hright.surjective⟩

/-- An instance: eleven bits, four rounds, and a cipher that returns its initialization vector. -/
theorem ffx_decryption_inverts_sample :
    ∃ enc dec, ptlsFfxSetupCrypto (some id) true 4 11 = .ok enc ∧
      ptlsFfxSetupCrypto (some id) false 4 11 = .ok dec ∧
      ∃ f g : Blocks 2 → Blocks 2,
        (∀ block, ffxEncrypt (ffxInit enc fun _ => 7) block.val = .ok (f block).val) ∧
        (∀ block, ffxEncrypt (ffxInit dec fun _ => 7) block.val = .ok (g block).val) ∧
        (∀ block, g (f block) = block) ∧ Function.Bijective f :=
  ffx_decryption_inverts id (fun _ => 7) 4 rfl 11 (by decide) (by decide)

/-! ## Bits -/

/-- A bit of an octet, counted from the most significant one. -/
def bit (octet : UInt8) (i : ℕ) : Bool := octet.toBitVec.getLsbD (7 - i)

/-- A bit of a block. -/
def bitAt (octets : Bytes) (i : ℕ) : Bool := bit (octets.getD (i / 8) 0) (i % 8)

/-- The bits of an octet of a block that take part in the passes. -/
def FfxContext.maskAt (ctx : FfxContext) (j : ℕ) : UInt8 :=
  if j = ctx.byteLength - 1 then ctx.maskLastByte else 0xFF

/-- The bits behind a number of bits are copied and nothing else depends on them, and all bits in
front take part. -/
structure HonoursBits (bitLength : ℕ) (ctx : FfxContext) : Prop where
  returns : ∀ input, input.length = ctx.byteLength →
    ∃ output, ffxEncrypt ctx input = .ok output ∧ output.length = ctx.byteLength
  copied : ∀ input output, ffxEncrypt ctx input = .ok output →
    ∀ i, bitLength ≤ i → i < 8 * ctx.byteLength → bitAt output i = bitAt input i
  independent : ∀ input input' output output', ffxEncrypt ctx input = .ok output →
    ffxEncrypt ctx input' = .ok output' → (∀ i < bitLength, bitAt input i = bitAt input' i) →
      ∀ i < bitLength, bitAt output i = bitAt output' i
  takesPart : ∀ i < bitLength, bit (ctx.maskAt (i / 8)) (i % 8) = true

theorem octet_ext {a b : UInt8} (h : ∀ i < 8, bit a i = bit b i) : a = b := by
  apply UInt8.eq_of_toBitVec_eq
  apply BitVec.eq_of_getLsbD_eq
  intro i hi
  have hbit := h (7 - i) (by omega)
  rwa [bit, bit, show 7 - (7 - i) = i by omega] at hbit

theorem bit_and (a b : UInt8) (i : ℕ) : bit (a &&& b) i = (bit a i && bit b i) := by
  simp [bit]

theorem bit_not (a : UInt8) {i : ℕ} : bit (~~~a) i = !bit a i := by
  simp [bit]
  omega

/-- The octets of two blocks agree within the mask. -/
def AgreeMasked (ctx : FfxContext) (a b : Bytes) : Prop :=
  ∀ j < ctx.byteLength, a.getD j 0 &&& ctx.maskAt j = b.getD j 0 &&& ctx.maskAt j

theorem lastOctet_eq (hctx : ctx.Fits) (octets : Bytes) :
    lastOctet ctx octets = octets.getD (ctx.byteLength - 1) 0 := by
  have hsum := hctx.sum
  have hpos := hctx.right_pos
  rw [lastOctet, List.getD_eq_getElem?_getD, List.getElem?_drop, List.getD_eq_getElem?_getD,
    show ctx.nbLeft + (ctx.nbRight - 1) = ctx.byteLength - 1 by omega]

/-- The halves hold exactly what is within the mask. -/
theorem split_eq_iff (hctx : ctx.Fits) (a b : Bytes) :
    split ctx a = split ctx b ↔ AgreeMasked ctx a b := by
  have hsum := hctx.sum
  have hpos := hctx.right_pos
  have hle := hctx.right_le
  have hle' := hctx.left_le
  constructor
  · intro h j hj
    unfold FfxContext.maskAt
    by_cases hleft : j < ctx.nbLeft
    · have hoctet := congrFun (congrArg Prod.fst h) ⟨j, by omega⟩
      simp only [split, copyFirst, if_pos hleft] at hoctet
      rw [hoctet]
    · have hoctet := congrFun (congrArg Prod.snd h) ⟨j - ctx.nbLeft, by omega⟩
      simp only [split, modifyAt, copyFirst, if_pos (show j - ctx.nbLeft < ctx.nbRight by omega),
        List.getD_eq_getElem?_getD, List.getElem?_drop,
        show ctx.nbLeft + (j - ctx.nbLeft) = j by omega] at hoctet
      simp only [List.getD_eq_getElem?_getD]
      split_ifs at hoctet ⊢
      · exact hoctet
      · omega
      · omega
      · rw [hoctet]
  · intro h
    have hfront (j : ℕ) (hj : j < ctx.byteLength - 1) : a.getD j 0 = b.getD j 0 := by
      have hoctet := h j (by omega)
      rwa [FfxContext.maskAt, if_neg (by omega), and_ff, and_ff] at hoctet
    have hlast := h (ctx.byteLength - 1) (by omega)
    rw [FfxContext.maskAt, if_pos rfl] at hlast
    refine Prod.ext (funext fun i => ?_) (funext fun i => ?_)
    · simp only [split, copyFirst]
      split_ifs with hi
      · exact hfront i.val (by omega)
      · rfl
    · simp only [split, modifyAt, copyFirst, List.getD_eq_getElem?_getD, List.getElem?_drop]
      simp only [List.getD_eq_getElem?_getD] at hfront hlast
      split_ifs with hend hi hi
      · rw [show ctx.nbLeft + i.val = ctx.byteLength - 1 by omega]
        exact hlast
      · rfl
      · exact hfront (ctx.nbLeft + i.val) (by omega)
      · rfl

/-- What an encryption leaves alone and what it depends on, octet by octet. -/
theorem ffxEncrypt_masked (hctx : ctx.Fits) (heven : ctx.nbRounds % 2 = 0)
    (h : input.length = ctx.byteLength) :
    ∃ output, ffxEncrypt ctx input = .ok output ∧ output.length = ctx.byteLength ∧
      split ctx output = rounds ctx (split ctx input) ∧
      ∀ j < ctx.byteLength, output.getD j 0 &&& ~~~ctx.maskAt j =
        input.getD j 0 &&& ~~~ctx.maskAt j := by
  have hclean := rounds_clean hctx heven (split_clean hctx input)
  have hlast := lastOctet_join_and hctx (lastOctet ctx input) (rounds ctx (split ctx input))
  refine ⟨_, ffxEncrypt_eq ctx h, join_length hctx _ _, split_join hctx _ hclean, fun j hj => ?_⟩
  unfold FfxContext.maskAt
  split_ifs with hj'
  · rw [lastOctet_eq hctx, lastOctet_eq hctx] at hlast
    rw [hj', ← lastOctet_eq hctx input]
    rw [← lastOctet_eq hctx input] at hlast
    exact hlast
  · rw [show ~~~(0xFF : UInt8) = 0 by decide, UInt8.and_zero, UInt8.and_zero]

/-- The bits in the mask are those in front of a number of bits. -/
def MaskIsExact (bitLength : ℕ) (ctx : FfxContext) : Prop :=
  ∀ i < 8 * ctx.byteLength, bit (ctx.maskAt (i / 8)) (i % 8) = decide (i < bitLength)

theorem agreeMasked_of_bits (hmask : MaskIsExact bitLength ctx) {a b : Bytes}
    (h : ∀ i < bitLength, bitAt a i = bitAt b i) : AgreeMasked ctx a b := by
  intro j hj
  refine octet_ext fun k hk => ?_
  rw [bit_and, bit_and]
  have hexact := hmask (8 * j + k) (by omega)
  rw [show (8 * j + k) / 8 = j by omega, show (8 * j + k) % 8 = k by omega] at hexact
  by_cases hbit : 8 * j + k < bitLength
  · have hagree := h (8 * j + k) hbit
    rw [bitAt, bitAt, show (8 * j + k) / 8 = j by omega, show (8 * j + k) % 8 = k by omega]
      at hagree
    rw [hagree]
  · rw [hexact, decide_eq_false hbit, Bool.and_false, Bool.and_false]

/-- With the right mask the number of bits is honoured. -/
theorem honoursBits_of_maskIsExact (hctx : ctx.Fits) (heven : ctx.nbRounds % 2 = 0)
    (hbits : bitLength ≤ 8 * ctx.byteLength) (hmask : MaskIsExact bitLength ctx) :
    HonoursBits bitLength ctx := by
  have hlength {input output : Bytes} (h : ffxEncrypt ctx input = .ok output) :
      input.length = ctx.byteLength := by
    by_contra hne
    rw [ffxEncrypt, if_pos hne] at h
    cases h
  refine ⟨fun input h => ?_, fun input output h i hi hlt => ?_,
    fun input input' output output' h h' hagree i hi => ?_, fun i hi => ?_⟩
  · obtain ⟨output, hrun, hlength, -⟩ := ffxEncrypt_masked hctx heven h
    exact ⟨output, hrun, hlength⟩
  · obtain ⟨output', hrun, -, -, hcopied⟩ := ffxEncrypt_masked hctx heven (hlength h)
    obtain rfl := Except.ok.inj (h.symm.trans hrun)
    have hbit := congrArg (bit · (i % 8)) (hcopied (i / 8) (by omega))
    simp only [bit_and, bit_not] at hbit
    rw [hmask i hlt, decide_eq_false (not_lt.mpr hi), Bool.not_false, Bool.and_true,
      Bool.and_true] at hbit
    exact hbit
  · obtain ⟨out, hrun, -, hsplit, -⟩ := ffxEncrypt_masked hctx heven (hlength h)
    obtain ⟨out', hrun', -, hsplit', -⟩ := ffxEncrypt_masked hctx heven (hlength h')
    obtain rfl := Except.ok.inj (h.symm.trans hrun)
    obtain rfl := Except.ok.inj (h'.symm.trans hrun')
    have hsame := (split_eq_iff hctx input input').mpr (agreeMasked_of_bits hmask hagree)
    rw [hsame, ← hsplit'] at hsplit
    have hbit := congrArg (bit · (i % 8))
      ((split_eq_iff hctx output output').mp hsplit (i / 8) (by omega))
    simp only [bit_and] at hbit
    rw [hmask i (by omega), decide_eq_true hi, Bool.and_true, Bool.and_true] at hbit
    exact hbit
  · rw [hmask i (by omega), decide_eq_true hi]

theorem zeros_getD (n i : ℕ) : (zeros n).getD i 0 = 0 := by
  rw [zeros, List.getD_eq_getElem?_getD, List.getElem?_replicate]
  split_ifs <;> rfl

/-- A cipher whose keystream is all ones puts the mask into a block of zeros. -/
theorem ffxEncrypt_ones (hctx : ctx.Fits) (hcipher : ctx.encCtx = fun _ _ => 0xFF)
    (hrounds : ctx.nbRounds = 2) (henc : ctx.isEnc = true) :
    ∃ output, ffxEncrypt ctx (zeros ctx.byteLength) = .ok output ∧
      output.getD (ctx.byteLength - 1) 0 = ctx.maskLastByte := by
  have hlt : ctx.nbRight - 1 < 16 := by
    have := hctx.right_le
    omega
  have hiterations : ctx.iterations = 1 := by
    rw [FfxContext.iterations, hrounds]
    rfl
  have hlast : lastOctet ctx (zeros ctx.byteLength) = 0 := by
    rw [lastOctet_eq hctx, zeros_getD]
  have hsplit : (split ctx (zeros ctx.byteLength)).2 ⟨ctx.nbRight - 1, hlt⟩ = 0 := by
    have hdrop : (zeros ctx.byteLength).drop ctx.nbLeft = zeros (ctx.byteLength - ctx.nbLeft) :=
      List.drop_replicate
    simp only [split, modifyAt, copyFirst, hdrop, zeros_getD, ite_self, UInt8.zero_and]
  have hright : (rounds ctx (split ctx (zeros ctx.byteLength))).2 ⟨ctx.nbRight - 1, hlt⟩ =
      ctx.maskLastByte := by
    rw [rounds, if_pos henc, hiterations]
    simp only [encryptLoop, passRight, ptlsFfxOnePass, xorFirst, hcipher, hsplit, if_true,
      lt_self_iff_false, if_false]
    rw [UInt8.zero_xor, UInt8.and_comm, and_ff]
  refine ⟨_, ffxEncrypt_eq ctx (by simp [zeros]), ?_⟩
  rw [← lastOctet_eq hctx, lastOctet_join hctx _ _ (i := ⟨ctx.nbRight - 1, hlt⟩) rfl, hright, hlast,
    UInt8.and_self, UInt8.zero_and, UInt8.or_zero]

/-- Where the number of bits is honoured for this cipher, the mask is right. -/
theorem maskIsExact_of_honoursBits (ctx : FfxContext) (hctx : ctx.Fits)
    (hcipher : ctx.encCtx = fun _ _ => 0xFF) (hrounds : ctx.nbRounds = 2) (henc : ctx.isEnc = true)
    (hlength : ctx.byteLength = (bitLength + 7) / 8) (h : HonoursBits bitLength ctx) :
    MaskIsExact bitLength ctx := by
  intro i hi
  by_cases hbit : i < bitLength
  · rw [h.takesPart i hbit, decide_eq_true hbit]
  · obtain ⟨output, hrun, hlast⟩ := ffxEncrypt_ones hctx hcipher hrounds henc
    have hcopied := h.copied _ _ hrun i (not_lt.mp hbit) hi
    have hoctet : i / 8 = ctx.byteLength - 1 := by omega
    rw [bitAt, bitAt, zeros_getD, hoctet, hlast] at hcopied
    rw [hoctet, FfxContext.maskAt, if_pos rfl, hcopied, decide_eq_false hbit]
    simp [bit]

/-- The masks are right for multiples of four only. -/
theorem maskIsExact_iff (hlow : 9 ≤ bitLength) (hlength : ctx.byteLength = (bitLength + 7) / 8)
    (hmask : ctx.maskLastByte = lastByteMask.getD (bitLength % 8) 0) :
    MaskIsExact bitLength ctx ↔ bitLength % 8 = 0 ∨ bitLength % 8 = 4 := by
  have htable : ∀ k < 8, (∀ j < 8, bit (lastByteMask.getD k 0) j = decide (j < k ∨ k = 0)) ↔
      k = 0 ∨ k = 4 := by decide
  rw [← htable (bitLength % 8) (Nat.mod_lt _ (by decide)), ← hmask]
  constructor
  · intro h j hj
    have hbit := h (8 * (ctx.byteLength - 1) + j) (by omega)
    rw [show (8 * (ctx.byteLength - 1) + j) / 8 = ctx.byteLength - 1 by omega,
      show (8 * (ctx.byteLength - 1) + j) % 8 = j by omega, FfxContext.maskAt, if_pos rfl] at hbit
    rw [hbit, decide_eq_decide]
    omega
  · intro h i hi
    unfold FfxContext.maskAt
    split_ifs with hlast
    · rw [h (i % 8) (Nat.mod_lt _ (by decide)), decide_eq_decide]
      omega
    · have hones : ∀ j < 8, bit 0xFF j = true := by decide
      rw [hones (i % 8) (Nat.mod_lt _ (by decide)), eq_comm, decide_eq_true_iff]
      omega

/-- The number of bits is honoured exactly if it is a multiple of four. -/
theorem ffx_bit_length_iff (bitLength : ℕ) (hlow : 9 ≤ bitLength) (hhigh : bitLength ≤ 256) :
    (∀ (encCtx : Block16 → Block16) (isEnc : Bool) (nbRounds : ℤ) (tweaks : Block16),
      nbRounds % 2 = 0 →
        ∃ ctx, ptlsFfxSetupCrypto (some encCtx) isEnc nbRounds bitLength = .ok ctx ∧
          HonoursBits bitLength (ffxInit ctx tweaks)) ↔
    bitLength % 8 = 0 ∨ bitLength % 8 = 4 := by
  constructor
  · intro h
    obtain ⟨ctx, hctx, hhonours⟩ := h (fun _ _ => 0xFF) true 2 (fun _ => 0) rfl
    obtain ⟨ctx', hctx', hfits, hcipher, hrounds, henc, hlength, hmask⟩ :=
      ptlsFfxSetupCrypto_ok (fun _ _ => 0xFF) true 2 hlow hhigh
    obtain rfl := Except.ok.inj (hctx.symm.trans hctx')
    exact (maskIsExact_iff hlow hlength hmask).mp (maskIsExact_of_honoursBits
      (ffxInit ctx fun _ => 0) ⟨hfits.sum, hfits.left_pos, hfits.right_pos, hfits.left_le,
        hfits.right_le⟩ hcipher hrounds henc hlength hhonours)
  · intro h encCtx isEnc nbRounds tweaks heven
    obtain ⟨ctx, hctx, hfits, -, hrounds, -, hlength, hmask⟩ :=
      ptlsFfxSetupCrypto_ok encCtx isEnc nbRounds hlow hhigh
    refine ⟨ctx, hctx, honoursBits_of_maskIsExact ⟨hfits.sum, hfits.left_pos, hfits.right_pos,
      hfits.left_le, hfits.right_le⟩ (by rw [← heven, ← hrounds]; rfl) ?_ ?_⟩
    · change bitLength ≤ 8 * ctx.byteLength
      omega
    · exact (maskIsExact_iff hlow hlength hmask).mpr h

/-- Blocks of twelve bits, under a cipher that returns its initialization vector. -/
theorem ffx_twelve_bits :
    ∃ ctx, ptlsFfxSetupCrypto (some id) true 4 12 = .ok ctx ∧
      HonoursBits 12 (ffxInit ctx fun _ => 7) :=
  (ffx_bit_length_iff 12 (by decide) (by decide)).mpr (.inr rfl) id true 4 (fun _ => 7) rfl

/-- Of nine bits the first one of the last octet is left; its other bits are changed. Of 39 bits
seven are in the last octet; only the first of them takes part. -/
theorem ffx_bit_length_violated :
    (∃ ctx output, ptlsFfxSetupCrypto (some fun _ _ => 0xFF) true 2 9 = .ok ctx ∧
      ffxEncrypt ctx [0, 0] = .ok output ∧ bitAt output 9 ≠ bitAt [0, 0] 9) ∧
    ∃ ctx, ptlsFfxSetupCrypto (some fun _ _ => 0xFF) true 2 39 = .ok ctx ∧
      ∀ i ∈ [33, 34, 35, 36, 37, 38], bit (ctx.maskAt (i / 8)) (i % 8) = false :=
  ⟨⟨_, _, rfl, rfl, by decide⟩, _, rfl, by decide⟩

end Picotls.Ffx
