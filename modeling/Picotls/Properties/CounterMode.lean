import Picotls.Ciphers.BlockModes
import Picotls.Foundation.Blocks

/-!
# Counter mode with bcrypt

A text is masked by the encrypted values of a counter of 128 bits. The counter is kept as it is
written; adding one to it goes from the last octet to the first as long as octets become zero. If
all of them do, the loop does not end there but goes on in front of the IV. A text is therefore
masked as it should be exactly if the counter does not pass the greatest value.
-/

namespace Picotls.BlockModes

open Foundation

variable {tail : Bytes} {ctx : SymmetricContext} {c input len output processed : ℕ}

/-! ## The counter -/

/-- A number ends with its last octet. -/
theorem toBE_succ_eq_append (w n : ℕ) : toBE (w + 1) n = toBE w (n / 256) ++ [UInt8.ofNat n] := by
  induction w with
  | zero => simp [toBE]
  | succ w ih =>
    have hhead : n / 256 ^ (w + 1) = n / 256 / 256 ^ w := by
      rw [pow_succ, Nat.mul_comm, Nat.div_div_eq_div_mul]
    rw [toBE, ih, hhead]
    rfl

/-- What there is to know of a context. -/
def SymmetricContext.parts (ctx : SymmetricContext) : Bytes × Bytes := (ctx.hKey, ctx.iv.val)

/-- Adding one gives the next number, or leaves the IV behind after the greatest one. -/
theorem incrementIv_parts (w : ℕ) (hiv : ctx.iv.val = toBE w c ++ tail) (hc : c < 256 ^ w) :
    (incrementIv w ctx).map SymmetricContext.parts =
      if c + 1 < 256 ^ w then .ok (ctx.hKey, toBE w (c + 1) ++ tail) else .error .undefined := by
  induction w generalizing ctx c tail with
  | zero =>
    have hlast : ¬ c + 1 < 256 ^ 0 := by omega
    rw [if_neg hlast]
    rfl
  | succ w ih =>
    have hwidth : 256 ^ (w + 1) = 256 * 256 ^ w := by rw [pow_succ, Nat.mul_comm]
    have hnext : (ctx.incrementAt w).iv.val = toBE w (c / 256) ++ (UInt8.ofNat c + 1) :: tail := by
      simp [SymmetricContext.incrementAt, hiv, toBE_succ_eq_append]
    have hget : (ctx.incrementAt w).iv.val.getD w 0 = UInt8.ofNat c + 1 := by
      simp [hnext]
    have hpos : 0 < UInt8.ofNat c + 1 ↔ (c + 1) % 256 ≠ 0 := by
      rw [← Nat.pos_iff_ne_zero, UInt8.lt_iff_toNat_lt, UInt8.toNat_add, UInt8.toNat_ofNat']
      simp
    simp only [incrementIv, hget, hpos]
    by_cases hcarry : (c + 1) % 256 = 0
    · have hdiv : (c + 1) / 256 = c / 256 + 1 := by omega
      have hfits : c + 1 < 256 ^ (w + 1) ↔ c / 256 + 1 < 256 ^ w := by omega
      rw [if_neg (not_not_intro hcarry), ih hnext (by omega)]
      simp [hfits, toBE_succ_eq_append, hdiv, SymmetricContext.incrementAt]
    · have hdiv : (c + 1) / 256 = c / 256 := by omega
      rw [if_pos hcarry, if_pos (by omega : c + 1 < 256 ^ (w + 1)), Except.map,
        SymmetricContext.parts, hnext, toBE_succ_eq_append, hdiv]
      simp [SymmetricContext.incrementAt]

/-! ## The text -/

/-- The octets that mask a text: the encrypted values of the counter from a first one on, modulo
2 ^ 128. -/
def keystream (aes : Aes) (key : Bytes) (counter i : ℕ) : UInt8 :=
  (aes.encrypt key (toBE blockSize (counter + i / blockSize))).getD (i % blockSize) 0

/-- The keystream from the second block on is that of the next counter. -/
theorem keystream_add (aes : Aes) (key : Bytes) (counter i : ℕ) :
    keystream aes key counter (blockSize + i) = keystream aes key (counter + 1) i := by
  rw [keystream, keystream, Nat.add_div_left i (by decide), Nat.add_mod_left, Nat.add_assoc,
    Nat.add_comm 1]

/-- The output may be written while the input is read: it is not ahead of the input, or it is
behind all of it. -/
def Readable (output input len : ℕ) : Prop := output ≤ input ∨ input + len ≤ output

/-- A block masks as much of the text as there is, up to its size. -/
theorem maskLoop_eq (hplaces : Readable output input len) (eiv : Bytes) (stream : ℕ → UInt8)
    (offset : ℕ) (m : Memory) (heiv : ∀ i < eiv.length, eiv.getD i 0 = stream (offset + i))
    (h : processed ≤ len) :
    maskLoop output input len eiv processed m =
      (processed + min eiv.length (len - processed),
        m.write (output + processed) (mask stream offset
          (m.read (input + processed) (min eiv.length (len - processed))))) := by
  induction eiv generalizing offset processed m with
  | nil => simp [maskLoop, mask]
  | cons octet eiv ih =>
    rw [maskLoop]
    split
    case isTrue hlt =>
      have hoctet : octet = stream offset := heiv 0 (by simp)
      have htail (i : ℕ) (hi : i < eiv.length) : eiv.getD i 0 = stream (offset + 1 + i) := by
        rw [Nat.add_assoc, Nat.add_comm 1 i, ← heiv (i + 1) (by simpa using hi)]
        rfl
      have hcount : min (octet :: eiv).length (len - processed) =
          1 + min eiv.length (len - (processed + 1)) := by
        rw [List.length_cons]
        omega
      have hone : m.read (input + processed) 1 = [m (input + processed)] := rfl
      have hapart : (m.write (output + processed) [m (input + processed) ^^^ octet]).read
            (input + (processed + 1)) (min eiv.length (len - (processed + 1))) =
          m.read (input + processed + 1) (min eiv.length (len - (processed + 1))) := by
        apply Memory.read_write_of_apart
        rw [List.length_singleton]
        unfold Readable at hplaces
        omega
      rw [ih (offset + 1) _ htail hlt, hapart, hcount, Memory.read_add, hone, mask_append,
        ← Memory.write_write_append]
      simp [mask, hoctet, Nat.add_assoc]
    case isFalse hge =>
      simp [show len - processed = 0 by omega, mask]

/-- The loop masks the rest of the text, if the counter does not pass the greatest value. -/
theorem transformCtrLoop_parts (aes : Aes) (hplaces : Readable output input len) (rest : ℕ)
    (hrest : processed + rest = len) (m : Memory) (hiv : ctx.iv.val = toBE blockSize c ++ tail)
    (hc : c < 256 ^ blockSize) :
    (transformCtrLoop aes output input len processed ctx m).map
        (Prod.map SymmetricContext.parts id) =
      if c + (rest + 15) / 16 < 256 ^ blockSize then
        .ok ((ctx.hKey, toBE blockSize (c + (rest + 15) / 16) ++ tail),
          m.write (output + processed)
            (mask (keystream aes ctx.hKey c) 0 (m.read (input + processed) rest)))
      else .error .undefined := by
  induction rest using Nat.strong_induction_on generalizing processed ctx c m with
  | _ rest ih =>
    rw [transformCtrLoop]
    rcases Nat.eq_zero_or_pos rest with rfl | hpos
    · rw [if_neg (by omega : ¬ processed < len), if_pos (by omega)]
      simp [Except.map, SymmetricContext.parts, hiv, mask]
    · rw [if_pos (by omega : processed < len)]
      have hlength : (aes.encrypt ctx.hKey (ctx.iv.val.take blockSize)).length = blockSize :=
        aes.encrypt_length _ _
      have hblock : ctx.iv.val.take blockSize = toBE blockSize c := by
        rw [hiv, List.take_append_of_le_length (by simp), List.take_of_length_le (by simp)]
      have heiv (i : ℕ) (hi : i < (aes.encrypt ctx.hKey (ctx.iv.val.take blockSize)).length) :
          (aes.encrypt ctx.hKey (ctx.iv.val.take blockSize)).getD i 0 =
            keystream aes ctx.hKey c (0 + i) := by
        rw [hlength] at hi
        rw [hblock, keystream, Nat.zero_add, Nat.div_eq_of_lt hi, Nat.mod_eq_of_lt hi, Nat.add_zero]
      obtain ⟨k, j, hk, rfl⟩ : ∃ k j, k = min blockSize rest ∧ rest = k + j :=
        ⟨_, _, rfl, (Nat.add_sub_cancel' (Nat.min_le_right blockSize rest)).symm⟩
      have hk' : k = min 16 (k + j) := hk
      have hremaining : len - processed = k + j := by omega
      simp only [maskLoop_eq hplaces _ _ 0 m heiv (by omega : processed ≤ len), hlength, hremaining,
        ← hk]
      have hincrement := incrementIv_parts blockSize hiv hc
      cases hnext : incrementIv blockSize ctx with
      | error fault =>
        rw [hnext] at hincrement
        split_ifs at hincrement with hlast <;> cases hincrement
        rw [if_neg (by omega)]
        rfl
      | ok next =>
        rw [hnext] at hincrement
        split_ifs at hincrement with hlast
        case neg => cases hincrement
        obtain ⟨hkey, hiv'⟩ := Prod.mk.inj (Except.ok.inj hincrement)
        -- the rest of the text is masked from the next value of the counter on
        have hmask : mask (keystream aes ctx.hKey c) 0 (m.read (input + processed) (k + j)) =
            mask (keystream aes ctx.hKey c) 0 (m.read (input + processed) k) ++
              mask (keystream aes ctx.hKey (c + 1)) 0 (m.read (input + (processed + k)) j) := by
          rw [Memory.read_add, mask_append, Nat.add_assoc input]
          congr 1
          apply mask_congr
          intro i hi
          rw [Memory.read_length] at hi
          rw [← keystream_add, Memory.read_length,
            show k = blockSize from by change k = 16; omega, Nat.zero_add,
            Nat.zero_add]
        have hapart : (m.write (output + processed)
              (mask (keystream aes ctx.hKey c) 0 (m.read (input + processed) k))).read
              (input + (processed + k)) j = m.read (input + (processed + k)) j := by
          apply Memory.read_write_of_apart
          rw [mask_length, Memory.read_length]
          unfold Readable at hplaces
          omega
        have hblocks : c + 1 + (j + 15) / 16 = c + (k + j + 15) / 16 := by omega
        have hwrite := Memory.write_write_append m (output + processed)
          (mask (keystream aes ctx.hKey c) 0 (m.read (input + processed) k))
          (mask (keystream aes ctx.hKey (c + 1)) 0 (m.read (input + (processed + k)) j))
        rw [mask_length, Memory.read_length, ← hmask, Nat.add_assoc] at hwrite
        dsimp only
        rw [ih j (by omega) (by omega : processed + k + j = len) _ hiv' hlast, hkey, hapart, hwrite,
          hblocks]

/-! ## Calls -/

/-- The call returns, has masked the text, and has changed nothing else but the first block of the
IV. -/
def MasksText (aes : Aes) (ctx : SymmetricContext) (m : Memory) (output input len : ℕ) : Prop :=
  ∃ next, ptlsBcryptCipherTransformCtr aes ctx m output input len =
      .ok (next, m.write output (mask
        (keystream aes ctx.hKey (ofBE (ctx.iv.val.take blockSize))) 0 (m.read input len))) ∧
    next.hKey = ctx.hKey ∧ next.iv.val.drop blockSize = ctx.iv.val.drop blockSize

/-- A text is masked exactly if the counter does not pass the greatest value. -/
theorem masksText_iff {aes : Aes} {m : Memory} (hplaces : Readable output input len) :
    MasksText aes ctx m output input len ↔
      ofBE (ctx.iv.val.take blockSize) + (len + 15) / 16 < 2 ^ 128 := by
  have hlength : (ctx.iv.val.take blockSize).length = blockSize := by
    rw [List.length_take, ctx.iv.property]
    rfl
  have hiv : ctx.iv.val =
      toBE blockSize (ofBE (ctx.iv.val.take blockSize)) ++ ctx.iv.val.drop blockSize := by
    have hblock := toBE_ofBE (ctx.iv.val.take blockSize)
    rw [hlength] at hblock
    rw [hblock, List.take_append_drop]
  have hc := ofBE_lt (ctx.iv.val.take blockSize)
  rw [hlength] at hc
  have hrun := transformCtrLoop_parts aes hplaces len (Nat.zero_add len) m hiv hc
  rw [MasksText, ptlsBcryptCipherTransformCtr, show 2 ^ 128 = 256 ^ blockSize by decide]
  cases hloop : transformCtrLoop aes output input len 0 ctx m with
  | error fault =>
    rw [hloop] at hrun
    split_ifs at hrun with hfits
    case pos => cases hrun
    simp [hfits]
  | ok result =>
    rw [hloop] at hrun
    split_ifs at hrun with hfits
    case neg => cases hrun
    obtain ⟨hparts, hmemory⟩ := Prod.mk.inj (Except.ok.inj hrun)
    obtain ⟨hkey, htail⟩ := Prod.mk.inj hparts
    simp only [hfits, iff_true]
    refine ⟨result.1, ?_, hkey, ?_⟩
    · exact congrArg Except.ok (Prod.ext rfl hmemory)
    · rw [htail, List.drop_append_of_le_length (by simp), List.drop_of_length_le (by simp),
        List.nil_append]

/-- A text that starts with an IV is masked by the encrypted values of the counter from the IV on,
with nothing else changed, exactly if the counter behind the last block is still one of 128 bits. -/
theorem transform_ctr_masks_iff (aes : Aes) (ctx : SymmetricContext)
    (iv : { octets : Bytes // octets.length = blockSize }) (m : Memory) {output input len : ℕ}
    (hplaces : Readable output input len) :
    MasksText aes (ptlsBcryptCipherInitCtr ctx (some iv)) m output input len ↔
      ofBE iv.val + (len + 15) / 16 < 2 ^ 128 := by
  rw [masksText_iff hplaces]
  simp [ptlsBcryptCipherInitCtr, SymmetricContext.copyIv, iv.property]

/-- A context with zeros for its IV. -/
def SymmetricContext.blank : SymmetricContext := ⟨[], ⟨zeros maxIvSize, zeros_length maxIvSize⟩⟩

/-- The counter carries into its first octet within a text of three blocks. -/
theorem transform_ctr_masks_iff_carries :
    MasksText .sample
      (ptlsBcryptCipherInitCtr .blank (some ⟨7 :: List.replicate 15 255, List.length_cons⟩))
      UInt8.ofNat 0 0 40 := by
  apply (transform_ctr_masks_iff .sample .blank ⟨7 :: List.replicate 15 255, List.length_cons⟩
    UInt8.ofNat (.inl le_rfl)).mpr
  decide

/-- One octet of text is enough to leave the IV behind, if all bits of the IV are set. -/
theorem transform_ctr_leaves_iv :
    ptlsBcryptCipherTransformCtr .sample
        (ptlsBcryptCipherInitCtr .blank (some ⟨List.replicate 16 255, List.length_replicate⟩))
        (fun _ => 0) 0 0 1 = .error .undefined ∧
      ¬ MasksText .sample
        (ptlsBcryptCipherInitCtr .blank (some ⟨List.replicate 16 255, List.length_replicate⟩))
        (fun _ => 0) 0 0 1 := by
  constructor
  · rw [ptlsBcryptCipherTransformCtr, transformCtrLoop]
    rfl
  · rw [masksText_iff (.inl le_rfl)]
    decide

end Picotls.BlockModes
