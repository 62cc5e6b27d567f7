import Picotls.Ciphers.BlockModes

/-!
# The blocks that the ECB contexts transform

By contract the number of octets is any multiple of the block size. The contexts of minicrypto and
of fusion transform one block all the same, and that of bcrypt as many as the number has after it
was cut to 32 bits. Where that is all of them, the backends agree and decryption undoes encryption.
The output may take the place of the input; how `BCryptEncrypt` treats other overlaps is left open.
-/

namespace Picotls.BlockModes

open Foundation

/-! ## Blocks in memory -/

section

variable {f : ℕ → Bytes} (hf : ∀ i, (f i).length = blockSize)

include hf

/-- Blocks that were written are read back one by one. -/
theorem read_write_blocks (m : Memory) (p : ℕ) {i n : ℕ} (hi : i < n) :
    (m.write p (blocks f n)).read (p + blockSize * i) blockSize = f i := by
  induction n with
  | zero => omega
  | succ n ih =>
    rw [blocks_succ, ← Memory.write_write_append, blocks_length hf, Nat.mul_comm n]
    rcases Nat.lt_succ_iff_lt_or_eq.mp hi with hlt | rfl
    · rw [Memory.read_write_of_apart, ih hlt]
      left
      change p + 16 * i + 16 ≤ p + 16 * n
      omega
    · have hself := Memory.read_write_self (m.write p (blocks f i)) (p + blockSize * i) (f i)
      rwa [hf] at hself

end

/-- Octets are read block by block. -/
theorem blocks_read (m : Memory) (p n : ℕ) :
    blocks (fun i => m.read (p + blockSize * i) blockSize) n = m.read p (blockSize * n) := by
  induction n with
  | zero => rfl
  | succ n ih => rw [blocks_succ, ih, Nat.mul_succ, Memory.read_add]

theorem blocks_congr {f g : ℕ → Bytes} {n : ℕ} (h : ∀ i < n, f i = g i) :
    blocks f n = blocks g n := by
  induction n with
  | zero => rfl
  | succ n ih =>
    rw [blocks_succ, blocks_succ, h n (Nat.lt_succ_self n),
      ih fun i hi => h i (hi.trans (by omega))]

theorem ecbBlocks_one (f : Bytes → Bytes) (m : Memory) (input : ℕ) :
    ecbBlocks f m input 1 = f (m.read input blockSize) := by
  simp [ecbBlocks, blocks]

/-- It shows in some memory how many blocks were transformed. -/
theorem exists_write_ecbBlocks_ne {f : Bytes → Bytes} (hf : ∀ block, (f block).length = blockSize)
    {k n : ℕ} (h : k < n) :
    ∃ m : Memory, m.write 0 (ecbBlocks f m (blockSize * n) k) ≠
      m.write 0 (ecbBlocks f m (blockSize * n) n) := by
  -- the first octet behind the shorter output is not what the transformation of zeros begins with
  let octet := (f (zeros blockSize)).getD 0 0
  let m : Memory := fun a => if a = blockSize * k then octet + 1 else 0
  have hzeros : m.read (blockSize * n + blockSize * k) blockSize = zeros blockSize := by
    refine List.ext_getElem (by simp) fun i hi _ => ?_
    have hne : blockSize * n + blockSize * k + i ≠ blockSize * k := by
      change 16 * n + 16 * k + i ≠ 16 * k
      omega
    simp [m, Memory.read, zeros, hne]
  refine ⟨m, fun heq => ?_⟩
  have hlong : (m.write 0 (ecbBlocks f m (blockSize * n) n)).read (0 + blockSize * k) blockSize =
      f (zeros blockSize) :=
    (read_write_blocks (fun _ => hf _) m 0 h).trans (congrArg f hzeros)
  have hshort : (m.write 0 (ecbBlocks f m (blockSize * n) k)).read (0 + blockSize * k) blockSize =
      m.read (0 + blockSize * k) blockSize := by
    apply Memory.read_write_of_apart
    right
    rw [ecbBlocks, blocks_length fun i => hf _, Nat.mul_comm k]
  rw [heq, hlong] at hshort
  have hhead : octet = m (0 + blockSize * k) := by
    change (f (zeros blockSize)).getD 0 0 = _
    rw [hshort]
    rfl
  simp [m] at hhead

/-! ## Contexts -/

/-- The context writes as many octets as it is asked for, each block of which is the transformed
block of the input. -/
def Processes (ctx : CipherContext) (f : Bytes → Bytes) (len : ℕ) : Prop :=
  ∀ m output input, Placed output input len → ptlsCipherEncrypt ctx m output input len =
    .ok (m.write output (ecbBlocks f m input (len / blockSize)))

/-- The number of blocks that the context of a backend transforms. -/
def Backend.count (len : ℕ) : Backend → ℕ
  | minicrypto | fusion => 1
  | bcrypt => ulong len / blockSize

/-- The lengths for which the context of a backend does what it should. -/
def Backend.Handles (isEnc : Bool) (len : ℕ) : Backend → Prop
  | minicrypto => len = blockSize
  | bcrypt => len < 2 ^ 32
  | fusion => isEnc ∧ len = blockSize

section

variable {aes : Aes} {library : BCrypt} {isEnc : Bool} {key : Bytes} {len : ℕ} {backend : Backend}
  {ctx : CipherContext}

/-- Fusion has contexts for encryption. -/
theorem Backend.fusion_ecb (hctx : Backend.fusion.ecb aes library isEnc key = .ok ctx) :
    isEnc = true ∧ ctx = ⟨fun m output input _ =>
      .ok (ptlsFusionAesecbEncrypt aes ⟨key⟩ m output input)⟩ := by
  rw [Backend.ecb, ptlsFusionAesecbInit, assertThat, assertThat] at hctx
  split_ifs at hctx with henc hkey <;> cases hctx
  exact ⟨henc, rfl⟩

section

variable (hlibrary : library.Implements aes) (hctx : backend.ecb aes library isEnc key = .ok ctx)

include hlibrary hctx

/-- What the context of a backend does. -/
theorem Backend.ecb_run (hlen : blockSize ∣ len) (m : Memory) {output input : ℕ}
    (hplaces : Placed output input len) :
    ptlsCipherEncrypt ctx m output input len =
      .ok (m.write output (ecbBlocks (aes.transform isEnc key) m input (backend.count len))) := by
  have hassert : assertThat (len % blockSize = 0) = .ok () :=
    if_pos (Nat.mod_eq_zero_of_dvd hlen)
  cases backend with
  | minicrypto =>
    cases hctx
    rw [Backend.count, ecbBlocks_one]
    cases isEnc <;> exact (congrArg (· >>= _) hassert :)
  | bcrypt =>
    cases hctx
    have hsize : blockSize ∣ ulong len := (Nat.dvd_mod_iff (by decide)).mpr hlen
    have hwithin : Placed output input (ulong len) := by
      have hle : ulong len ≤ len := Nat.mod_le _ _
      unfold Placed at hplaces ⊢
      omega
    change ptlsBcryptCipherTransformEcb library isEnc key m output input len = _
    rw [ptlsBcryptCipherTransformEcb, hassert, hlibrary.transform_eq isEnc key m hsize hwithin]
    rfl
  | fusion =>
    obtain ⟨rfl, rfl⟩ := Backend.fusion_ecb hctx
    rw [Backend.count, ecbBlocks_one]
    rfl

/-- A context transforms every block exactly if it counts all of them. -/
theorem Backend.processes_iff (hlen : blockSize ∣ len) :
    Processes ctx (aes.transform isEnc key) len ↔ backend.count len = len / blockSize := by
  constructor
  · intro h
    by_contra hne
    have hruns (m : Memory) {input : ℕ} (hplaces : Placed 0 input len) :
        m.write 0 (ecbBlocks (aes.transform isEnc key) m input (backend.count len)) =
          m.write 0 (ecbBlocks (aes.transform isEnc key) m input (len / blockSize)) :=
      Except.ok.inj ((Backend.ecb_run hlibrary hctx hlen m hplaces).symm.trans (h m 0 _ hplaces))
    have hplaced {n : ℕ} (hn : len / blockSize ≤ n) : Placed 0 (blockSize * n) len := by
      have hle := Nat.mul_le_mul_left blockSize hn
      rw [Nat.mul_div_cancel' hlen] at hle
      exact .inr (.inl ((Nat.zero_add len).trans_le hle))
    rcases Nat.lt_or_gt_of_ne hne with hlt | hgt
    · obtain ⟨m, hm⟩ := exists_write_ecbBlocks_ne (aes.transform_length isEnc key) hlt
      exact hm (hruns m (hplaced le_rfl))
    · obtain ⟨m, hm⟩ := exists_write_ecbBlocks_ne (aes.transform_length isEnc key) hgt
      exact hm (hruns m (hplaced hgt.le)).symm
  · intro h m output input hplaces
    rw [Backend.ecb_run hlibrary hctx hlen m hplaces, h]

omit hlibrary in
/-- All blocks are counted for the lengths that are handled. -/
theorem Backend.count_eq_iff (hlen : blockSize ∣ len) :
    backend.count len = len / blockSize ↔ backend.Handles isEnc len := by
  obtain ⟨n, rfl⟩ := hlen
  cases backend with
  | minicrypto =>
    change 1 = 16 * n / 16 ↔ 16 * n = 16
    omega
  | bcrypt =>
    change 16 * n % 2 ^ 32 / 16 = 16 * n / 16 ↔ 16 * n < 2 ^ 32
    omega
  | fusion =>
    obtain ⟨rfl, -⟩ := Backend.fusion_ecb hctx
    change 1 = 16 * n / 16 ↔ true = true ∧ 16 * n = 16
    simp only [true_and]
    omega

end

/-- What is decrypted behind its encryption is the input. -/
theorem decrypt_encrypt_blocks {ctx' : CipherContext}
    (henc : Processes ctx (aes.transform true key) len)
    (hdec : Processes ctx' (aes.transform false key) len) (hlen : blockSize ∣ len) (m : Memory)
    {output input place : ℕ} (hplaces : Placed output input len)
    (hplace : Placed place output len) :
    ∃ m₁ m₂, ptlsCipherEncrypt ctx m output input len = .ok m₁ ∧
      ptlsCipherEncrypt ctx' m₁ place output len = .ok m₂ ∧
      m₂.read place len = m.read input len := by
  refine ⟨_, _, henc m output input hplaces, hdec _ place output hplace, ?_⟩
  have hblocks : ecbBlocks (aes.transform false key)
      (m.write output (ecbBlocks (aes.transform true key) m input (len / blockSize))) output
        (len / blockSize) = m.read input len := by
    calc
      _ = blocks (fun i => m.read (input + blockSize * i) blockSize) (len / blockSize) := by
        refine blocks_congr fun i hi => ?_
        rw [ecbBlocks, read_write_blocks (fun _ => aes.transform_length true key _) m output hi]
        exact aes.decrypt_encrypt key _ (Memory.read_length _ _ _)
      _ = m.read input len := by rw [blocks_read, Nat.mul_div_cancel' hlen]
  rw [hblocks]
  have hself := Memory.read_write_self
    (m.write output (ecbBlocks (aes.transform true key) m input (len / blockSize))) place
    (m.read input len)
  rwa [Memory.read_length] at hself

end

/-- For keys of AES and every multiple of the block size: a backend has a context that transforms
every block exactly for the lengths that it handles; contexts that handle a length agree on all
inputs, and decryption with them undoes encryption. -/
theorem ecb_processes_blocks_iff (aes : Aes) {library : BCrypt}
    (hlibrary : library.Implements aes) {key : Bytes} (hkey : key.length = 16 ∨ key.length = 32)
    {len : ℕ} (hlen : blockSize ∣ len) (backend other : Backend) :
    (∀ isEnc, (∃ ctx, backend.ecb aes library isEnc key = .ok ctx ∧
        Processes ctx (aes.transform isEnc key) len) ↔ backend.Handles isEnc len) ∧
      (∀ isEnc ctx ctx', backend.Handles isEnc len → other.Handles isEnc len →
        backend.ecb aes library isEnc key = .ok ctx → other.ecb aes library isEnc key = .ok ctx' →
          ∀ m output input, Placed output input len →
            ptlsCipherEncrypt ctx m output input len =
              ptlsCipherEncrypt ctx' m output input len) ∧
      (∀ ctx ctx', backend.Handles true len → other.Handles false len →
        backend.ecb aes library true key = .ok ctx → other.ecb aes library false key = .ok ctx' →
          ∀ m output input place, Placed output input len → Placed place output len →
            ∃ m₁ m₂, ptlsCipherEncrypt ctx m output input len = .ok m₁ ∧
              ptlsCipherEncrypt ctx' m₁ place output len = .ok m₂ ∧
                m₂.read place len = m.read input len) := by
  have hprocesses {b : Backend} {isEnc : Bool} {ctx : CipherContext}
      (hctx : b.ecb aes library isEnc key = .ok ctx) :
      Processes ctx (aes.transform isEnc key) len ↔ b.Handles isEnc len :=
    (Backend.processes_iff hlibrary hctx hlen).trans (Backend.count_eq_iff hctx hlen)
  refine ⟨fun isEnc => ⟨?_, fun h => ?_⟩, ?_, ?_⟩
  · rintro ⟨ctx, hctx, h⟩
    exact (hprocesses hctx).mp h
  · cases backend with
    | minicrypto => exact ⟨_, rfl, (hprocesses rfl).mpr h⟩
    | bcrypt => exact ⟨_, rfl, (hprocesses rfl).mpr h⟩
    | fusion =>
      have hctx : Backend.fusion.ecb aes library isEnc key = .ok ⟨fun m output input _ =>
          .ok (ptlsFusionAesecbEncrypt aes ⟨key⟩ m output input)⟩ := by
        rw [Backend.ecb, ptlsFusionAesecbInit, assertThat, if_pos h.1, assertThat, if_pos hkey]
        rfl
      exact ⟨_, hctx, (hprocesses hctx).mpr h⟩
  · intro isEnc ctx ctx' h h' hctx hctx' m output input hplaces
    rw [(hprocesses hctx).mpr h _ _ _ hplaces, (hprocesses hctx').mpr h' _ _ _ hplaces]
  · intro ctx ctx' h h' hctx hctx' m output input place
    exact decrypt_encrypt_blocks ((hprocesses hctx).mpr h) ((hprocesses hctx').mpr h') hlen m

/-- A library whose calls succeed for all sizes and places. -/
def Aes.library (aes : Aes) : BCrypt :=
  let call (f : Bytes → Bytes → Bytes) key m input size output _ : BCryptResult :=
    ⟨true, size, m.write output (ecbBlocks (f key) m input (size / blockSize))⟩
  ⟨call aes.encrypt, call aes.decrypt⟩

theorem Aes.library_implements (aes : Aes) : aes.library.Implements aes where
  transform_eq isEnc _ _ _ _ _ _ _ := by cases isEnc <;> rfl

/-- Two blocks are encrypted by bcrypt in the place where they are. -/
theorem ecb_processes_blocks_sample :
    (ptlsCipherEncrypt (ptlsBcryptCipherSetupCryptoAesEcb Aes.sample.library true (zeros 16))
        UInt8.ofNat 0 0 32).map (fun m => m.read 0 32) =
      .ok (((List.range' 1 16).reverse ++ (List.range' 17 16).reverse).map UInt8.ofNat) ∧
    ∃ ctx, Backend.bcrypt.ecb .sample Aes.sample.library true (zeros 16) = .ok ctx ∧
      Processes ctx (Aes.sample.transform true (zeros 16)) 32 :=
  ⟨rfl, ((ecb_processes_blocks_iff .sample Aes.sample.library_implements (.inl (zeros_length 16))
    (by decide : blockSize ∣ 32) .bcrypt .minicrypto).1 true).mpr (by decide : 32 < 2 ^ 32)⟩

/-- Of two blocks minicrypto encrypts the first one. -/
theorem ecb_minicrypto_leaves_block :
    (ptlsCipherEncrypt (aesecbSetupCrypto .sample true (zeros 16)) (fun _ => 0) 0 32 32).map
        (fun m => m.read 0 32) = .ok (List.replicate 16 1 ++ zeros 16) ∧
      ¬ Processes (aesecbSetupCrypto .sample true (zeros 16))
        (Aes.sample.transform true (zeros 16)) 32 := by
  constructor
  · rfl
  · intro h
    have hctx : Backend.minicrypto.ecb .sample Aes.sample.library true (zeros 16) =
        .ok (aesecbSetupCrypto .sample true (zeros 16)) := rfl
    have hcount := (Backend.processes_iff Aes.sample.library_implements hctx
      (by decide : blockSize ∣ 32)).mp h
    cases hcount

end Picotls.BlockModes
