import Picotls.Foundation.BlockStream
import Picotls.Hashing.Hmac
import Picotls.Sample

/-!
# HKDF-Expand and P_hash

HKDF-Expand and P_hash are streams of blocks, each of which is an HMAC. The code computes the blocks
one after the other with a context that is keyed once: taking a digest with a reset leaves it keyed
with nothing absorbed, as it was when it was new, so every digest is the HMAC of what was fed since
the one before.
-/

namespace Picotls.Hashing

open Foundation Procedure

variable {message : Bytes} {t : Work} {i rounds : ℕ} {β : Type}

/-! ## Contexts -/

/-- The key, padded with zeros to a block. -/
def paddedKey (algo : HashAlgorithm) (key : Bytes) : Bytes :=
  key ++ zeros (algo.blockSize - key.length)

/-- A context that is keyed and has absorbed a message. -/
def keyed (algo : HashAlgorithm) (key message : Bytes) : HmacContext :=
  ⟨algo, (paddedKey algo key).map (· ^^^ 0x36) ++ message, paddedKey algo key⟩

variable {algo : HashAlgorithm} {key : Bytes} {provider : Provider} {w : Work} {ctx : HmacContext}
  {target : Target}

theorem hmacUpdate_run (hctx : w.hmac = some ctx) (src : Bytes) :
    hmacUpdate src provider w =
      (.ok (), { w with hmac := some { ctx with hash := ctx.hash ++ src } }) := by
  have hget : getHmac provider w = (.ok ctx, w) := by rw [getHmac, hctx]
  rw [hmacUpdate, bind_of_ok hget]
  rfl

/-- A keyed context absorbs more of a message. -/
theorem hmacUpdate_keyed (hctx : w.hmac = some (keyed algo key message)) (src : Bytes) :
    hmacUpdate src provider w =
      (.ok (), { w with hmac := some (keyed algo key (message ++ src)) }) := by
  rw [hmacUpdate_run hctx, keyed, keyed, List.append_assoc]

/-- The seed of P_hash: the label, if there is one, and the seed. -/
def labelledSeed (label : Option Bytes) (seed : Bytes) : Bytes := label.getD [] ++ seed

theorem updateLabelAndSeed_keyed (hctx : t.hmac = some (keyed algo key message))
    (label : Option Bytes) (seed : Bytes) :
    updateLabelAndSeed label seed provider t = (.ok (),
      { t with hmac := some (keyed algo key (message ++ labelledSeed label seed)) }) := by
  cases label with
  | none =>
    change hmacUpdate seed provider t = _
    rw [hmacUpdate_keyed hctx]
    rfl
  | some text =>
    have hlabel : runIf (some text ≠ none) (hmacUpdate ((some text).getD [])) provider t = _ :=
      hmacUpdate_keyed hctx text
    rw [updateLabelAndSeed, bind_of_ok hlabel, hmacUpdate_keyed rfl, List.append_assoc]
    rfl

theorem updateScratch_keyed {digest : Bytes} (hctx : t.hmac = some (keyed algo key []))
    (hdigest : t.scratch.read 0 algo.digestSize = digest) :
    updateScratch algo provider t =
      (.ok (), { t with hmac := some (keyed algo key digest) }) := by
  change hmacUpdate (t.scratch.read 0 algo.digestSize) provider t = _
  rw [hdigest, hmacUpdate_keyed hctx, List.nil_append]

theorem maskKey_run (hctx : w.hmac = some ctx) (pad : UInt8) :
    maskKey pad provider w =
      (.ok (), { w with hmac := some { ctx with key := ctx.key.map (· ^^^ pad) } }) := by
  have hget : getHmac provider w = (.ok ctx, w) := by rw [getHmac, hctx]
  rw [maskKey, bind_of_ok hget]
  rfl

/-- The key is as it was after it was masked twice. -/
theorem map_xor_map_xor (octets : Bytes) (pad : UInt8) :
    (octets.map (· ^^^ pad)).map (· ^^^ pad) = octets := by
  rw [List.map_map]
  conv_rhs => rw [← List.map_id octets]
  exact List.map_congr_left fun c _ => xor_xor_cancel c pad

theorem hmacApplyKey_run (hctx : w.hmac = some ctx) (pad : UInt8) :
    hmacApplyKey pad provider w = (.ok (), { w with
      hmac := some { ctx with hash := ctx.hash ++ ctx.key.map (· ^^^ pad) } }) := by
  rw [hmacApplyKey, bind_of_ok (maskKey_run hctx pad)]
  let masked : HmacContext := { ctx with key := ctx.key.map (· ^^^ pad) }
  let fed : HmacContext := { masked with hash := ctx.hash ++ ctx.key.map (· ^^^ pad) }
  change (maskKey pad) provider { w with hmac := some fed } = _
  rw [maskKey_run (rfl : ({ w with hmac := some fed } : Work).hmac = some fed)]
  simp only [fed, masked, map_xor_map_xor]

@[simp] theorem store_live (w : Work) (target : Target) (octets : Bytes) :
    (w.store target octets).live = w.live := by
  cases target <;> rfl

theorem store_setHmac (w : Work) (target : Target) (octets : Bytes) (ctx : Option HmacContext) :
    ({ w with hmac := ctx } : Work).store target octets =
      { w.store target octets with hmac := ctx } := by
  cases target <;> rfl

/-- A digest is stored over an earlier one. -/
theorem store_store (w : Work) (target : Target) {first second : Bytes}
    (h : first.length = second.length) :
    (w.store target first).store target second = w.store target second := by
  cases target with
  | scratch => simp only [Work.store, Memory.write_write_self _ _ h.le]
  | memory p => simp only [Work.store, Memory.write_write_self _ _ h.le]
  | null => rfl

/-- A digest that was stored is loaded. -/
theorem load_store (w : Work) (htarget : target ≠ .null) (octets : Bytes) :
    (w.store target octets).load target octets.length = octets := by
  cases target with
  | scratch => exact Memory.read_write_self w.scratch 0 octets
  | memory p => exact Memory.read_write_self w.memory p octets
  | null => exact absurd rfl htarget

/-! ## New contexts -/

/-- Both objects of a context are granted. -/
def Granted (provider : Provider) (w : Work) : Prop :=
  provider.grants w.requests = true ∧ provider.grants (w.requests + 1) = true

theorem allocate_granted (h : provider.grants w.requests = true) :
    allocate provider w =
      (.ok true, { w with requests := w.requests + 1, live := w.live + 1 }) := by
  simp [allocate, h]

theorem allocate_refused (h : provider.grants w.requests = false) :
    allocate provider w = (.ok false, { w with requests := w.requests + 1 }) := by
  simp [allocate, h]

/-- A new context is keyed; without memory for both of its parts there is none, and what was
obtained is released. -/
theorem ptlsHmacCreate_run (hkey : key.length ≤ algo.blockSize) (provider : Provider) (w : Work) :
    Granted provider w ∧ ptlsHmacCreate algo key provider w = (.ok true,
      { w with hmac := some (keyed algo key []), live := w.live + 2, requests := w.requests + 2 }) ∨
    ¬ Granted provider w ∧ ∃ requests, ptlsHmacCreate algo key provider w =
      (.ok false, { w with requests }) := by
  unfold ptlsHmacCreate
  rw [runIf, if_neg (by omega)]
  change _ ∧ (allocate >>= fun granted => _) provider w = _ ∨
    _ ∧ ∃ requests, (allocate >>= fun granted => _) provider w = _
  cases hfirst : provider.grants w.requests with
  | false =>
    rw [bind_of_ok (allocate_refused hfirst)]
    exact .inr ⟨fun h => absurd (h.1.symm.trans hfirst) (by decide), _, rfl⟩
  | true =>
    let one : Work := { w with requests := w.requests + 1, live := w.live + 1 }
    rw [bind_of_ok (allocate_granted hfirst)]
    change _ ∧ (allocate >>= fun granted => _) provider one = _ ∨
      _ ∧ ∃ requests, (allocate >>= fun granted => _) provider one = _
    cases hsecond : provider.grants (w.requests + 1) with
    | false =>
      rw [bind_of_ok (allocate_refused (w := one) hsecond)]
      exact .inr ⟨fun h => absurd (h.2.symm.trans hsecond) (by decide), _, rfl⟩
    | true =>
      let new : Work := { w with
        requests := w.requests + 2, live := w.live + 2,
        hmac := some ⟨algo, [], paddedKey algo key⟩ }
      have happly : hmacApplyKey 0x36 provider new = _ := hmacApplyKey_run rfl 0x36
      rw [bind_of_ok (allocate_granted (w := one) hsecond)]
      refine .inl ⟨⟨hfirst, hsecond⟩, ?_⟩
      change (hmacApplyKey 0x36 >>= fun _ => pure true) provider new = _
      rw [bind_of_ok happly, keyed, List.append_nil]
      rfl

theorem createOrFail_run (hkey : key.length ≤ algo.blockSize) (provider : Provider) (w : Work) :
    Granted provider w ∧ createOrFail algo key provider w = (.ok (),
      { w with hmac := some (keyed algo key []), live := w.live + 2, requests := w.requests + 2 }) ∨
    ¬ Granted provider w ∧ ∃ requests, createOrFail algo key provider w =
      (.error (.code Error.noMemory), { w with requests }) := by
  rcases ptlsHmacCreate_run hkey provider w with ⟨hgranted, hrun⟩ | ⟨hrefused, requests, hrun⟩
  · rw [createOrFail, bind_of_ok hrun]
    exact .inl ⟨hgranted, rfl⟩
  · rw [createOrFail, bind_of_ok hrun]
    exact .inr ⟨hrefused, requests, rfl⟩

/-! ## The streams -/

variable [Crypto]

/-- The octet strings T(0), T(1), ... of HKDF-Expand. -/
def hkdfBlock (algo : HashAlgorithm) (prk info : Bytes) : ℕ → Bytes
  | 0 => []
  | i + 1 => hmac algo prk (hkdfBlock algo prk info i ++ info ++ [UInt8.ofNat (i + 1)])

/-- HKDF-Expand: the first octets of T(1) | T(2) | ... -/
def hkdfExpand (algo : HashAlgorithm) (prk info : Bytes) (len : ℕ) : Bytes :=
  streamOctets (fun i => hkdfBlock algo prk info (i + 1)) algo.digestSize len

/-- The octet strings A(0), A(1), ... of P_hash. -/
def phashChain (algo : HashAlgorithm) (secret seed : Bytes) : ℕ → Bytes
  | 0 => seed
  | i + 1 => hmac algo secret (phashChain algo secret seed i)

/-- A block of P_hash: HMAC(secret, A(1) + seed) is the first one. -/
def phashBlock (algo : HashAlgorithm) (secret seed : Bytes) (i : ℕ) : Bytes :=
  hmac algo secret (phashChain algo secret seed (i + 1) ++ seed)

/-- P_hash: the first octets of its blocks. -/
def pHash (algo : HashAlgorithm) (secret seed : Bytes) (len : ℕ) : Bytes :=
  streamOctets (phashBlock algo secret seed) algo.digestSize len

variable {prk info secret seed : Bytes}

/-! ## Digests -/

theorem hmac_eq (hkey : key.length ≤ algo.blockSize) (message : Bytes) :
    hmac algo key message = Crypto.hash algo ((paddedKey algo key).map (· ^^^ 0x5c) ++
      Crypto.hash algo ((paddedKey algo key).map (· ^^^ 0x36) ++ message)) := by
  have hpadded : (key ++ zeros algo.blockSize).take algo.blockSize = paddedKey algo key := by
    rw [List.take_append, List.take_of_length_le hkey, paddedKey]
    congr 1
    simp [zeros]
  rw [hmac, Picotls.hmacApplyKey, Picotls.hmacApplyKey, hpadded]

/-- The digest of what a hash context has absorbed is stored. -/
theorem hashFinal_reset (hctx : w.hmac = some ctx) (htarget : target ≠ .null) :
    hashFinal target .reset provider w = (.ok (),
      { w.store target (Crypto.hash ctx.algo ctx.hash) with
        hmac := some { ctx with hash := [] } }) := by
  have hget : getHmac provider w = (.ok ctx, w) := by rw [getHmac, hctx]
  rw [hashFinal, bind_of_ok hget, runIf, if_pos htarget]
  rfl

theorem hashFinal_free (hctx : w.hmac = some ctx) (htarget : target ≠ .null) :
    hashFinal target .free provider w = (.ok (),
      { w.store target (Crypto.hash ctx.algo ctx.hash) with live := w.live - 1 }) := by
  have hget : getHmac provider w = (.ok ctx, w) := by rw [getHmac, hctx]
  rw [hashFinal, bind_of_ok hget, runIf, if_pos htarget]
  cases target <;> rfl

/-- What the context has absorbed when the second digest of an HMAC is taken. -/
def outerContext (algo : HashAlgorithm) (key message : Bytes) : HmacContext :=
  ⟨algo, (paddedKey algo key).map (· ^^^ 0x5c) ++
    Crypto.hash algo ((paddedKey algo key).map (· ^^^ 0x36) ++ message), paddedKey algo key⟩

/-- The first digest of an HMAC is fed back behind the masked key. -/
theorem hmacFinal_eq (hctx : w.hmac = some (keyed algo key message)) (htarget : target ≠ .null)
    {mode : FinalMode} (hmode : mode ≠ .snapshot) :
    hmacFinal target mode provider w =
      (hashFinal target mode >>= fun _ => match mode with
        | .free => do
          setHmac none
          release
        | .reset => hmacApplyKey 0x36
        | .snapshot => fail .assertion) provider
        { w.store target (Crypto.hash algo ((paddedKey algo key).map (· ^^^ 0x36) ++ message)) with
          hmac := some (outerContext algo key message) } := by
  have hget : getHmac provider w = (.ok (keyed algo key message), w) := by rw [getHmac, hctx]
  let inner := Crypto.hash algo ((paddedKey algo key).map (· ^^^ 0x36) ++ message)
  let taken : Work := { w.store target inner with hmac := some ⟨algo, [], paddedKey algo key⟩ }
  let masked : Work := { w.store target inner with
    hmac := some ⟨algo, (paddedKey algo key).map (· ^^^ 0x5c), paddedKey algo key⟩ }
  have hinner : hashFinal target .reset provider w = (.ok (), taken) := hashFinal_reset hctx htarget
  have hmask : hmacApplyKey 0x5c provider taken = (.ok (), masked) :=
    hmacApplyKey_run (rfl : taken.hmac = some ⟨algo, [], paddedKey algo key⟩) 0x5c
  have hload : masked.load target algo.digestSize = inner := by
    have hstored := load_store w htarget inner
    rw [Crypto.hash_length] at hstored
    cases target with
    | scratch => exact hstored
    | memory p => exact hstored
    | null => exact absurd rfl htarget
  have hback : runIf (target ≠ .null) (do
      hashFinal target .reset
      hmacApplyKey 0x5c
      let md ← observe fun _ w => w.load target algo.digestSize
      hmacUpdate md) provider w =
      (.ok (), { w.store target inner with hmac := some (outerContext algo key message) }) := by
    rw [runIf, if_pos htarget, bind_of_ok hinner, bind_of_ok hmask]
    change hmacUpdate (masked.load target algo.digestSize) provider masked = _
    rw [hload]
    exact hmacUpdate_run (rfl : masked.hmac =
      some ⟨algo, (paddedKey algo key).map (· ^^^ 0x5c), paddedKey algo key⟩) inner
  unfold hmacFinal
  rw [runIf, if_neg hmode]
  change (getHmac >>= fun ctx => _) provider w = _
  rw [bind_of_ok hget]
  exact bind_of_ok hback

/-- The second digest is stored over the first one. -/
theorem store_outer (w : Work) (target : Target) (hkey : key.length ≤ algo.blockSize)
    (message : Bytes) (ctx : Option HmacContext) :
    ({ w.store target (Crypto.hash algo ((paddedKey algo key).map (· ^^^ 0x36) ++ message)) with
      hmac := ctx } : Work).store target
        (Crypto.hash algo (outerContext algo key message).hash) =
      { w.store target (hmac algo key message) with hmac := ctx } := by
  rw [store_setHmac, store_store _ _ (by rw [Crypto.hash_length, Crypto.hash_length]), hmac_eq hkey]
  rfl

/-- Taking a digest with a reset gives the HMAC of what was fed, and leaves the context keyed as it
was when it was new. -/
theorem hmacFinal_reset (hkey : key.length ≤ algo.blockSize)
    (hctx : w.hmac = some (keyed algo key message)) (htarget : target ≠ .null) :
    hmacFinal target .reset provider w = (.ok (),
      { w.store target (hmac algo key message) with hmac := some (keyed algo key []) }) := by
  have hdigest : hashFinal target .reset provider { w.store target (Crypto.hash algo
      ((paddedKey algo key).map (· ^^^ 0x36) ++ message)) with
      hmac := some (outerContext algo key message) } = _ := hashFinal_reset rfl htarget
  rw [hmacFinal_eq hctx htarget (by decide), bind_of_ok hdigest]
  change hmacApplyKey 0x36 provider { Work.store _ target
    (Crypto.hash algo (outerContext algo key message).hash) with hmac := _ } = _
  rw [store_outer w target hkey message]
  have happly : hmacApplyKey 0x36 provider { w.store target (hmac algo key message) with
      hmac := some ⟨algo, [], paddedKey algo key⟩ } = _ := hmacApplyKey_run rfl 0x36
  rw [keyed, List.append_nil]
  exact happly

/-- Taking the last digest gives the HMAC of what was fed, and releases the context. -/
theorem hmacFinal_free (hkey : key.length ≤ algo.blockSize)
    (hctx : w.hmac = some (keyed algo key message)) (htarget : target ≠ .null) :
    hmacFinal target .free provider w = (.ok (),
      { w.store target (hmac algo key message) with hmac := none, live := w.live - 2 }) := by
  have hdigest : hashFinal target .free provider { w.store target (Crypto.hash algo
      ((paddedKey algo key).map (· ^^^ 0x36) ++ message)) with
      hmac := some (outerContext algo key message) } = _ := hashFinal_free rfl htarget
  rw [hmacFinal_eq hctx htarget (by decide), bind_of_ok hdigest]
  change (Except.ok (), ({ Work.store _ target
    (Crypto.hash algo (outerContext algo key message).hash) with hmac := _, live := _ } : Work)) = _
  rw [store_outer w target hkey message]
  simp only [store_live, Nat.sub_sub]

/-- A context can be released without taking a digest. -/
theorem hmacFinal_null (hctx : w.hmac = some ctx) :
    hmacFinal .null .free provider w =
      (.ok (), { w with hmac := none, live := w.live - 2 }) := by
  have hget : getHmac provider w = (.ok ctx, w) := by rw [getHmac, hctx]
  have hrelease : hashFinal .null .free provider w =
      (.ok (), { w with live := w.live - 1 }) := by
    rw [hashFinal, bind_of_ok hget]
    rfl
  unfold hmacFinal
  change (getHmac >>= fun ctx => runIf (Target.null ≠ .null) _ >>= fun _ =>
    hashFinal .null .free >>= fun _ => _) provider w = _
  rw [bind_of_ok hget, runIf, if_neg (by decide)]
  change (hashFinal .null .free >>= fun _ => _) provider w = _
  rw [bind_of_ok hrelease]
  rfl

/-! ## HKDF-Expand -/

variable {output outlen : ℕ}

/-- The work after a number of blocks of HKDF-Expand. -/
structure Expanded (algo : HashAlgorithm) (prk info : Bytes) (output outlen : ℕ) (w : Work) (i : ℕ)
    (t : Work) : Prop where
  hmac : t.hmac = some (keyed algo prk [])
  digest : t.scratch.read 0 algo.digestSize = hkdfBlock algo prk info i
  memory : t.memory = w.memory.write output
    ((blocks (fun i => hkdfBlock algo prk info (i + 1)) i).take outlen)
  live : t.live = w.live + 2

theorem hkdfBlock_length (algo : HashAlgorithm) (prk info : Bytes) (i : ℕ) :
    (hkdfBlock algo prk info (i + 1)).length = algo.digestSize := hmac_length _ _ _

/-- The part of a block behind its start, from when its context is ready. -/
theorem expandBlock_finish (hkey : prk.length ≤ algo.blockSize) {u : Work}
    (hstart : startBlock algo prk provider t = (.ok (), u))
    (hhmac : u.hmac = some (keyed algo prk (hkdfBlock algo prk info i)))
    (hmemory : u.memory = w.memory.write output
      (blocks (fun i => hkdfBlock algo prk info (i + 1)) i))
    (hlive : u.live = w.live + 2) (hi : i * algo.digestSize < outlen)
    (hfits : outlen + algo.digestSize ≤ 2 ^ 64) :
    ∃ v, expandBlock algo output outlen prk info i provider t = (.ok (), v) ∧
      Expanded algo prk info output outlen w (i + 1) v := by
  have hstartSize : toSize (i * algo.digestSize) = i * algo.digestSize :=
    Nat.mod_eq_of_lt (by omega)
  have hendSize : toSize (i * algo.digestSize + algo.digestSize) =
      i * algo.digestSize + algo.digestSize := Nat.mod_eq_of_lt (by omega)
  have hcopied : toSize ((if outlen < i * algo.digestSize + algo.digestSize then outlen
      else i * algo.digestSize + algo.digestSize) + 2 ^ 64 - i * algo.digestSize) =
      min (outlen - i * algo.digestSize) algo.digestSize := by
    rw [toSize]
    split <;> omega
  let fed : Work := { u with hmac := some (keyed algo prk
    (hkdfBlock algo prk info i ++ info ++ [UInt8.ofNat (i + 1)])) }
  let done : Work := { u with
    scratch := u.scratch.write 0 (hkdfBlock algo prk info (i + 1)),
    hmac := some (keyed algo prk []) }
  have hinfo : hmacUpdate info provider u = _ := hmacUpdate_keyed hhmac info
  have hgen : hmacUpdate [UInt8.ofNat (i + 1)] provider
      { u with hmac := some (keyed algo prk (hkdfBlock algo prk info i ++ info)) } =
      (.ok (), fed) := hmacUpdate_keyed rfl _
  have hfinal : hmacFinal .scratch .reset provider fed = (.ok (), done) :=
    hmacFinal_reset hkey rfl (by decide)
  have hread : done.scratch.read 0 algo.digestSize = hkdfBlock algo prk info (i + 1) := by
    rw [← hkdfBlock_length algo prk info i]
    exact Memory.read_write_self u.scratch 0 _
  have hcut : (hkdfBlock algo prk info (i + 1)).take (outlen - i * algo.digestSize) =
      (hkdfBlock algo prk info (i + 1)).take
        (min (outlen - i * algo.digestSize) algo.digestSize) := by
    conv_lhs => rw [List.take_eq_take_min, hkdfBlock_length]
  rw [expandBlock, bind_of_ok hstart, bind_of_ok hinfo, bind_of_ok hgen, bind_of_ok hfinal]
  refine ⟨_, rfl, rfl, hread, ?_, hlive⟩
  change u.memory.write (output + toSize (i * algo.digestSize)) (done.scratch.read 0 _) = _
  rw [hstartSize, hendSize, hcopied, ← Memory.read_take _ _ (min_le_right _ _), hread, hmemory,
    ← hcut]
  exact write_blocks_succ (hkdfBlock_length algo prk info) w.memory output hi.le

/-- The context goes on from the previous digest. -/
theorem startBlock_next (h : Expanded algo prk info output outlen w i t) :
    startBlock algo prk provider t =
      (.ok (), { t with hmac := some (keyed algo prk (hkdfBlock algo prk info i)) }) := by
  change (if t.hmac.isNone then createOrFail algo prk else updateScratch algo : Proc Unit)
    provider t = _
  rw [h.hmac, if_neg (by simp)]
  exact updateScratch_keyed h.hmac h.digest

/-- The blocks that were computed are a part of the output. -/
theorem Expanded.memory_eq (h : Expanded algo prk info output outlen w i t)
    (hi : i * algo.digestSize ≤ outlen) :
    t.memory = w.memory.write output (blocks (fun i => hkdfBlock algo prk info (i + 1)) i) := by
  rw [h.memory, List.take_of_length_le]
  rw [blocks_length (hkdfBlock_length algo prk info)]
  exact hi

/-- The loop goes on until there is enough output. -/
theorem expandLoop_run (hkey : prk.length ≤ algo.blockSize)
    (hfits : outlen + algo.digestSize ≤ 2 ^ 64) (h : Expanded algo prk info output outlen w i t)
    (hrounds : outlen < i + rounds) (hless : i * algo.digestSize < outlen + algo.digestSize) :
    ∃ n u, expandLoop algo output outlen prk info rounds i provider t = (.ok (), u) ∧
      Expanded algo prk info output outlen w n u ∧ outlen ≤ n * algo.digestSize := by
  have hpos := algo.digestSize_pos
  induction rounds generalizing i t with
  | zero =>
    obtain ⟨j, rfl⟩ : ∃ j, i = j + 1 := Nat.exists_eq_succ_of_ne_zero (by omega)
    have hle : j ≤ j * algo.digestSize := Nat.le_mul_of_pos_right j hpos
    rw [Nat.succ_mul] at hless
    omega
  | succ rounds ih =>
    have hsize : toSize (i * algo.digestSize) = i * algo.digestSize :=
      Nat.mod_eq_of_lt (by omega)
    rw [expandLoop, hsize]
    by_cases hi : i * algo.digestSize < outlen
    · have hstart : startBlock algo prk provider t = _ := startBlock_next h
      obtain ⟨u, hblock, hexpanded⟩ := expandBlock_finish hkey hstart rfl (h.memory_eq hi.le) h.live
        hi hfits
      rw [if_pos hi, bind_of_ok hblock]
      refine ih hexpanded (by omega) ?_
      rw [Nat.succ_mul]
      omega
    · rw [if_neg hi]
      exact ⟨i, t, rfl, h, by omega⟩

/-- How a derivation ends: the result is written to where it is asked for and nowhere else, or there
is no memory for a context and nothing is written. Nothing stays allocated. -/
inductive Derives (provider : Provider) (w : Work) (output : ℕ) (result : Bytes) :
    Except Stop Unit × Work → Prop
  | written {t : Work} (memory : t.memory = w.memory.write output result)
      (live : t.live = w.live) : Derives provider w output result (.ok (), t)
  | refused {t : Work} (refused : ¬ Granted provider w) (memory : t.memory = w.memory)
      (live : t.live = w.live) :
      Derives provider w output result (.error (.code Error.noMemory), t)

/-- `ptls_hkdf_expand` writes HKDF-Expand. -/
theorem ptlsHkdfExpand_derives (hkey : prk.length ≤ algo.blockSize) (provider : Provider) (w : Work)
    (output : ℕ) (info : Bytes) (hlen : outlen ≤ 255 * algo.digestSize) :
    Derives provider w output (hkdfExpand algo prk info outlen)
      (ptlsHkdfExpand algo output outlen prk info provider w) := by
  have hpos := algo.digestSize_pos
  have hmax := algo.digestSize_le
  have hfits : outlen + algo.digestSize ≤ 2 ^ 64 := by
    have hsmall : maxDigestSize = 64 := rfl
    omega
  let idle : Work := { w with hmac := none }
  change Derives provider w output _ ((expandLoop algo output outlen prk info (outlen + 1) 0 >>=
    fun _ => observe (fun _ w => w.hmac.isNone) >>= fun isNew => _) provider idle)
  have hzero : toSize (0 * algo.digestSize) = 0 := by rw [toSize, Nat.zero_mul, Nat.zero_mod]
  rw [expandLoop, hzero]
  by_cases hempty : 0 < outlen
  swap
  · obtain rfl : outlen = 0 := by omega
    rw [if_neg hempty]
    refine .written ?_ rfl
    rw [hkdfExpand, streamOctets, List.take_zero, Memory.write_nil]
  rw [if_pos hempty]
  have hcreate : startBlock algo prk provider idle = createOrFail algo prk provider idle := rfl
  rcases createOrFail_run hkey provider idle with ⟨-, hnew⟩ | ⟨hrefused, requests, hnew⟩
  · obtain ⟨t, hblock, hfirst⟩ : ∃ t, expandBlock algo output outlen prk info 0 provider idle =
        (.ok (), t) ∧ Expanded algo prk info output outlen w (0 + 1) t :=
      expandBlock_finish hkey (hcreate.trans hnew) rfl (by rw [blocks_zero, Memory.write_nil]) rfl
        (by omega) hfits
    obtain ⟨n, u, hrest, hlast, hn⟩ : ∃ n u, expandLoop algo output outlen prk info outlen (0 + 1)
        provider t = (.ok (), u) ∧ Expanded algo prk info output outlen w n u ∧
        outlen ≤ n * algo.digestSize :=
      expandLoop_run hkey hfits hfirst (by omega) (by omega)
    have hloop : (expandBlock algo output outlen prk info 0 >>= fun _ =>
        expandLoop algo output outlen prk info outlen (0 + 1)) provider idle = (.ok (), u) := by
      rw [bind_of_ok hblock, hrest]
    have hfree : runIf (u.hmac.isNone = false) (hmacFinal .null .free) provider u =
        (.ok (), { u with hmac := none, live := u.live - 2 }) := by
      rw [runIf, if_pos (by rw [hlast.hmac]; rfl)]
      exact hmacFinal_null hlast.hmac
    rw [bind_of_ok hloop]
    change Derives provider w output _ ((runIf (u.hmac.isNone = false) (hmacFinal .null .free) >>=
      fun _ => clearScratch algo.digestSize) provider u)
    rw [bind_of_ok hfree]
    refine .written ?_ ?_
    · rw [hkdfExpand, streamOctets_eq (hkdfBlock_length algo prk info) hpos hn]
      exact hlast.memory
    · exact Nat.sub_eq_of_eq_add hlast.live
  · have hblock : expandBlock algo output outlen prk info 0 provider idle = _ :=
      bind_of_error (hcreate.trans hnew)
    rw [bind_of_error (bind_of_error hblock)]
    exact .refused hrefused rfl rfl

/-! ## P_hash -/

variable {label : Option Bytes}

theorem phashBlock_length (algo : HashAlgorithm) (secret seed : Bytes) (i : ℕ) :
    (phashBlock algo secret seed i).length = algo.digestSize := hmac_length _ _ _

/-- The work after a number of blocks of P_hash. -/
structure Hashed (algo : HashAlgorithm) (secret seed : Bytes) (output : ℕ) (w : Work) (i : ℕ)
    (t : Work) : Prop where
  hmac : t.hmac = some (keyed algo secret [])
  digest : t.scratch.read 0 algo.digestSize = phashChain algo secret seed (i + 1)
  memory : t.memory = w.memory.write output (blocks (phashBlock algo secret seed) i)
  live : t.live = w.live + 2

/-- What a digest that was taken into the local array reads as. -/
theorem read_scratch_hmac (m : Memory) (algo : HashAlgorithm) (key message : Bytes) :
    (m.write 0 (hmac algo key message)).read 0 algo.digestSize = hmac algo key message := by
  rw [← hmac_length algo key message]
  exact Memory.read_write_self m 0 _

/-- The next block of P_hash is fed to the context. -/
theorem feedBlock_run (h : Hashed algo secret (labelledSeed label seed) output w i t)
    (rest : Proc β) :
    (updateScratch algo >>= fun _ => updateLabelAndSeed label seed >>= fun _ => rest) provider t =
      rest provider { t with hmac := some (keyed algo secret
        (phashChain algo secret (labelledSeed label seed) (i + 1) ++
          labelledSeed label seed)) } := by
  rw [bind_of_ok (updateScratch_keyed h.hmac h.digest),
    bind_of_ok (updateLabelAndSeed_keyed rfl label seed)]

/-- A block in the middle goes to the output, and the chain goes on. -/
theorem middleBlock_run (provider : Provider) (hkey : secret.length ≤ algo.blockSize)
    (h : Hashed algo secret seed output w i t) (rest : Proc β) :
    ∃ u, Hashed algo secret seed output w (i + 1) u ∧
      (hmacFinal (.memory (output + i * algo.digestSize)) .reset >>= fun _ =>
        updateScratch algo >>= fun _ => hmacFinal .scratch .reset >>= fun _ => rest) provider
        { t with hmac := some (keyed algo secret
          (phashChain algo secret seed (i + 1) ++ seed)) } = rest provider u := by
  let fed : Work := { t with hmac := some (keyed algo secret
    (phashChain algo secret seed (i + 1) ++ seed)) }
  let written : Work := { t with
    memory := t.memory.write (output + i * algo.digestSize) (phashBlock algo secret seed i),
    hmac := some (keyed algo secret []) }
  let chained : Work := { written with hmac := some (keyed algo secret
    (phashChain algo secret seed (i + 1))) }
  let done : Work := { written with
    scratch := t.scratch.write 0 (phashChain algo secret seed (i + 2)) }
  have hblock : hmacFinal (.memory (output + i * algo.digestSize)) .reset provider fed =
      (.ok (), written) := hmacFinal_reset hkey rfl (by simp)
  have hchain : updateScratch algo provider written = (.ok (), chained) :=
    updateScratch_keyed rfl h.digest
  have hnext : hmacFinal .scratch .reset provider chained = (.ok (), done) :=
    hmacFinal_reset hkey rfl (by decide)
  refine ⟨done, ⟨rfl, read_scratch_hmac t.scratch algo secret _, ?_, h.live⟩, ?_⟩
  · change t.memory.write _ _ = _
    rw [h.memory, ← blocks_length (phashBlock_length algo secret seed) i,
      Memory.write_write_append, blocks_succ]
  · rw [bind_of_ok hblock, bind_of_ok hchain, bind_of_ok hnext]

/-- The loop goes on until there is enough output. -/
theorem phashLoop_run (provider : Provider) (hkey : secret.length ≤ algo.blockSize)
    (hlen : outlen < 2 ^ 64) (h : Hashed algo secret (labelledSeed label seed) output w i t)
    (hi : i * algo.digestSize ≤ outlen) (hrounds : outlen < i + rounds) :
    ∃ u, phashLoop algo output outlen label seed rounds (i * algo.digestSize) provider t =
      (.ok (), u) ∧
      u.memory = w.memory.write output (pHash algo secret (labelledSeed label seed) outlen) ∧
      u.live = w.live := by
  have hpos := algo.digestSize_pos
  induction rounds generalizing i t with
  | zero =>
    have hle : i ≤ i * algo.digestSize := Nat.le_mul_of_pos_right i hpos
    omega
  | succ rounds ih =>
    have hsub : toSize (outlen + 2 ^ 64 - i * algo.digestSize) = outlen - i * algo.digestSize := by
      rw [toSize]
      omega
    rw [phashLoop, feedBlock_run h, hsub]
    by_cases hlast : outlen - i * algo.digestSize ≤ algo.digestSize
    · rw [if_pos hlast, bind_of_ok (hmacFinal_free hkey rfl (by decide))]
      refine ⟨_, rfl, ?_, Nat.sub_eq_of_eq_add h.live⟩
      change t.memory.write (output + i * algo.digestSize) ((t.scratch.write 0
        (phashBlock algo secret (labelledSeed label seed) i)).read 0 _) = _
      rw [← Memory.read_take _ _ hlast, phashBlock, read_scratch_hmac, h.memory]
      change Memory.write _ _ ((phashBlock algo secret (labelledSeed label seed) i).take _) = _
      rw [write_blocks_succ (phashBlock_length algo secret _) w.memory output hi, pHash,
        streamOctets_eq (phashBlock_length algo secret _) hpos]
      rw [Nat.succ_mul]
      omega
    · have hadd : toSize (i * algo.digestSize + algo.digestSize) = (i + 1) * algo.digestSize := by
        rw [toSize, Nat.succ_mul]
        exact Nat.mod_eq_of_lt (by omega)
      rw [if_neg hlast, hadd]
      obtain ⟨u, hhashed, hrun⟩ := middleBlock_run provider hkey h
        (phashLoop algo output outlen label seed rounds ((i + 1) * algo.digestSize))
      rw [hrun]
      exact ih hhashed (by rw [Nat.succ_mul]; omega) (by omega)

/-- `ptls_tls12_phash` writes P_hash. -/
theorem ptlsTls12Phash_derives (hkey : secret.length ≤ algo.blockSize) (provider : Provider)
    (w : Work) (output : ℕ) (label : Option Bytes) (seed : Bytes) (hlen : outlen < 2 ^ 64) :
    Derives provider w output (pHash algo secret (labelledSeed label seed) outlen)
      (ptlsTls12Phash algo output outlen secret label seed provider w) := by
  rcases createOrFail_run hkey provider w with ⟨-, hnew⟩ | ⟨hrefused, requests, hnew⟩
  · let first : Work := { w with
      scratch := w.scratch.write 0 (phashChain algo secret (labelledSeed label seed) 1),
      hmac := some (keyed algo secret []), live := w.live + 2, requests := w.requests + 2 }
    let fed : Work := { w with
      hmac := some (keyed algo secret (labelledSeed label seed)),
      live := w.live + 2, requests := w.requests + 2 }
    let new : Work := { w with
      hmac := some (keyed algo secret []), live := w.live + 2, requests := w.requests + 2 }
    have hseed : updateLabelAndSeed label seed provider new = (.ok (), fed) :=
      updateLabelAndSeed_keyed (rfl : new.hmac = some (keyed algo secret [])) label seed
    have hchain : hmacFinal .scratch .reset provider fed = (.ok (), first) :=
      hmacFinal_reset hkey rfl (by decide)
    have hfirst : Hashed algo secret (labelledSeed label seed) output w 0 first :=
      ⟨rfl, read_scratch_hmac w.scratch algo secret _, (Memory.write_nil w.memory output).symm, rfl⟩
    obtain ⟨u, hloop, hmemory, hlive⟩ := phashLoop_run provider hkey hlen hfirst
      (by rw [Nat.zero_mul]; exact Nat.zero_le _) (by omega : outlen < 0 + (outlen + 1))
    rw [Nat.zero_mul] at hloop
    rw [ptlsTls12Phash, bind_of_ok hnew, bind_of_ok hseed, bind_of_ok hchain, bind_of_ok hloop]
    exact .written hmemory hlive
  · rw [ptlsTls12Phash, bind_of_error hnew]
    exact .refused hrefused rfl rfl

/-! ## Both derivations -/

/-- The context that `ptls_hmac_create` makes, and that every reset has to restore. -/
def RestoresKey (algo : HashAlgorithm) (key : Bytes) (provider : Provider) (w : Work) : Prop :=
  (Granted provider w →
    (ptlsHmacCreate algo key provider w).2.hmac = some (keyed algo key [])) ∧
  ∀ (target : Target) (message : Bytes), target ≠ .null →
    w.hmac = some (keyed algo key message) →
    ∃ t, hmacFinal target .reset provider w = (.ok (), t) ∧
      t.hmac = some (keyed algo key []) ∧
      t.load target algo.digestSize = hmac algo key message

theorem restoresKey (hkey : key.length ≤ algo.blockSize) (provider : Provider) (w : Work) :
    RestoresKey algo key provider w := by
  refine ⟨fun hgranted => ?_, fun target message htarget hctx => ?_⟩
  · rcases ptlsHmacCreate_run hkey provider w with ⟨-, hrun⟩ | ⟨hrefused, -⟩
    · rw [hrun]
    · exact absurd hgranted hrefused
  · refine ⟨_, hmacFinal_reset hkey hctx htarget, rfl, ?_⟩
    have hload := load_store w htarget (hmac algo key message)
    rw [hmac_length] at hload
    cases target with
    | scratch => exact hload
    | memory p => exact hload
    | null => exact absurd rfl htarget

/-- For every hash algorithm, key of at most a block, and memory: the derivations write the octets
of HKDF-Expand and of P_hash that are asked for, of which there are as many as asked for, and change
no other octet; a reset restores the keyed context each time. They fail only for lack of memory. -/
theorem key_derivations (algo : HashAlgorithm) {key : Bytes} (hkey : key.length ≤ algo.blockSize)
    (provider : Provider) (w : Work) (output : ℕ) {outlen : ℕ} (hlen : outlen < 2 ^ 64) :
    (∀ info, outlen ≤ 255 * algo.digestSize →
      (hkdfExpand algo key info outlen).length = outlen ∧
      Derives provider w output (hkdfExpand algo key info outlen)
        (ptlsHkdfExpand algo output outlen key info provider w)) ∧
    (∀ label seed,
      (pHash algo key (labelledSeed label seed) outlen).length = outlen ∧
      Derives provider w output (pHash algo key (labelledSeed label seed) outlen)
        (ptlsTls12Phash algo output outlen key label seed provider w)) ∧
    RestoresKey algo key provider w := by
  have hpos := algo.digestSize_pos
  refine ⟨fun info hmax => ⟨?_, ?_⟩, fun label seed => ⟨?_, ?_⟩, restoresKey hkey provider w⟩
  · exact streamOctets_length (hkdfBlock_length algo key info) hpos outlen
  · exact ptlsHkdfExpand_derives hkey provider w output info hmax
  · exact streamOctets_length (phashBlock_length algo key _) hpos outlen
  · exact ptlsTls12Phash_derives hkey provider w output label seed hlen

namespace Sample

/-- A provider that grants every request. -/
def generousProvider : Provider := ⟨fun _ => true⟩

/-- Work with empty memory. -/
def emptyWork : Work := ⟨fun _ => 0, fun _ => 0, none, 0, 0⟩

end Sample

omit [Crypto] in
/-- Five octets take three blocks of the sample hash. -/
theorem key_derivations_sample :
    [1, 2, 3].length ≤ (Picotls.Sample.hash 0).blockSize ∧
    @Derives Sample.generousProvider Sample.emptyWork 100
      (@hkdfExpand Picotls.Sample.crypto (Picotls.Sample.hash 0) [1, 2, 3] [4] 5)
      (@ptlsHkdfExpand Picotls.Sample.crypto (Picotls.Sample.hash 0) 100 5 [1, 2, 3] [4]
        Sample.generousProvider Sample.emptyWork) :=
  ⟨by decide, ((@key_derivations Picotls.Sample.crypto (Picotls.Sample.hash 0) [1, 2, 3] (by decide)
    Sample.generousProvider Sample.emptyWork 100 5 (by decide)).1 [4] (by decide)).2⟩

end Picotls.Hashing
