import Picotls.Crypto
import Picotls.Foundation.Memory
import Picotls.Foundation.Procedure

/-!
# HMAC contexts and the derivations that reuse them

An HMAC context holds the key, padded to a block, and a context of the underlying hash. The key is
masked in place to be hashed, and unmasked again. `ptls_hkdf_expand` and `ptls_tls12_phash` compute
all blocks of their output with one context, which is reset each time a digest is taken. A digest is
taken into a local array or directly into the output.

Hash contexts are those of a backend: what they have absorbed counts, and a reset makes them new.
-/

namespace Picotls.Hashing

open Foundation Procedure

variable [Crypto]

/-- An HMAC context. The hash context is given by what it has absorbed. -/
structure HmacContext where
  algo : HashAlgorithm
  hash : Bytes
  key : Bytes
  deriving DecidableEq

/-- The modes of taking a digest. -/
inductive FinalMode where
  | free
  | reset
  | snapshot
  deriving DecidableEq

/-- Where a digest is taken to: the local array, an address, or nowhere. -/
inductive Target where
  | scratch
  | memory (p : ℕ)
  | null
  deriving DecidableEq

/-- Memory, the local array and the context of a derivation, with the number of allocated objects
and of the requests for one so far. -/
structure Work where
  memory : Memory
  scratch : Memory
  hmac : Option HmacContext
  live : ℕ
  requests : ℕ

/-- Which requests for memory are granted. -/
structure Provider where
  grants : ℕ → Bool

/-- A procedure that hashes. -/
abbrev Proc := Procedure Provider Work Stop

/-- Ask for an object. -/
def allocate : Proc Bool := fun provider w =>
  let granted := provider.grants w.requests
  (.ok granted,
    { w with requests := w.requests + 1, live := if granted then w.live + 1 else w.live })

/-- Release an object. -/
def release : Proc Unit := update fun _ w => { w with live := w.live - 1 }

/-- The context. -/
def getHmac : Proc HmacContext := fun _ w =>
  match w.hmac with
  | some ctx => (.ok ctx, w)
  | none => (.error .undefined, w)

/-- Replace the context. -/
def setHmac (ctx : Option HmacContext) : Proc Unit := update fun _ w => { w with hmac := ctx }

/-- Octets are stored where a digest is taken to. -/
def Work.store (w : Work) (target : Target) (octets : Bytes) : Work :=
  match target with
  | .scratch => { w with scratch := w.scratch.write 0 octets }
  | .memory p => { w with memory := w.memory.write p octets }
  | .null => w

/-- Octets at the place where a digest is taken to. -/
def Work.load (w : Work) (target : Target) (n : ℕ) : Bytes :=
  match target with
  | .scratch => w.scratch.read 0 n
  | .memory p => w.memory.read p n
  | .null => []

/-! ## Contexts -/

/-- Feed octets to a context. -/
def hmacUpdate (src : Bytes) : Proc Unit := do
  let ctx ← getHmac
  setHmac (some { ctx with hash := ctx.hash ++ src })

/-- Mask the key of a context. -/
def maskKey (pad : UInt8) : Proc Unit := do
  let ctx ← getHmac
  setHmac (some { ctx with key := ctx.key.map (· ^^^ pad) })

/-- Feed the masked key to the hash. -/
def hmacApplyKey (pad : UInt8) : Proc Unit := do
  maskKey pad
  let ctx ← getHmac
  setHmac (some { ctx with hash := ctx.hash ++ ctx.key })
  maskKey pad

/-- Take the digest of the hash context itself. -/
def hashFinal (target : Target) (mode : FinalMode) : Proc Unit := do
  let ctx ← getHmac
  runIf (target ≠ .null) (update fun _ w => w.store target (Crypto.hash ctx.algo ctx.hash))
  match mode with
  | .free => release
  | .reset => setHmac (some { ctx with hash := [] })
  | .snapshot => pure ()

/-- Take a digest. -/
def hmacFinal (target : Target) (mode : FinalMode) : Proc Unit := do
  runIf (mode = .snapshot) (fail .assertion)
  let ctx ← getHmac
  runIf (target ≠ .null) do
    hashFinal target .reset
    hmacApplyKey 0x5c
    let md ← observe fun _ w => w.load target ctx.algo.digestSize
    hmacUpdate md
  hashFinal target mode
  match mode with
  | .free => do
    setHmac none
    release
  | .reset => hmacApplyKey 0x36
  | .snapshot => fail .assertion

/-- A new context. The result tells whether there was memory for it. -/
def ptlsHmacCreate (algo : HashAlgorithm) (key : Bytes) : Proc Bool := do
  runIf (algo.blockSize < key.length) (fail .assertion)
  if ← allocate then
    if ← allocate then do
      setHmac (some ⟨algo, [], key ++ zeros (algo.blockSize - key.length)⟩)
      hmacApplyKey 0x36
      return true
    else do
      release
      return false
  else return false

/-- Create the context, or return the code for lack of memory. -/
def createOrFail (algo : HashAlgorithm) (key : Bytes) : Proc Unit := do
  if ← ptlsHmacCreate algo key then pure () else fail (.code Error.noMemory)

/-- Feed the local array. -/
def updateScratch (algo : HashAlgorithm) : Proc Unit := do
  let digest ← observe fun _ w => w.scratch.read 0 algo.digestSize
  hmacUpdate digest

/-! ## HKDF-Expand -/

/-- Copy octets of the local array to an address. -/
def copyScratch (p n : ℕ) : Proc Unit := update fun _ w =>
  { w with memory := w.memory.write p (w.scratch.read 0 n) }

/-- Clear the local array. -/
def clearScratch (n : ℕ) : Proc Unit := update fun _ w =>
  { w with scratch := w.scratch.write 0 (zeros n) }

/-- The context is created for the first block and goes on from the previous digest for others. -/
def startBlock (algo : HashAlgorithm) (prk : Bytes) : Proc Unit := do
  let isNew ← observe fun _ w => w.hmac.isNone
  if isNew then createOrFail algo prk else updateScratch algo

/-- One block. -/
def expandBlock (algo : HashAlgorithm) (output outlen : ℕ) (prk info : Bytes) (i : ℕ) :
    Proc Unit := do
  startBlock algo prk
  hmacUpdate info
  hmacUpdate [UInt8.ofNat (i + 1)]
  hmacFinal .scratch .reset
  let offStart := toSize (i * algo.digestSize)
  let offEnd := toSize (offStart + algo.digestSize)
  let offEnd := if outlen < offEnd then outlen else offEnd
  copyScratch (output + offStart) (toSize (offEnd + 2 ^ 64 - offStart))

/-- The loop over the blocks, at most for a number of rounds. -/
def expandLoop (algo : HashAlgorithm) (output outlen : ℕ) (prk info : Bytes) : ℕ → ℕ → Proc Unit
  | 0, _ => fail .endless
  | rounds + 1, i =>
    if toSize (i * algo.digestSize) < outlen then do
      expandBlock algo output outlen prk info i
      expandLoop algo output outlen prk info rounds (i + 1)
    else pure ()

/-- `ptls_hkdf_expand`. Each round of the loop adds at least an octet. -/
def ptlsHkdfExpand (algo : HashAlgorithm) (output outlen : ℕ) (prk info : Bytes) : Proc Unit := do
  setHmac none
  expandLoop algo output outlen prk info (outlen + 1) 0
  let isNew ← observe fun _ w => w.hmac.isNone
  runIf (isNew = false) (hmacFinal .null .free)
  clearScratch algo.digestSize

/-! ## P_hash -/

/-- Feed a label, unless there is none, and a seed. -/
def updateLabelAndSeed (label : Option Bytes) (seed : Bytes) : Proc Unit := do
  runIf (label ≠ none) (hmacUpdate (label.getD []))
  hmacUpdate seed

/-- The loop over the blocks, at most for a number of rounds. -/
def phashLoop (algo : HashAlgorithm) (output outlen : ℕ) (label : Option Bytes) (seed : Bytes) :
    ℕ → ℕ → Proc Unit
  | 0, _ => fail .endless
  | rounds + 1, outputOff => do
    updateScratch algo
    updateLabelAndSeed label seed
    if toSize (outlen + 2 ^ 64 - outputOff) ≤ algo.digestSize then do
      hmacFinal .scratch .free
      copyScratch (output + outputOff) (toSize (outlen + 2 ^ 64 - outputOff))
    else do
      hmacFinal (.memory (output + outputOff)) .reset
      updateScratch algo
      hmacFinal .scratch .reset
      phashLoop algo output outlen label seed rounds (toSize (outputOff + algo.digestSize))

/-- `ptls_tls12_phash`. Each round of the loop adds at least an octet. -/
def ptlsTls12Phash (algo : HashAlgorithm) (output outlen : ℕ) (secret : Bytes)
    (label : Option Bytes) (seed : Bytes) : Proc Unit := do
  createOrFail algo secret
  updateLabelAndSeed label seed
  hmacFinal .scratch .reset
  phashLoop algo output outlen label seed (outlen + 1) 0
  clearScratch algo.digestSize

end Picotls.Hashing
