import Picotls.Record
import Picotls.Server.ClientHello

/-!
# Rebuilding the inner ClientHello

The sealed payload of an outer ClientHello is an abbreviated inner hello: its session identifier is
that of the outer hello, and a list of references stands for extensions to be copied from the outer
hello in order. It is followed by zero padding.
-/

namespace Picotls

open Foundation

variable [Crypto]

/-- Skip outer extensions up to the one referred to; its contents and what follows it. -/
def findOuterExtension (reftype : ℕ) : ℕ → Src → Proc (Bytes × Src)
  | 0, _ => throwCode Alert.illegalParameter
  | fuel + 1, outer =>
    match outer.decodeUInt 2 with
    | .error _ => throwCode Alert.illegalParameter
    | .ok (outertype, outer) =>
      match outer.decodeUInt 2 with
      | .error _ => throwCode Alert.illegalParameter
      | .ok (outersize, outer) => do
        assert (outersize ≤ outer.data.length)
        let rest : Src := ⟨outer.off + outersize, outer.data.drop outersize⟩
        if outertype = reftype then return (outer.data.take outersize, rest)
        else findOuterExtension reftype fuel rest

/-- Copy the extensions that a list of references names; what is left of the outer extensions. -/
def copyOuterExtensions : ℕ → Src → Src → Proc Src
  | 0, _, outer => pure outer
  | fuel + 1, refs, outer => do
    let (reftype, refs) ← refs.decodeUInt 2
    throwIf (reftype = ExtensionType.encryptedClientHello) Alert.illegalParameter
    let (data, outer) ← findOuterExtension reftype (outer.data.length + 1) outer
    bufferPushExtension reftype (bufferPushv data)
    if refs.data = [] then return outer
    copyOuterExtensions fuel refs outer

/-- Copy one extension of the encoded inner hello, or what it refers to; what is left of the outer
extensions. -/
def rebuildChInnerExtension (exttype : ℕ) (block outer : Src) : Proc Src :=
  if exttype = ExtensionType.echOuterExtensions then do
    let (refs, rest) ← block.decodeOpenBlock 1
    let outer ← copyOuterExtensions (refs.data.length + 1) refs outer
    rest.assertBlockClose
    return outer
  else do
    bufferPushExtension exttype (bufferPushv block.data)
    return outer

/-- Copy the extensions of the encoded inner hello, replacing references. -/
def rebuildChInnerExtensionList : ℕ → Src → Src → Proc Unit
  | 0, _, _ => pure ()
  | fuel + 1, src, outer =>
    if src.data = [] then pure ()
    else do
      let (exttype, src) ← src.decodeUInt 2
      let (block, src) ← src.decodeOpenBlock 2
      let outer ← rebuildChInnerExtension exttype block outer
      rebuildChInnerExtensionList fuel src outer

/-- Copy the extension block of the encoded inner hello; what follows it. -/
def rebuildChInnerExtensions (src outer : Src) : Proc Src :=
  bufferPushBlock 2 do
    let (block, rest) ← src.decodeOpenBlock 2
    rebuildChInnerExtensionList block.data.length block outer
    return rest

/-- Copy a block with its length. -/
def copyBlock (capacity : ℕ) (src : Src) : Proc Src := do
  let (block, rest) ← src.decodeOpenBlock capacity
  bufferPushBlock capacity (bufferPushv block.data)
  return rest

/-- Write the inner hello that a payload encodes. The padding of the payload must be zero. -/
def rebuildChInner (payload : Bytes) (outerCh : ClientHello) (outer : Src) : Proc Unit := do
  let padding ← bufferPushMessage HandshakeType.clientHello do
    let (legacyVersion, src) ← Src.decodeUInt 2 ⟨0, payload⟩
    bufferPushUInt 2 legacyVersion
    let (random, src) ← src.decodeBytes helloRandomSize
    bufferPushv random
    let (sessionId, src) ← src.decodeOpenBlock 1
    throwIf (sessionId.data ≠ []) Alert.illegalParameter
    bufferPushBlock 1 (bufferPushv outerCh.legacySessionId)
    let src ← copyBlock 2 src
    let src ← copyBlock 1 src
    rebuildChInnerExtensions src outer
  throwIf (padding.data.any (· ≠ 0)) Alert.illegalParameter

end Picotls
