import Picotls.Connection

/-!
# Decoding of wire data

A source is the rest of a block together with its offset in the message, so that positions inside
nested blocks remain positions in the message. Decoders stop with the decode-error alert when the
block ends too early, and a block must be consumed to its end.
-/

namespace Picotls

open Foundation

/-- The unread octets of a block and the offset of the first of them in the message. -/
structure Src where
  off : ℕ
  data : Bytes

namespace Src

/-- A source for the octets of a message from an offset on. -/
def ofMessage (message : Bytes) (off : ℕ) : Src := ⟨off, message.drop off⟩

/-- Decode a big-endian number. -/
def decodeUInt (width : ℕ) (src : Src) : Except Fault (ℕ × Src) :=
  if src.data.length < width then .error (.code Alert.decodeError)
  else .ok (ofBE (src.data.take width), ⟨src.off + width, src.data.drop width⟩)

/-- Decode one octet. -/
def decode8 (src : Src) : Except Fault (UInt8 × Src) :=
  match src.data with
  | [] => .error (.code Alert.decodeError)
  | octet :: rest => .ok (octet, ⟨src.off + 1, rest⟩)

/-- Take a fixed number of octets. -/
def decodeBytes (len : ℕ) (src : Src) : Except Fault (Bytes × Src) :=
  if src.data.length < len then .error (.code Alert.decodeError)
  else .ok (src.data.take len, ⟨src.off + len, src.data.drop len⟩)

/-- Open a block with a length of `capacity` octets: its contents and what follows it. -/
def decodeOpenBlock (capacity : ℕ) (src : Src) : Except Fault (Src × Src) :=
  if src.data.length < capacity then .error (.code Alert.decodeError)
  else
    let size := ofBE (src.data.take capacity)
    let body := src.data.drop capacity
    if body.length < size then .error (.code Alert.decodeError)
    else .ok (⟨src.off + capacity, body.take size⟩, ⟨src.off + capacity + size, body.drop size⟩)

/-- Require that a block has been read to its end. -/
def assertBlockClose (src : Src) : Except Fault Unit :=
  if src.data = [] then .ok () else .error (.code Alert.decodeError)

/-- Open a block that must extend to the end of the enclosing one. -/
def decodeBlock (capacity : ℕ) (src : Src) : Except Fault Src := do
  let (block, rest) ← src.decodeOpenBlock capacity
  rest.assertBlockClose
  return block

/-- The two-octet numbers that fill a source, in order. -/
def decodeUInt16s : ℕ → Src → Except Fault (List ℕ)
  | 0, _ => .ok []
  | fuel + 1, src =>
    if src.data = [] then .ok []
    else do
      let (value, src) ← src.decodeUInt 2
      let values ← decodeUInt16s fuel src
      return value :: values

end Src

/-! ## Extensions -/

/-- The messages in which extensions appear; a HelloRetryRequest counts as its own kind. -/
inductive ExtensionCarrier where
  | clientHello
  | serverHello
  | pseudoHrr
  | encryptedExtensions
  | certificateRequest
  | certificate
  | newSessionTicket
  deriving DecidableEq

open ExtensionCarrier in
/-- The messages in which a known extension may appear; unknown extensions may appear anywhere. -/
def extensionCarriers (exttype : ℕ) : Option (List ExtensionCarrier) :=
  if exttype = ExtensionType.serverName then some [clientHello, encryptedExtensions]
  else if exttype = ExtensionType.statusRequest then
    some [clientHello, certificateRequest, certificate]
  else if exttype = ExtensionType.supportedGroups then some [clientHello, encryptedExtensions]
  else if exttype = ExtensionType.signatureAlgorithms then some [clientHello, certificateRequest]
  else if exttype = ExtensionType.alpn then some [clientHello, encryptedExtensions]
  else if exttype = ExtensionType.serverCertificateType then
    some [clientHello, encryptedExtensions]
  else if exttype = ExtensionType.keyShare then some [clientHello, serverHello, pseudoHrr]
  else if exttype = ExtensionType.preSharedKey then some [clientHello, serverHello]
  else if exttype = ExtensionType.pskKeyExchangeModes then some [clientHello]
  else if exttype = ExtensionType.earlyData then
    some [clientHello, encryptedExtensions, newSessionTicket]
  else if exttype = ExtensionType.cookie then some [clientHello, pseudoHrr]
  else if exttype = ExtensionType.supportedVersions then
    some [clientHello, serverHello, pseudoHrr]
  else if exttype = ExtensionType.compressCertificate then some [clientHello, certificateRequest]
  else if exttype = ExtensionType.encryptedClientHello then
    some [clientHello, pseudoHrr, encryptedExtensions]
  else if exttype = ExtensionType.echOuterExtensions then some []
  else none

/-- Check that an extension may appear here and has not appeared before. -/
def extensionBitmapTestAndSet (seen : List ℕ) (hstype : ExtensionCarrier) (exttype : ℕ) :
    Option (List ℕ) :=
  match extensionCarriers exttype with
  | none => some seen
  | some carriers =>
    if hstype ∈ carriers ∧ exttype ∉ seen then some (seen ++ [exttype]) else none

/-- Decode the extensions of a block one by one, threading an accumulator. The body returns what it
left unread of its extension. -/
def decodeExtensionList {β : Type} (hstype : ExtensionCarrier)
    (body : β → ℕ → Src → Proc (β × Src)) : ℕ → List ℕ → Src → β → Proc β
  | 0, _, _, acc => pure acc
  | fuel + 1, seen, src, acc =>
    if src.data = [] then pure acc
    else do
      let (exttype, src) ← src.decodeUInt 2
      match extensionBitmapTestAndSet seen hstype exttype with
      | none => throwCode Alert.illegalParameter
      | some seen =>
        let (block, rest) ← src.decodeOpenBlock 2
        let (acc, left) ← body acc exttype block
        left.assertBlockClose
        decodeExtensionList hstype body fuel seen rest acc

/-- Decode an extension block and return what follows it. -/
def decodeOpenExtensions {β : Type} (hstype : ExtensionCarrier) (src : Src) (acc : β)
    (body : β → ℕ → Src → Proc (β × Src)) : Proc (β × Src) := do
  let (block, rest) ← src.decodeOpenBlock 2
  let acc ← decodeExtensionList hstype body block.data.length [] block acc
  return (acc, rest)

/-- Decode an extension block that ends its message. -/
def decodeExtensions {β : Type} (hstype : ExtensionCarrier) (src : Src) (acc : β)
    (body : β → ℕ → Src → Proc (β × Src)) : Proc β := do
  let (acc, rest) ← decodeOpenExtensions hstype src acc body
  rest.assertBlockClose
  return acc

/-- Tell the application about an extension. Its nonzero answer is replaced by one, because the
comparison binds tighter than the assignment that was meant to keep it. -/
def notifyExtension (hstype : UInt8) (exttype : ℕ) (data : Bytes) : Proc Unit := do
  let tls ← getTls
  runIf tls.ctx.onExtension do
    let ret ← ask fun env tick => env.onExtension tick hstype exttype data
    runIf (ret ≠ 0) (noteRefusal hstype exttype ret)
    throwIf (ret ≠ 0) 1

/-! ## Server names -/

/-- Scan a dotted quad: octet count, current octet, and whether it has a digit. -/
def inetPton4 : ℕ → ℕ → Bool → Bytes → Bool
  | octets, _, _, [] => octets = 4
  | octets, value, sawDigit, ch :: rest =>
    if 48 ≤ ch ∧ ch ≤ 57 then
      let new := value * 10 + (ch.toNat - 48)
      if sawDigit && value = 0 then false
      else if 255 < new then false
      else if sawDigit then inetPton4 octets new true rest
      else if octets = 4 then false
      else inetPton4 (octets + 1) new true rest
    else if ch = 46 ∧ sawDigit then
      if octets = 4 then false else inetPton4 octets 0 false rest
    else false

/-- The value of a hexadecimal digit. -/
def hexDigitValue (ch : UInt8) : Option ℕ :=
  if 48 ≤ ch ∧ ch ≤ 57 then some (ch.toNat - 48)
  else if 97 ≤ ch ∧ ch ≤ 102 then some (ch.toNat - 87)
  else if 65 ≤ ch ∧ ch ≤ 70 then some (ch.toNat - 55)
  else none

/-- The end of an IPv6 scan: octets written so far, whether `::` was seen, and pending digits. -/
def inetPton6Finish (written : ℕ) (colon : Bool) (digits : ℕ) : Bool :=
  if 0 < digits ∧ 16 < written + 2 then false
  else
    let written := if 0 < digits then written + 2 else written
    if colon then written ≠ 16 else written = 16

/-- Scan the groups of an IPv6 address; `token` is the text from the current group on. -/
def inetPton6Scan (written : ℕ) (colon : Bool) (digits : ℕ) (token : Bytes) : Bytes → Bool
  | [] => inetPton6Finish written colon digits
  | ch :: rest =>
    match hexDigitValue ch with
    | some _ => if digits = 4 then false else inetPton6Scan written colon (digits + 1) token rest
    | none =>
      if ch = 58 then
        if digits = 0 then
          if colon then false else inetPton6Scan written true 0 rest rest
        else if rest = [] then false
        else if 16 < written + 2 then false
        else inetPton6Scan (written + 2) colon 0 rest rest
      else if ch = 46 ∧ written + 4 ≤ 16 ∧ inetPton4 0 0 false token then
        inetPton6Finish (written + 4) colon 0
      else false

/-- A text is an IPv6 address. A leading colon must be the first of two. -/
def inetPton6 : Bytes → Bool
  | [] => false
  | 58 :: rest =>
    match rest with
    | 58 :: _ => inetPton6Scan 0 false 0 rest rest
    | _ => false
  | name => inetPton6Scan 0 false 0 name name

/-- A server name looks like an IP address. -/
def serverNameIsIpaddr (name : Bytes) : Bool :=
  inetPton4 0 0 false name || inetPton6 name

end Picotls
