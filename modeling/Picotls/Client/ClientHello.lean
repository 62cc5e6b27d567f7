import Picotls.Ech
import Picotls.Extensions
import Picotls.Record

/-!
# The ClientHello

A ClientHello is encoded in one of three modes. Without ECH only the inner form is used. With ECH
the inner hello enters the transcript, its abbreviated encoding is sealed, and the outer hello,
which carries the public name and the sealed inner hello, is sent.
-/

namespace Picotls

open Foundation

variable [Crypto]

/-- Which form of the ClientHello is encoded. -/
inductive EncodeChMode where
  | inner
  | encodedInner
  | outer
  deriving DecidableEq

/-- The pre-shared key that a ClientHello offers. -/
structure OfferedPsk where
  hash : HashAlgorithm
  secret : Bytes
  identity : Bytes
  label : Label
  obfuscatedTicketAge : ℕ

/-- The arguments of the encoder. -/
structure ClientHelloParams where
  mode : EncodeChMode
  isSecondFlight : Bool
  properties : Option HandshakeProperties
  clientRandom : Bytes
  keyShareCtx : Option KeyExchangeContext
  sniName : Option Bytes
  legacySessionId : Bytes
  ech : Ech
  /-- The size of the sealed inner hello, used in outer mode. -/
  echPayloadSize : ℕ
  echReplay : Option Bytes
  psk : Option OfferedPsk
  pskBinderSize : ℕ
  cookie : Option Bytes
  usingEarlyData : Bool

/-- Append the body of the server-name extension. -/
def emitServerNameExtension (serverName : Bytes) : Proc Unit :=
  bufferPushBlock 2 do
    bufferPushv [0]
    bufferPushBlock 2 (bufferPushv serverName)

/-- The size of the outer ECH extension before its sealed payload. -/
def outerEchHeaderSize (encSize : ℕ) : ℕ := 10 + encSize

/-- Append the outer ECH extension with room for the payload; the offset of that room. -/
def pushOuterEchExtension (p : ClientHelloParams) : Proc ℕ :=
  bufferPushExtension ExtensionType.encryptedClientHello do
    let payloadFrom ← sendbufOff
    let cipher ← deref p.ech.cipher
    bufferPushv [0]
    bufferPushUInt 2 cipher.kdf
    bufferPushUInt 2 cipher.aeadId
    bufferPushv [p.ech.configId]
    bufferPushBlock 2 (if p.isSecondFlight then pure () else bufferPushv p.ech.enc)
    bufferPushBlock 2 do
      let off ← sendbufOff
      assert (off - payloadFrom =
        outerEchHeaderSize (if p.isSecondFlight then 0 else p.ech.enc.length))
      allocate
      appendReserved (zeros p.echPayloadSize)
      return off

/-- Append the mark of an inner hello, or repeat the extension of the first hello. -/
def pushInnerEchExtension (p : ClientHelloParams) : Proc Unit :=
  if p.ech.aead.isSome then
    bufferPushExtension ExtensionType.encryptedClientHello (bufferPushv [1])
  else whenSome p.echReplay fun replay =>
    bufferPushExtension ExtensionType.encryptedClientHello (bufferPushv replay)

/-- Append the ECH extension of the given mode; in outer mode, the offset of the payload. -/
def pushEchExtension (p : ClientHelloParams) : Proc ℕ :=
  if p.mode = .outer then pushOuterEchExtension p
  else do
    pushInnerEchExtension p
    return 0

/-- Append the key share, or a reference to the one of the outer hello. -/
def pushKeyShareExtension (p : ClientHelloParams) : Proc Unit :=
  if p.mode = .encodedInner then
    bufferPushExtension ExtensionType.echOuterExtensions
      (bufferPushBlock 1 (bufferPushUInt 2 ExtensionType.keyShare))
  else
    bufferPushExtension ExtensionType.keyShare (bufferPushBlock 2
      (whenSome p.keyShareCtx fun keyShareCtx =>
        pushKeyShareEntry keyShareCtx.algo.id keyShareCtx.pubkey))

/-- Append the server-name extension, if a name is to be sent. -/
def pushServerNameExtension (p : ClientHelloParams) : Proc Unit :=
  whenSome p.sniName fun name =>
    bufferPushExtension ExtensionType.serverName (emitServerNameExtension name)

/-- Append the application protocols. -/
def pushAlpnExtension (p : ClientHelloParams) : Proc Unit :=
  whenSome p.properties fun properties => runIf (properties.negotiatedProtocols ≠ []) <|
    bufferPushExtension ExtensionType.alpn (bufferPushBlock 2
      (Procedure.forEach (fun name => bufferPushBlock 1 (bufferPushv name))
        properties.negotiatedProtocols))

/-- Append the extensions that only depend on the configuration. -/
def pushContextExtensions (ctx : Context) (p : ClientHelloParams) : Proc Unit := do
  whenSome ctx.decompressCertificate fun algos =>
    bufferPushExtension ExtensionType.compressCertificate (bufferPushBlock 1 do
      assert (algos ≠ [])
      Procedure.forEach (bufferPushUInt 2) algos)
  bufferPushExtension ExtensionType.supportedVersions
    (bufferPushBlock 1 (bufferPushUInt 2 protocolVersionTls13))
  bufferPushExtension ExtensionType.signatureAlgorithms
    (pushSignatureAlgorithms ctx.verifyCertificate)
  whenSome ctx.keyExchanges fun algos =>
    bufferPushExtension ExtensionType.supportedGroups (bufferPushBlock 2
      (Procedure.forEach (fun (algo : KeyExchangeAlgorithm) => bufferPushUInt 2 algo.id) algos))
  whenSome p.cookie fun cookie =>
    bufferPushExtension ExtensionType.cookie (bufferPushBlock 2 (bufferPushv cookie))
  runIf ctx.useRawPublicKeys
    (bufferPushExtension ExtensionType.serverCertificateType (bufferPushBlock 1 (bufferPushv [2])))
  runIf (ctx.saveTicket ∧ (ctx.ticketRequestsNewSessionCount ≠ 0 ∨
      ctx.ticketRequestsResumptionCount ≠ 0))
    (bufferPushExtension ExtensionType.ticketRequest
      (bufferPushv [ctx.ticketRequestsNewSessionCount, ctx.ticketRequestsResumptionCount]))
  pushAdditionalExtensions p.properties
  runIf (ctx.saveTicket ∨ p.psk.isSome)
    (bufferPushExtension ExtensionType.pskKeyExchangeModes (bufferPushBlock 1 do
      runIf (!ctx.requireDheOnPsk) (bufferPushv [0])
      bufferPushv [1]))

/-- Random octets in place of the identity and age of a pre-shared key. -/
def pushHiddenPskIdentity (psk : OfferedPsk) : Proc Unit := do
  bufferPushBlock 2 do
    allocate
    let identity ← randomBytes psk.identity.length
    appendReserved identity
  let age ← randomBytes 4
  bufferPushv age

/-- The identity and age of the pre-shared key, which the outer hello of a real offer hides. -/
def pushPskIdentity (p : ClientHelloParams) (psk : OfferedPsk) : Proc Unit :=
  if p.mode = .outer ∧ p.ech.state ≠ .grease then pushHiddenPskIdentity psk
  else do
    bufferPushBlock 2 (bufferPushv psk.identity)
    bufferPushUInt 4 psk.obfuscatedTicketAge

/-- Append the pre-shared key, whose binder is filled with random octets at first. -/
def pushPskExtension (p : ClientHelloParams) (psk : OfferedPsk) : Proc Unit := do
  runIf (p.usingEarlyData && !p.isSecondFlight)
    (bufferPushExtension ExtensionType.earlyData (pure ()))
  bufferPushExtension ExtensionType.preSharedKey do
    bufferPushBlock 2 (pushPskIdentity p psk)
    bufferPushBlock 2 (bufferPushBlock 1 do
      allocate
      let binder ← randomBytes p.pskBinderSize
      appendReserved binder)

/-- Append all extensions; in outer mode, the offset of the ECH payload. -/
def pushClientHelloExtensions (ctx : Context) (p : ClientHelloParams) : Proc ℕ := do
  let echOffset ← pushEchExtension p
  pushKeyShareExtension p
  pushServerNameExtension p
  pushAlpnExtension p
  pushContextExtensions ctx p
  whenSome p.psk (pushPskExtension p)
  return echOffset

/-- Encode a ClientHello; in outer mode, the offset of the ECH payload. -/
def encodeClientHello (ctx : Context) (p : ClientHelloParams) : Proc ℕ := do
  bufferPushMessage HandshakeType.clientHello do
    bufferPushUInt 2 0x0303
    bufferPushv p.clientRandom
    bufferPushBlock 1 (if p.mode = .encodedInner then pure () else bufferPushv p.legacySessionId)
    bufferPushBlock 2 (Procedure.forEach (fun (cs : CipherSuite) => bufferPushUInt 2 cs.id)
      ctx.cipherSuites)
    bufferPushBlock 1 (bufferPushv [0])
    bufferPushBlock 2 (pushClientHelloExtensions ctx p)

end Picotls
