import Picotls.Authentication
import Picotls.Client.ServerHello

/-!
# The client's handling of the encrypted part of the handshake

After the ServerHello the client reads EncryptedExtensions, authenticates the server unless a
pre-shared key already did, and answers the server's Finished with its own. Session tickets may
arrive afterwards.
-/

namespace Picotls

open Foundation

variable [Crypto]

/-! ## EncryptedExtensions -/

/-- What EncryptedExtensions have contributed so far. -/
structure DecodedEncryptedExtensions where
  skipEarlyData : Bool := true
  serverOfferedCertType : UInt8 := 0
  unknownExtensions : List RawExtension := []
  /-- Memory for unknown extensions has been allocated. -/
  collecting : Bool := false

/-- The protocol that the server selected. -/
def decodeSelectedProtocol (block : Src) : Proc Unit := do
  let (list, rest) ← block.decodeOpenBlock 2
  let (name, others) ← list.decodeOpenBlock 1
  throwIf (name.data = []) Alert.decodeError
  setNegotiatedProtocol (some name.data)
  throwIf (others.data ≠ []) Alert.handshakeFailure
  rest.assertBlockClose

/-- Configurations for a later attempt, sent by a server that rejected ECH. -/
def decodeRetryConfigs (properties : Option HandshakeProperties) (block : Src) : Proc Unit := do
  let tls ← getTls
  throwIf (tls.ech.state ≠ .offered ∧ tls.ech.state ≠ .grease) Alert.unsupportedExtension
  let decoded ← clientDecodeEchConfigList tls.ctx block.data
  runIf (tls.ech.state ≠ .grease ∧ decoded.isSome ∧
      (properties.map HandshakeProperties.wantsRetryConfigs).getD false) do
    allocate
    modifyReport fun report => { report with retryConfigs := some block.data }

/-- Collect an extension of EncryptedExtensions that the library does not know. -/
def collectEncryptedExtension (properties : Option HandshakeProperties)
    (acc : DecodedEncryptedExtensions) (exttype : ℕ) (block : Src) :
    Proc DecodedEncryptedExtensions := do
  let wanted ← shouldCollectUnknownExtension properties exttype
  if wanted then
    runIf (!acc.collecting) allocate
    let slots ← collectUnknownExtension acc.unknownExtensions exttype block.data
    return { acc with unknownExtensions := slots, collecting := true }
  else return acc

/-- What an extension of EncryptedExtensions contributes. -/
def interpretEncryptedExtension (properties : Option HandshakeProperties)
    (acc : DecodedEncryptedExtensions) (exttype : ℕ) (block : Src) :
    Proc DecodedEncryptedExtensions := do
  let tls ← getTls
  if exttype = ExtensionType.serverName then
    throwIf (block.data ≠ []) Alert.decodeError
    throwIf ((tls.serverName.filter (!serverNameIsIpaddr ·)).isNone) Alert.illegalParameter
    return acc
  else if exttype = ExtensionType.alpn then
    decodeSelectedProtocol block
    return acc
  else if exttype = ExtensionType.earlyData then
    throwIf (!tls.usingEarlyData) Alert.illegalParameter
    return { acc with skipEarlyData := false }
  else if exttype = ExtensionType.serverCertificateType then
    match block.data with
    | [type] => return { acc with serverOfferedCertType := type }
    | _ => throwCode Alert.decodeError
  else if exttype = ExtensionType.encryptedClientHello then
    decodeRetryConfigs properties block
    return acc
  else collectEncryptedExtension properties acc exttype block

/-- One extension of EncryptedExtensions. -/
def decodeEncryptedExtension (properties : Option HandshakeProperties)
    (acc : DecodedEncryptedExtensions) (exttype : ℕ) (block : Src) :
    Proc (DecodedEncryptedExtensions × Src) := do
  notifyExtension HandshakeType.encryptedExtensions exttype block.data
  let acc ← interpretEncryptedExtension properties acc exttype block
  return (acc, ⟨0, []⟩)

/-- Handle EncryptedExtensions. -/
def clientHandleEncryptedExtensions (message : Bytes) (properties : Option HandshakeProperties) :
    Proc Progress := do
  let ee ← decodeExtensions .encryptedExtensions (.ofMessage message handshakeHeaderSize) {}
    (decodeEncryptedExtension properties)
  let tls ← getTls
  throwIf (ee.serverOfferedCertType ≠ (if tls.ctx.useRawPublicKeys then 2 else 0))
    Alert.unsupportedCertificate
  runIf tls.usingEarlyData do
    modifyTls fun tls => { tls with usingEarlyData := !ee.skipEarlyData }
    whenSome properties fun _ => modifyReport fun report => { report with
      earlyDataAcceptance := if ee.skipEarlyData then .rejected else .accepted }
  reportUnknownExtensions properties ee.unknownExtensions
  absorbMessage message
  modifyTls fun tls => { tls with
    state := if tls.isPskHandshake then .clientExpectFinished
      else .clientExpectCertificateRequestOrCertificate }
  return .inProgress

/-! ## Authentication -/

/-- Decode a CertificateRequest into the connection. -/
def decodeCertificateRequest (src : Src) : Proc Unit := do
  let (context, src) ← src.decodeOpenBlock 1
  allocate
  modifyTls fun tls => { tls with certificateRequest.context := some context.data }
  decodeExtensions .certificateRequest src () fun _ exttype block => do
    notifyExtension HandshakeType.certificateRequest exttype block.data
    runIf (exttype = ExtensionType.signatureAlgorithms) do
      let algos ← decodeSignatureAlgorithms block
      modifyTls fun tls => { tls with certificateRequest.signatureAlgorithms := algos }
    return ((), ⟨0, []⟩)
  let tls ← getTls
  throwIf (tls.certificateRequest.signatureAlgorithms = []) Alert.missingExtension

/-- Handle a CertificateRequest. -/
def clientHandleCertificateRequest (message : Bytes) : Proc Progress := do
  let tls ← getTls
  assert (!tls.isPskHandshake)
  decodeCertificateRequest (.ofMessage message handshakeHeaderSize)
  let tls ← getTls
  throwIf (tls.certificateRequest.context ≠ some []) Alert.illegalParameter
  modifyTls fun tls => { tls with state := .clientExpectCertificate }
  absorbMessage message
  return .inProgress

/-- The server must present a certificate. -/
def clientDoHandleCertificate (src : Src) : Proc Unit := do
  let gotCerts ← handleCertificate src
  throwIf (!gotCerts) Alert.illegalParameter

/-- Handle a Certificate. -/
def clientHandleCertificate (message : Bytes) : Proc Progress := do
  clientDoHandleCertificate (.ofMessage message handshakeHeaderSize)
  absorbMessage message
  modifyTls fun tls => { tls with state := .clientExpectCertificateVerify }
  return .inProgress

/-- Handle a CompressedCertificate. -/
def clientHandleCompressedCertificate (message : Bytes) : Proc Progress := do
  let tls ← getTls
  throwIf tls.ctx.decompressCertificate.isNone Alert.unexpectedMessage
  let (algo, src) ← Src.decodeUInt 2 (.ofMessage message handshakeHeaderSize)
  let (uncompressedSize, src) ← src.decodeUInt 3
  throwIf (65536 < uncompressedSize) Alert.badCertificate
  allocate
  let (block, rest) ← src.decodeOpenBlock 3
  let answer ← ask fun env tick =>
    env.decompressCertificate tick algo uncompressedSize block.data
  let uncompressed ← ofAnswer answer
  rest.assertBlockClose
  clientDoHandleCertificate ⟨0, uncompressed⟩
  absorbMessage message
  modifyTls fun tls => { tls with state := .clientExpectCertificateVerify }
  return .inProgress

/-- Handle a CertificateVerify. -/
def clientHandleCertificateVerify (message : Bytes) : Proc Progress := do
  handleCertificateVerify message serverCertificateVerifyContextString
  modifyTls fun tls => { tls with state := .clientExpectFinished }
  return .inProgress

/-! ## Finished -/

/-- End early data, if any was sent, and put the handshake key into use. -/
def clientEndEarlyData (emitter : Emitter) : Proc Unit := do
  let tls ← getTls
  runIf tls.pendingHandshakeSecret.isSome do
    assert (tls.enc.aead.isSome || tls.ctx.updateTrafficKey)
    runIf (tls.usingEarlyData && !tls.ctx.omitEndOfEarlyData)
      (pushMessage emitter true HandshakeType.endOfEarlyData (pure ()))
    modifyTls fun tls => { tls with usingEarlyData := false }
    commissionHandshakeSecret

/-- Answer a CertificateRequest. The request is forgotten whether or not that succeeds. -/
def clientAuthenticate (emitter : Emitter) : Proc Unit := do
  let tls ← getTls
  whenSome tls.certificateRequest.context fun context => do
    let algos := tls.certificateRequest.signatureAlgorithms
    let result ← attemptCode do
      sendCertificate emitter algos context false []
      sendCertificateVerify emitter (some algos) clientCertificateVerifyContextString
    modifyTls fun tls => { tls with certificateRequest.context := none }
    ofAnswer result

/-- Handle the server's Finished. The outcome of sending the client's own Finished is overwritten
by that of installing the application key. -/
def clientHandleFinished (emitter : Emitter) (message : Bytes) : Proc Progress := do
  let tls ← getTls
  let alertEchRequired := tls.ech.state = .offered
  verifyFinished message
  absorbMessage message
  keyScheduleExtract none
  setupTrafficProtection false (some .serverApplicationTraffic) 3 0 false
  let sendSecret ← deriveSecret .clientApplicationTraffic
  deriveExporterSecret false
  clientEndEarlyData emitter
  pushChangeCipherSpec emitter
  runIf (¬ alertEchRequired) (clientAuthenticate emitter)
  let _ ← attemptCode (sendFinished emitter)
  modifyProtection true fun tp => { tp with secret := sendSecret }
  setupTrafficProtection true none 3 0 false
  modifyTls fun tls => { tls with state := .clientPostHandshake }
  throwIf alertEchRequired Alert.echRequired
  return .done

/-! ## Session tickets -/

/-- The ticket to be saved: when and with which algorithms it was obtained, the message, and the
pre-shared key. -/
def buildStoredSessionTicket (src : Bytes) (nonce : Bytes) : Proc Bytes := do
  let tls ← getTls
  let now ← ask Environment.getTime
  bufferPushUInt 8 now
  let keyShare ← deref tls.keyShare
  bufferPushUInt 2 keyShare.id
  let suite ← deref tls.cipherSuite
  bufferPushUInt 2 suite.id
  bufferPushBlock 3 (bufferPushv src)
  bufferPushBlock 2 do
    allocate
    let secret ← deriveResumptionSecret nonce
    appendReserved secret
    return secret

/-- Handle a NewSessionTicket. -/
def clientHandleNewSessionTicket (message : Bytes) : Proc Progress := do
  let src := Src.ofMessage message handshakeHeaderSize
  let nst ← decodeNewSessionTicket src
  let tls ← getTls
  runIf tls.ctx.saveTicket do
    let (secret, ticket) ← withBuffer [] (buildStoredSessionTicket src.data nst.nonce)
    emitEvent (.saveTicket secret)
    let ret ← ask fun env tick => env.saveTicket tick ticket
    checkCode ret
  return .done

end Picotls
