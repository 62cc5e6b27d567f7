import Picotls.Client.Handshake
import Picotls.Effects.Record

/-!
# Effects of the client's procedures
-/

namespace Picotls

open Foundation Procedure

set_option synthInstance.maxSize 2048

variable [Crypto]

variable (isSecondFlight : Bool) (message ticket : Bytes) (p : ClientHelloParams) (ctx : Context)
    (acc : DecodedEncryptedExtensions) (emitter : Emitter) (label : Label)
    (binderKey cookie : Option Bytes) (properties : Option HandshakeProperties)
    (psk : Option OfferedPsk) (sh : ServerHello) (block src : Src) (f : Tls → Bool)
    (confirmHashOff exttype : ℕ)

/-! ## Encoding the ClientHello -/

instance : Does [.io] (emitServerNameExtension serverName) :=
  ⟨by unfold emitServerNameExtension; infer_instance⟩

instance : Does [.io] (pushOuterEchExtension p) :=
  ⟨by unfold pushOuterEchExtension; infer_instance⟩

instance : Does [.io] (pushInnerEchExtension p) :=
  ⟨by unfold pushInnerEchExtension; infer_instance⟩

instance : Does [.io] (pushEchExtension p) :=
  ⟨by unfold pushEchExtension; infer_instance⟩

instance : Does [.io] (pushKeyShareExtension p) :=
  ⟨by unfold pushKeyShareExtension; infer_instance⟩

instance : Does [.io] (pushServerNameExtension p) :=
  ⟨by unfold pushServerNameExtension; infer_instance⟩

instance : Does [.io] (pushAlpnExtension p) :=
  ⟨by unfold pushAlpnExtension; infer_instance⟩

instance : Does [.io] (pushContextExtensions ctx p) :=
  ⟨by unfold pushContextExtensions; infer_instance⟩

instance (psk : OfferedPsk) : Does [.io, .draw] (pushHiddenPskIdentity psk) :=
  ⟨by unfold pushHiddenPskIdentity; infer_instance⟩

instance (psk : OfferedPsk) : Does [.io, .draw] (pushPskIdentity p psk) :=
  ⟨by unfold pushPskIdentity; infer_instance⟩

instance (psk : OfferedPsk) : Does [.io, .draw] (pushPskExtension p psk) :=
  ⟨by unfold pushPskExtension; infer_instance⟩

instance : Does [.io, .draw] (pushClientHelloExtensions ctx p) :=
  ⟨by unfold pushClientHelloExtensions; infer_instance⟩

instance : Does [.io, .draw] (encodeClientHello ctx p) :=
  ⟨by unfold encodeClientHello; infer_instance⟩

/-! ## Sending the ClientHello -/

instance : Does [.io, .refuse] (decodeNewSessionTicket src) :=
  ⟨by unfold decodeNewSessionTicket; infer_instance⟩

instance : Does [.io, .refuse] (decodeStoredSessionTicket ticket) := by
  refine ⟨?_⟩
  unfold decodeStoredSessionTicket
  repeat' first | infer_instance | refine .seq ?_ fun _ => ?_ | split

instance (properties : HandshakeProperties) :
    Does [.io, .draw, .ech] (setupEchOffer properties sniName) := by
  refine ⟨?_⟩
  unfold setupEchOffer
  refine Respects.seq inferInstance fun tls => ?_
  unfold whenSome
  repeat' first | infer_instance | refine .seq ?_ fun _ => ?_ | split

instance (psk : PreSharedKey) : Does [] (checkExternalPskHash psk) :=
  ⟨by unfold checkExternalPskHash; infer_instance⟩

/-- The suite of the key schedule and the offer of a pre-shared key are set together. -/
instance (g : Tls → Option CipherSuite) :
    Does [.suite, .psk] (modifyTls fun tls =>
    { tls with offeredPsk := f tls, cipherSuite := g tls }) := by
  refine ⟨⟨fun env s => ?_⟩⟩
  exact .tail (.single ⟨.suite, by simp, .suite s (g s.tls)⟩)
    ⟨.psk, by simp, .psk _ (f s.tls) s.tls.isPskHandshake⟩

instance (g : Tls → Option KeyExchangeAlgorithm) (h : Tls → Option CipherSuite) :
    Does [.negotiation, .suite, .psk] (modifyTls fun tls =>
      { tls with offeredPsk := f tls, keyShare := g tls, cipherSuite := h tls }) := by
  refine ⟨⟨fun env s => ?_⟩⟩
  exact .tail (.tail (.single ⟨.suite, by simp, .suite s (h s.tls)⟩)
    ⟨.psk, by simp, .psk _ (f s.tls) s.tls.isPskHandshake⟩)
    ⟨.negotiation, by simp, .negotiation _ s.tls.clientRandom s.tls.legacySessionId (g s.tls)
      s.tls.keyShareCtx⟩

instance (psk : PreSharedKey) :
    Does [.io, .suite, .psk, .earlyData] (prepareExternalPsk properties psk) :=
  ⟨by unfold prepareExternalPsk; dsimp only; infer_instance⟩

instance (psk : PreSharedKey) :
    Does [.io, .suite, .psk, .earlyData] (offerExternalPsk properties isSecondFlight psk) :=
  ⟨by unfold offerExternalPsk; infer_instance⟩

instance (properties : HandshakeProperties) :
    Does [.io, .negotiation, .suite, .psk, .earlyData, .refuse]
      (offerTicket properties isSecondFlight ticket) := by
  refine ⟨?_⟩
  unfold offerTicket
  repeat' first | infer_instance | refine .seq ?_ fun _ => ?_ | split

instance :
    Does [.io, .negotiation, .suite, .psk, .earlyData, .refuse]
      (offerPsk properties isSecondFlight) := by
  refine ⟨?_⟩
  unfold offerPsk
  repeat' first | infer_instance | refine .seq ?_ fun _ => ?_ | split

instance (properties : HandshakeProperties) : Does [.io] (reportEarlyData properties) :=
  ⟨by unfold reportEarlyData; infer_instance⟩

instance : Does [.io, .negotiation] (createKeyShare properties) :=
  ⟨by unfold createKeyShare; dsimp only; infer_instance⟩

instance :
    Does [.io, .transcript, .note .derive, .note .finishedMac]
      (updateChHashAndBinder chStart binderKey) := by
  refine ⟨?_⟩
  unfold updateChHashAndBinder
  dsimp only
  split <;> infer_instance

instance : Does [.io, .draw] (buildEncodedChInner ctx p) :=
  ⟨by unfold buildEncodedChInner; dsimp only; infer_instance⟩

instance : Does [.io, .ech] (keepFirstEch payloadOff payloadSize encSize) :=
  ⟨by unfold keepFirstEch; dsimp only; infer_instance⟩

instance :
    Does [.io, .draw, .transcript, .ech, .note .derive, .note .finishedMac]
      (wrapInOuterHello messStart p aead outerRandom binderKey) :=
  ⟨by unfold wrapInOuterHello; dsimp only; infer_instance⟩

instance : Does [.io, .note .derive] (deriveBinderKey psk) := by
  refine ⟨?_⟩
  cases psk <;> (unfold deriveBinderKey; infer_instance)

instance :
    Does [.io, .draw, .transcript, .ech, .note .derive, .note .finishedMac, .note .absorb]
      (buildClientHello properties isSecondFlight sniName psk cookie) :=
  ⟨by unfold buildClientHello; dsimp only; infer_instance⟩

instance :
    Does [.io, .advance, .schedule, .note .derive, .note .startSchedule] (startKeySchedule psk) :=
  ⟨by unfold startKeySchedule; infer_instance⟩

/-- The effects of composing a ClientHello. -/
abbrev composeEffects : List Effect :=
  [.io, .draw, .transcript, .advance, .schedule, .encrypt, .negotiation, .suite, .psk, .ech,
    .earlyData, .note .derive, .note .finishedMac, .note .startSchedule, .note .absorb, .refuse]

instance : Does composeEffects (composeClientHello emitter properties cookie) :=
  ⟨by unfold composeClientHello; dsimp only; infer_instance⟩

instance :
    Does [.io, .encSecret, .encClear, .encInstall, .misc, .note .derive]
      (beginEarlyData emitter isSecondFlight psk) :=
  ⟨by unfold beginEarlyData; infer_instance⟩

/-- The effects of sending a ClientHello. -/
abbrev sendHelloEffects : List Effect :=
  .encSecret :: .encClear :: .encInstall :: .misc :: .state .clientExpectServerHello ::
    .state .clientExpectSecondServerHello :: .note .clientHello :: .note .sent :: composeEffects

instance (cookie : Option (Option Bytes)) :
    Does sendHelloEffects (sendClientHello emitter properties cookie) :=
  ⟨by unfold sendClientHello; dsimp only; infer_instance⟩

/-! ## ServerHello and HelloRetryRequest -/

instance (acc : ServerHelloExtensions) : Does [] (decodeServerKeyShare acc block) :=
  ⟨by unfold decodeServerKeyShare; infer_instance⟩

instance (acc : ServerHelloExtensions) :
    Does [.io, .refuse] (decodeServerHelloExtension acc exttype block) :=
  ⟨by unfold decodeServerHelloExtension; infer_instance⟩

instance : Does [.psk] (checkServerSelection ext) :=
  ⟨by unfold checkServerSelection; infer_instance⟩

instance : Does [.io, .suite, .psk, .refuse] (decodeServerHello message) :=
  ⟨by unfold decodeServerHello; dsimp only; infer_instance⟩

instance : Does [.encClear, .earlyData] abandonEarlyData :=
  ⟨by unfold abandonEarlyData; infer_instance⟩

instance : Does [.negotiation] (adoptSelectedGroup selectedGroup) := by
  refine ⟨?_⟩
  unfold adoptSelectedGroup
  repeat' first | infer_instance | refine .seq ?_ fun _ => ?_ | split

instance : Does sendHelloEffects (handleHelloRetryRequest emitter sh properties) :=
  ⟨by unfold handleHelloRetryRequest; infer_instance⟩

instance : Does [.io, .note .derive] (echConfirmationMatches message confirmHashOff label) :=
  ⟨by unfold echConfirmationMatches; infer_instance⟩

instance :
    Does [.io, .transcript, .ech, .note .derive, .note .decideEch]
      (clientEchSelectHello message confirmHashOff label) :=
  ⟨by unfold clientEchSelectHello; infer_instance⟩

instance :
    Does [.io, .transcript, .advance, .schedule, .ech, .note .derive, .note .selectCipher,
      .note .decideEch, .note .absorb] (clientAbsorbRetry message sh) :=
  ⟨by unfold clientAbsorbRetry; dsimp only; infer_instance⟩

instance :
    Does (.note .selectCipher :: .note .decideEch :: sendHelloEffects)
      (clientHandleRetry emitter message sh properties) :=
  ⟨by unfold clientHandleRetry; infer_instance⟩

instance : Does [.transcript] dropOuterTranscript :=
  ⟨by unfold dropOuterTranscript; infer_instance⟩

instance : Does [.io, .negotiation, .note .exchange] (clientExchangeKeys peerkey) := by
  refine ⟨?_⟩
  cases peerkey <;> (unfold clientExchangeKeys; infer_instance)

instance :
    Does [.io, .advance, .dec, .encSecret, .encClear, .encInstall, .earlyData, .note .derive,
      .note .acceptServerHello, .note .handshakeSecret]
      (clientDeriveHandshakeKeys ecdhSecret) :=
  ⟨by unfold clientDeriveHandshakeKeys; infer_instance⟩

instance :
    Does [.io, .transcript, .advance, .schedule, .dec, .encSecret, .encClear, .encInstall,
      .negotiation, .ech, .earlyData, .state .clientExpectEncryptedExtensions, .note .derive,
      .note .selectCipher, .note .acceptServerHello, .note .absorb, .note .decideEch,
      .note .exchange, .note .handshakeSecret]
      (clientHandleServerHello message sh) :=
  ⟨by unfold clientHandleServerHello; dsimp only; infer_instance⟩

instance : Does [.io, .suite, .psk, .refuse] (clientReadHello message) :=
  ⟨by unfold clientReadHello; infer_instance⟩

instance :
    Does (.dec :: .state .clientExpectEncryptedExtensions :: .note .hello :: .note .selectCipher ::
      .note .acceptServerHello :: .note .decideEch :: .note .exchange :: .note .handshakeSecret ::
      sendHelloEffects) (clientHandleHello emitter message properties) :=
  ⟨by unfold clientHandleHello; infer_instance⟩

/-! ## The encrypted part of the handshake -/

instance : Does [.io, .names] (decodeSelectedProtocol block) :=
  ⟨by unfold decodeSelectedProtocol; infer_instance⟩

instance : Does [.io] (decodeRetryConfigs properties block) :=
  ⟨by unfold decodeRetryConfigs; infer_instance⟩

instance : Does [.io] (collectEncryptedExtension properties acc exttype block) :=
  ⟨by unfold collectEncryptedExtension; infer_instance⟩

instance : Does [.io, .names] (interpretEncryptedExtension properties acc exttype block) := by
  refine ⟨?_⟩
  unfold interpretEncryptedExtension
  repeat' first | infer_instance | refine .seq ?_ fun _ => ?_ | split

instance : Does [.io, .names, .refuse] (decodeEncryptedExtension properties acc exttype block) :=
  ⟨by unfold decodeEncryptedExtension; infer_instance⟩

instance :
    Does [.io, .transcript, .names, .earlyData, .state .clientExpectFinished,
      .state .clientExpectCertificateRequestOrCertificate, .note .absorb, .refuse]
      (clientHandleEncryptedExtensions message properties) :=
  ⟨by unfold clientHandleEncryptedExtensions; infer_instance⟩

instance : Does [.io, .misc, .refuse] (decodeCertificateRequest src) :=
  ⟨by unfold decodeCertificateRequest; infer_instance⟩

instance :
    Does [.io, .transcript, .misc, .state .clientExpectCertificate, .note .absorb, .refuse]
      (clientHandleCertificateRequest message) :=
  ⟨by unfold clientHandleCertificateRequest; infer_instance⟩

instance :
    Does [.io, .misc, .verify, .note .authenticate, .refuse] (clientDoHandleCertificate src) :=
  ⟨by unfold clientDoHandleCertificate; infer_instance⟩

/-- The effects of the handlers of certificates. -/
abbrev certificateEffects : List Effect :=
  [.io, .transcript, .misc, .state .clientExpectCertificateVerify, .verify, .refuse, .note .absorb,
    .note .authenticate]

instance : Does certificateEffects (clientHandleCertificate message) :=
  ⟨by unfold clientHandleCertificate; infer_instance⟩

instance : Does certificateEffects (clientHandleCompressedCertificate message) :=
  ⟨by unfold clientHandleCompressedCertificate; infer_instance⟩

instance :
    Does [.io, .transcript, .misc, .state .clientExpectFinished, .note .absorb,
      .note .authenticate]
      (clientHandleCertificateVerify message) :=
  ⟨by unfold clientHandleCertificateVerify; infer_instance⟩

instance :
    Does [.io, .transcript, .dec, .encSecret, .encClear, .encInstall, .encrypt, .earlyData,
      .note .derive, .note .sent] (clientEndEarlyData emitter) :=
  ⟨by unfold clientEndEarlyData; infer_instance⟩

instance : Does [.io, .transcript, .encrypt, .misc, .note .sent] (clientAuthenticate emitter) :=
  ⟨by unfold clientAuthenticate; dsimp only; infer_instance⟩

instance :
    Does [.io, .transcript, .advance, .dec, .encSecret, .encClear, .encInstall, .encrypt,
      .earlyData, .misc, .state .clientPostHandshake, .note .derive, .note .finishedMac,
      .note .sent, .note .absorb, .note .authenticate]
      (clientHandleFinished emitter message) :=
  ⟨by unfold clientHandleFinished; dsimp only; infer_instance⟩

instance (src nonce : Bytes) : Does [.io, .note .derive] (buildStoredSessionTicket src nonce) :=
  ⟨by unfold buildStoredSessionTicket; infer_instance⟩

instance :
    Does [.io, .note .derive, .note .saveTicket, .refuse] (clientHandleNewSessionTicket message) :=
  ⟨by unfold clientHandleNewSessionTicket; dsimp only; infer_instance⟩

end Picotls
