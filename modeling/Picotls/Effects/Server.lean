import Picotls.Effects.Record
import Picotls.Server.Hello

/-!
# Effects of the server's procedures
-/

namespace Picotls

open Foundation Procedure

set_option synthInstance.maxSize 2048

variable (echIsInnerCh isSecondFlight keyShareMissing : Bool)
    (message payload rawMessage ticketAgeAdd : Bytes) (ch outerCh : ClientHello) (emitter : Emitter)
    (mode : HandshakeMode) (keyShare : Option (KeyExchangeAlgorithm × Bytes))
    (signatureAlgorithms : Option (List ℕ)) (prevRandom : Option Bytes)
    (properties : Option HandshakeProperties) (negotiatedGroup : Option KeyExchangeAlgorithm)
    (psk : Option SelectedPsk) (identity : PskIdentity) (block outer src : Src)
    (exttype fuel hashEnd index now : ℕ)

/-! ## Decoding the ClientHello -/

instance : Does [.io] (collectClientHelloExtension properties ch exttype block) :=
  ⟨by unfold collectClientHelloExtension; infer_instance⟩

instance : Does [.io, .refuse] (decodeClientHelloExtension properties ch exttype block) := by
  refine ⟨?_⟩
  unfold decodeClientHelloExtension
  dsimp only
  repeat' first | infer_instance | refine .seq ?_ fun _ => ?_ | split

instance : Does [.io, .refuse] (decodeClientHello message properties) :=
  ⟨by unfold decodeClientHello; dsimp only; infer_instance⟩

instance : Does [] (findOuterExtension reftype fuel outer) := by
  refine ⟨?_⟩
  induction fuel generalizing outer with
  | zero => unfold findOuterExtension; infer_instance
  | succ fuel ih =>
    unfold findOuterExtension
    repeat' first | infer_instance | refine .seq ?_ fun _ => ?_ | split

instance : Does [.io] (copyOuterExtensions fuel refs outer) := by
  refine ⟨?_⟩
  induction fuel generalizing refs outer with
  | zero => unfold copyOuterExtensions; infer_instance
  | succ fuel ih => unfold copyOuterExtensions; infer_instance

instance : Does [.io] (rebuildChInnerExtension exttype block outer) :=
  ⟨by unfold rebuildChInnerExtension; infer_instance⟩

instance : Does [.io] (rebuildChInnerExtensionList fuel src outer) := by
  refine ⟨?_⟩
  induction fuel generalizing src outer with
  | zero => unfold rebuildChInnerExtensionList; infer_instance
  | succ fuel ih => unfold rebuildChInnerExtensionList; infer_instance

instance : Does [.io] (rebuildChInnerExtensions src outer) :=
  ⟨by unfold rebuildChInnerExtensions; infer_instance⟩

instance : Does [.io] (copyBlock capacity src) :=
  ⟨by unfold copyBlock; infer_instance⟩

instance : Does [.io] (rebuildChInner payload outerCh outer) :=
  ⟨by unfold rebuildChInner; infer_instance⟩

/-! ## Pre-shared keys -/

variable [Crypto]

instance :
    Does [.io, .note .derive] (encodeSessionIdentifier ctx ticketAgeAdd ticketNonce serverName
      keyExchangeId csid negotiatedProtocol) := by
  refine ⟨?_⟩
  unfold encodeSessionIdentifier
  cases ctx.ticketContext <;> infer_instance

instance : Does [] (vecIsString x y) := ⟨by unfold vecIsString; infer_instance⟩

instance : Does [] (ticketContextMatches ticketCtx) := by
  refine ⟨?_⟩
  unfold ticketContextMatches
  repeat' first | infer_instance | refine .seq ?_ fun _ => ?_ | split

instance : Does [] (ticketProtocolMatches negotiatedProtocol) := by
  refine ⟨?_⟩
  unfold ticketProtocolMatches
  repeat' first | infer_instance | refine .seq ?_ fun _ => ?_ | split

instance : Does [.io, .negotiation] (tryTicket now ch index identity) := by
  refine ⟨?_⟩
  unfold tryTicket
  dsimp only
  repeat' first | infer_instance | refine .seq ?_ fun _ => ?_ | split

instance : Does [.io, .negotiation] (tryPskIdentity now ch index identity) := by
  refine ⟨?_⟩
  unfold tryPskIdentity
  repeat' first | infer_instance | refine .seq ?_ fun _ => ?_ | split

instance : Does [.io, .negotiation] (findPsk now ch index identities) := by
  refine ⟨?_⟩
  induction identities generalizing index with
  | nil => unfold findPsk; infer_instance
  | cons identity rest ih =>
    unfold findPsk
    repeat' first | infer_instance | refine .seq ?_ fun _ => ?_ | split

/-- The effects of looking for a pre-shared key. -/
abbrev pskEffects : List Effect :=
  [.io, .transcript, .advance, .negotiation, .note .derive, .note .finishedMac, .note .acceptEarly]

instance :
    Does [.io, .transcript, .advance, .negotiation, .note .derive, .note .finishedMac]
      (pskBeforeComparison ch message hashEnd isSecondFlight) := by
  refine ⟨?_⟩
  unfold pskBeforeComparison
  repeat' first | infer_instance | refine .seq ?_ fun _ => ?_ | split

instance (psk : SelectedPsk) (tag : Bytes) :
    Does [.note .acceptEarly] (comparePskBinder message psk tag) :=
  ⟨by unfold comparePskBinder; infer_instance⟩

instance : Does pskEffects (tryPskHandshake ch message hashEnd isSecondFlight) :=
  ⟨by unfold tryPskHandshake; infer_instance⟩

/-! ## ServerHello and HelloRetryRequest -/

variable {E : List Effect}

instance [Listed .io E] [Listed .transcript E] [Listed .encrypt E] [Listed (.note .derive) E]
    [Within E fillRandom] [Within E extensions] :
    Within E (emitServerHello emitter ch label fillRandom extensions) := by
  unfold emitServerHello pushServerHelloBody
  infer_instance

instance [Listed .io E] [Listed .transcript E] [Listed .encrypt E] [Listed (.note .derive) E]
    [Within E additionalExtensions] :
    Within E (emitHelloRetryRequest emitter ch negotiatedGroup additionalExtensions) := by
  unfold emitHelloRetryRequest pushRetryExtensions
  infer_instance

instance : Does [] (cookieBlock octets) := ⟨by unfold cookieBlock; infer_instance⟩

instance : Does [] cookieHash := ⟨by unfold cookieHash; infer_instance⟩

instance (properties : HandshakeProperties) :
    Does [.io] (calcCookieSignature properties negotiatedGroup tbs) :=
  ⟨by unfold calcCookieSignature; infer_instance⟩

instance (emitter : Emitter) (properties : HandshakeProperties) (ch : ClientHello)
    (cookie : ClientHelloCookie) (keyShare : KeyExchangeAlgorithm) :
    Does [.io, .transcript, .advance, .encrypt, .note .derive, .note .absorb]
      (serverAcceptCookie emitter properties ch cookie keyShare) :=
  ⟨by unfold serverAcceptCookie restoreFromCookie rebuildRetry; infer_instance⟩

instance (properties : HandshakeProperties) (negotiatedGroup : KeyExchangeAlgorithm) :
    Does [.io, .transcript] (pushCookieExtension properties keyShareMissing negotiatedGroup) :=
  ⟨by unfold pushCookieExtension; infer_instance⟩

instance : Does [.io] pushEchConfirmationRoom :=
  ⟨by unfold pushEchConfirmationRoom; infer_instance⟩

/-- The effects of sending a HelloRetryRequest. -/
abbrev sendRetryEffects : List Effect :=
  [.io, .transcript, .advance, .encrypt, .startSkip, .misc, .state .serverExpectSecondClientHello,
    .note .derive, .note .sent, .note .absorb]

instance : Does [.startSkip] rejectEarlyData := Does.update fun _ s => .startSkip s

instance (properties : Option HandshakeProperties) (group : KeyExchangeAlgorithm) :
    Does sendRetryEffects (serverEmitRetry emitter properties ch keyShareMissing group) :=
  ⟨by unfold serverEmitRetry; infer_instance⟩

instance :
    Does sendRetryEffects (serverSendRetry emitter properties message ch keyShareMissing) :=
  ⟨by unfold serverSendRetry; infer_instance⟩

/-! ## The end of the handshake -/

instance : Does [.transcript] (restoreTranscript ctx) :=
  ⟨by unfold restoreTranscript; infer_instance⟩

instance : Does [.io, .transcript, .note .derive, .note .finishedMac] absorbExpectedFinished :=
  ⟨by unfold absorbExpectedFinished; infer_instance⟩

instance : Does [.io, .note .derive] (buildSessionIdentifier ticketAgeAdd) := by
  refine ⟨?_⟩
  unfold buildSessionIdentifier
  refine Respects.seq inferInstance fun tls => ?_
  cases tls.keyShare <;> infer_instance

/-- The effects of sending a session ticket. -/
abbrev sendTicketEffects : List Effect :=
  [.io, .draw, .transcript, .encrypt, .note .derive, .note .finishedMac, .note .sent,
    .note .sealTicket]

instance : Does sendTicketEffects (sendSealedTicket emitter) :=
  ⟨by unfold sendSealedTicket; infer_instance⟩

instance : Does sendTicketEffects (sendSessionTicket emitter) :=
  ⟨by unfold sendSessionTicket; infer_instance⟩

instance :
    Does [.io, .transcript, .encrypt, .misc, .state .serverGeneratingCertificateVerify, .note .sent]
      (serverSendCertificateVerify emitter signatureAlgorithms) := by
  refine ⟨?_⟩
  unfold serverSendCertificateVerify
  repeat' first | infer_instance | refine .seq ?_ fun _ => ?_ | split

instance : Does [.io, .dec, .encSecret, .encClear, .encInstall, .earlyData,
    .state .serverExpectFinished, .state .serverExpectEndOfEarlyData,
    .state .serverExpectCertificate, .note .derive]
    serverAwaitClient :=
  ⟨by unfold serverAwaitClient; infer_instance⟩

/-- The effects of finishing the first flight of a server. -/
abbrev finishEffects : List Effect :=
  [.io, .draw, .transcript, .advance, .dec, .encSecret, .encClear, .encInstall, .encrypt,
    .earlyData, .misc, .state .serverGeneratingCertificateVerify, .state .serverExpectFinished,
    .state .serverExpectEndOfEarlyData, .state .serverExpectCertificate, .note .derive,
    .note .finishedMac, .note .sent, .note .sealTicket]

instance : Does sendTicketEffects (serverSendTickets emitter) :=
  ⟨by unfold serverSendTickets; infer_instance⟩

instance : Does finishEffects (serverFinishHandshake emitter sendCertVerify signatureAlgorithms) :=
  ⟨by unfold serverFinishHandshake serverFinishFlight; infer_instance⟩

instance :
    Does [.io, .transcript, .dec, .encSecret, .encClear, .encInstall, .earlyData,
      .state .serverExpectFinished, .note .derive, .note .absorb]
      (serverHandleEndOfEarlyData message) :=
  ⟨by unfold serverHandleEndOfEarlyData; infer_instance⟩

instance :
    Does [.io, .transcript, .misc, .state .serverExpectCertificateVerify,
      .state .serverExpectFinished, .verify, .note .absorb, .note .authenticate, .refuse]
      (serverHandleCertificate message) :=
  ⟨by unfold serverHandleCertificate; infer_instance⟩

instance :
    Does [.io, .transcript, .misc, .state .serverExpectFinished, .note .absorb,
      .note .authenticate]
      (serverHandleCertificateVerify message) :=
  ⟨by unfold serverHandleCertificateVerify; infer_instance⟩

instance :
    Does [.io, .transcript, .dec, .earlyData, .state .serverPostHandshake, .note .derive,
      .note .finishedMac, .note .absorb, .note .authenticate]
      (serverHandleFinished message) :=
  ⟨by unfold serverHandleFinished; infer_instance⟩

/-! ## The ClientHello -/

instance : Does [.io, .names, .context] (callOnClientHello params) := by
  have hanswer (f : Tls → Context) (g h : Tls → Option Bytes) :
      Does [.names, .context] (modifyTls fun tls =>
        { tls with ctx := f tls, serverName := g tls, negotiatedProtocol := h tls }) := by
    refine ⟨⟨fun env s => ?_⟩⟩
    exact .tail (.single ⟨.context, by simp, .context s (f s.tls)⟩)
      ⟨.names, by simp, .names _ (g s.tls) (h s.tls)⟩
  exact ⟨by unfold callOnClientHello; infer_instance⟩

instance : Does [.io, .names, .context] (refuseVersion ch prevRandom echIsInnerCh rawMessage) :=
  ⟨by unfold refuseVersion; infer_instance⟩

instance :
    Does [.io, .names, .context]
      (checkClientHelloConstraints ch prevRandom echIsInnerCh rawMessage) :=
  ⟨by unfold checkClientHelloConstraints; infer_instance⟩

instance : Does [] (checkSecondEch ch) := by
  refine ⟨?_⟩
  unfold checkSecondEch runIf
  split <;> infer_instance

instance : Does [.io, .ech] (serverCreateOpener kdf aead configId enc) := by
  refine ⟨?_⟩
  unfold serverCreateOpener runIf
  repeat' first | infer_instance | refine .seq ?_ fun _ => ?_ | split

instance :
    Does [.io, .names, .ech, .context, .refuse]
      (serverAdoptInnerHello encoded message outerCh isSecondFlight properties) :=
  ⟨by unfold serverAdoptInnerHello; dsimp only; infer_instance⟩

instance :
    Does [.io, .names, .ech, .context, .refuse]
      (serverOpenEch aead payload payloadOff message ch isSecondFlight properties) := by
  refine ⟨?_⟩
  unfold serverOpenEch
  dsimp only
  split <;> infer_instance

instance :
    Does [.io, .names, .ech, .context, .refuse]
      (serverHandleEch message ch isSecondFlight properties) := by
  refine ⟨?_⟩
  unfold serverHandleEch
  repeat' first | infer_instance | refine .seq ?_ fun _ => ?_ | split

instance : Does [.io, .names, .misc, .context] (serverAdmitHello message ch isSecondFlight) :=
  ⟨by unfold serverAdmitHello; infer_instance⟩

instance : Does [.io, .schedule, .suite] (serverSelectCipher ch isSecondFlight) :=
  ⟨by unfold serverSelectCipher; infer_instance⟩

instance : Does [] (serverSelectKeyShare ch) := by
  refine ⟨?_⟩
  unfold serverSelectKeyShare
  repeat' first | infer_instance | refine .seq ?_ fun _ => ?_ | split

instance : Does pskEffects (serverSelectPsk message ch isSecondFlight) := by
  refine ⟨?_⟩
  unfold serverSelectPsk
  split <;> infer_instance

instance :
    Does [.io, .transcript, .advance, .psk, .note .derive, .note .absorb]
      (serverSettleMode message ch psk isSecondFlight properties) := by
  refine ⟨?_⟩
  unfold serverSettleMode
  repeat' first | infer_instance | refine .seq ?_ fun _ => ?_ | split

instance : Does [.misc] (serverCountTickets ch) :=
  ⟨by unfold serverCountTickets; infer_instance⟩

instance :
    Does [.io, .dec, .earlyData, .misc, .note .derive, .note .acceptEarly]
      (serverAcceptEarlyData psk) :=
  ⟨by unfold serverAcceptEarlyData; infer_instance⟩

instance : Does [.io, .negotiation, .note .exchange] (serverExchangeKeys ch mode keyShare) := by
  refine ⟨?_⟩
  unfold serverExchangeKeys
  repeat' first | infer_instance | refine .seq ?_ fun _ => ?_ | split

instance : Does [.draw] serverRandom := ⟨by unfold serverRandom; infer_instance⟩

instance :
    Does [.io, .draw, .transcript, .encrypt, .note .derive, .note .sent]
      (serverSendHello emitter ch mode exchanged psk) :=
  ⟨by unfold serverSendHello; infer_instance⟩

instance :
    Does [.io, .advance, .dec, .encSecret, .encClear, .encInstall, .earlyData, .startSkip,
      .note .derive, .note .handshakeSecret]
      (serverDeriveHandshakeKeys ch ecdhSecret) :=
  ⟨by unfold serverDeriveHandshakeKeys; infer_instance⟩

instance :
    Does [.io, .transcript, .encrypt, .note .sent]
      (sendEncryptedExtensions emitter ch properties) :=
  ⟨by unfold sendEncryptedExtensions; infer_instance⟩

instance : Does [.io, .transcript, .encrypt, .note .sent] (sendCertificateRequest emitter) :=
  ⟨by unfold sendCertificateRequest; infer_instance⟩

/-- The effects of answering a ClientHello. -/
abbrev helloAnswerEffects : List Effect :=
  .negotiation :: .psk :: .ech :: .startSkip :: .note .absorb :: .note .exchange ::
    .note .handshakeSecret :: .note .acceptEarly :: finishEffects

instance :
    Does helloAnswerEffects
      (serverAnswerHello emitter message ch keyShare isSecondFlight properties) :=
  ⟨by unfold serverAnswerHello; repeat' first | infer_instance | refine .seq ?_ fun _ => ?_⟩

instance :
    Does (.state .serverExpectSecondClientHello :: helloAnswerEffects)
      (serverDecideRetry emitter message ch keyShare isSecondFlight properties) := by
  refine ⟨?_⟩
  unfold serverDecideRetry
  split <;> infer_instance

instance (message : Bytes) (properties : Option HandshakeProperties) :
    Does [.io, .schedule, .names, .negotiation, .suite, .ech, .misc, .context, .refuse]
      (serverReadHello message properties) :=
  ⟨by unfold serverReadHello; dsimp only; infer_instance⟩

instance :
    Does (.schedule :: .names :: .suite :: .context :: .refuse ::
      .state .serverExpectSecondClientHello :: helloAnswerEffects)
      (serverHandleHello emitter message properties) :=
  ⟨by unfold serverHandleHello; infer_instance⟩

end Picotls
