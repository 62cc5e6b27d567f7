import Picotls.Runs

/-!
# Failures of procedures

A handshake call may be repeated after some codes: success and the two that report a pause. The
procedures here fail only with other codes, as long as the callbacks do.
-/

namespace Picotls

open Foundation Procedure

variable (aead : AeadContext) (isEnc keySched : Bool) (context contextString octets secret : Bytes)
    (ch : ClientHello) (code : Code) (emitter : Emitter) (algo : HashAlgorithm)
    (f : HashSlot → HashSlot) (label : Label) (signatureAlgorithms : Option (List ℕ))
    (properties : Option HandshakeProperties) (block : Proc Unit) (src : Src) (type : UInt8)
    (capacity epoch fuel seq width : ℕ)

/-- The handshake may go on although a step stopped. -/
def Fault.Continues : Fault → Prop
  | .code ret => continues ret
  | _ => False

/-- The outcome of a step lets the handshake go on. -/
def Continues {α : Type} : Except Fault α → Prop
  | .ok _ => True
  | .error fault => fault.Continues

/-- The codes that callbacks return are success or failures; only the signer may report a pause. -/
structure Environment.Conforms (env : Environment) : Prop where
  collectedExtensions : ∀ tick slots, env.collectedExtensions tick slots = 0 ∨
    ¬ continues (env.collectedExtensions tick slots)
  updateTrafficKey : ∀ tick isEnc epoch secret, env.updateTrafficKey tick isEnc epoch secret = 0 ∨
    ¬ continues (env.updateTrafficKey tick isEnc epoch secret)
  keyExchangeOnExchange : ∀ tick algo privkey peerkey code,
    env.keyExchangeOnExchange tick algo privkey peerkey = .error code → ¬ continues code
  emitCertificate : ∀ tick context pushStatusRequest compressAlgos code,
    env.emitCertificate tick context pushStatusRequest compressAlgos = .error code →
      ¬ continues code
  signCertificate : ∀ tick input algorithms code,
    env.signCertificate tick input algorithms = .error code →
      code = Error.asyncOperation ∨ ¬ continues code
  encryptTicket : ∀ tick input, (env.encryptTicket tick true input).1 = 0 ∨
    ¬ continues (env.encryptTicket tick true input).1

/-- After this failure no handshake call follows, as long as the callbacks conform. -/
def Stops (env : Environment) (fault : Fault) : Prop := env.Conforms → ¬ fault.Continues

variable {α : Type} {F : Environment → Fault → Prop}

/-! ## Steps that do not fail -/

instance : FailsWith F getTls := by unfold getTls; infer_instance

instance (f : Tls → Tls) : FailsWith F (modifyTls f) := by unfold modifyTls; infer_instance

instance : FailsWith F (emitEvent event) := by unfold emitEvent; infer_instance

instance (question : Environment → ℕ → α) : FailsWith F (ask question) := by
  unfold ask; infer_instance

instance : FailsWith F (randomBytes len) := by unfold randomBytes; infer_instance

instance : FailsWith F sendbufOff := by unfold sendbufOff; infer_instance

instance : FailsWith F getSendbuf := by unfold getSendbuf; infer_instance

instance (f : Bytes → Bytes) : FailsWith F (modifySendbuf f) := by
  unfold modifySendbuf; infer_instance

instance : FailsWith F (appendReserved octets) := by
  unfold appendReserved; infer_instance

/-! ## Combinators -/

instance (c : Prop) [Decidable c] (step : Proc Unit) [FailsWith F step] :
    FailsWith F (runIf c step) := by
  unfold runIf; infer_instance

instance (value : Option α) (step : α → Proc Unit) [∀ a, FailsWith F (step a)] :
    FailsWith F (whenSome value step) := by
  unfold whenSome; cases value <;> infer_instance

/-- Failed assertions are among the failures. -/
class AllowsAssertions (F : Environment → Fault → Prop) : Prop where
  assertion : ∀ env, F env .assertion

/-- Failed assertions and undefined behaviour are among the failures. -/
class AllowsFaults (F : Environment → Fault → Prop) : Prop extends AllowsAssertions F where
  undefined : ∀ env, F env .undefined

instance : AllowsFaults fun _ fault => ¬ fault.Continues where
  assertion _ h := h
  undefined _ h := h

instance : AllowsFaults Stops where
  assertion _ _ h := h
  undefined _ _ h := h

instance [hF : AllowsAssertions F] : FailsWith F (Procedure.fail .assertion : Proc α) :=
  ⟨fun env _ _ _ hrun => by cases hrun; exact hF.assertion env⟩

instance [AllowsAssertions F] : FailsWith F (assert c) := by
  unfold assert; infer_instance

variable [hF : AllowsFaults F]

/-- A procedure whose code is caught fails only for other reasons. -/
instance (body : Proc α) : FailsWith F (attemptCode body) where
  failure env s fault s' hrun := by
    simp only [attemptCode, attempt_bind] at hrun
    rcases hbody : body env s with ⟨(code | _ | _) | a, t⟩ <;> rw [hbody] at hrun <;> cases hrun
    · exact hF.assertion env
    · exact hF.undefined env

variable [Crypto]

instance : FailsWith F (returnCode body) := by
  unfold returnCode
  refine FailsWith.seq inferInstance fun result => ?_
  cases result <;> infer_instance

instance : FailsWith F (exitCode body) := by unfold exitCode; infer_instance

instance : FailsWith F (ptlsSendAlert level description) := by
  unfold ptlsSendAlert; infer_instance

instance (origOff : ℕ) (ret : Code) : FailsWith F (sendFailureAlert origOff ret) := by
  unfold sendFailureAlert; dsimp only; infer_instance

/-! ## Codes that end a handshake -/

/-- A code that is neither success nor a pause, for instance search. -/
class IsRefusal (code : Code) : Prop where
  refuses : continues code = false

instance : IsRefusal Error.noMemory := ⟨rfl⟩
instance : IsRefusal Error.blockOverflow := ⟨rfl⟩
instance : IsRefusal Error.notAvailable := ⟨rfl⟩
instance : IsRefusal Error.library := ⟨rfl⟩
instance : IsRefusal Alert.unexpectedMessage := ⟨rfl⟩
instance : IsRefusal Alert.missingExtension := ⟨rfl⟩

/-- Refusals and the failures of the callback for traffic keys are among the failures. -/
class AllowsRefusals (F : Environment → Fault → Prop) : Prop extends AllowsFaults F where
  refusal : ∀ env code, continues code = false → F env (.code code)
  updateTrafficKey : ∀ env tick isEnc epoch secret,
    env.updateTrafficKey tick isEnc epoch secret ≠ 0 →
      F env (.code (env.updateTrafficKey tick isEnc epoch secret))

instance : AllowsRefusals Stops where
  refusal _ _ hcode _ hcont := Bool.false_ne_true (hcode.symm.trans hcont)
  updateTrafficKey _ tick isEnc epoch secret hne hconforms :=
    (hconforms.updateTrafficKey tick isEnc epoch secret).resolve_left hne

instance : AllowsRefusals fun _ fault => fault ≠ .code 0 where
  assertion _ := by simp
  undefined _ := by simp
  refusal _ code hcode := by
    rintro ⟨⟩
    exact Bool.noConfusion hcode
  updateTrafficKey _ _ _ _ _ hne := by simpa using hne

/-- A code is among the failures. -/
class AllowsCode (F : Environment → Fault → Prop) (code : Code) : Prop where
  allows : ∀ env, F env (.code code)

/-- A fault with which a procedure returns a code. -/
def Fault.IsCode (fault : Fault) : Prop := ∃ code, fault = .code code

instance : AllowsCode (fun _ fault => fault.IsCode) code := ⟨fun _ => ⟨code, rfl⟩⟩

instance {F : Environment → Fault → Prop} [hF : AllowsRefusals F] [h : IsRefusal code] :
    AllowsCode F code := ⟨fun env => hF.refusal env code h.refuses⟩

section Codes

variable {F : Environment → Fault → Prop}

omit [Crypto]

instance (f : TrafficProtection → TrafficProtection) :
    FailsWith F (modifyProtection isEnc f) := by unfold modifyProtection; infer_instance

instance (tp : TrafficProtection) [AllowsAssertions F] :
    FailsWith F (takeTls12Nonce aead tp) := by unfold takeTls12Nonce; infer_instance

instance [hF : AllowsCode F code] : FailsWith F (throwCode code : Proc α) where
  failure env s fault s' hrun := by
    cases hrun
    exact hF.allows env

instance (c : Prop) [Decidable c] [AllowsCode F code] :
    FailsWith F (throwIf c code) := by unfold throwIf; infer_instance

variable [AllowsCode F Error.noMemory]

instance : FailsWith F allocate := by unfold allocate; infer_instance

instance : FailsWith F (bufferPushv octets) := by
  unfold bufferPushv; infer_instance

instance : FailsWith F (bufferPushUInt width value) := by
  unfold bufferPushUInt; infer_instance

variable [AllowsCode F Error.blockOverflow]

instance (block : Proc α) [FailsWith F block] : FailsWith F (bufferPushBlock capacity block) := by
  unfold bufferPushBlock; dsimp only; infer_instance

instance [FailsWith F block] :
    FailsWith F (bufferPushRecord type block) := by unfold bufferPushRecord; infer_instance

instance (type : ℕ) (block : Proc α) [FailsWith F block] :
    FailsWith F (bufferPushExtension type block) := by
  unfold bufferPushExtension; infer_instance

instance (block : Proc α) [FailsWith F block] : FailsWith F (bufferPushMessage type block) := by
  unfold bufferPushMessage; infer_instance

end Codes

section Decoding

variable {F : Environment → Fault → Prop} [hF : AllowsCode F Alert.decodeError]

omit [Crypto]

instance : FailsWith F (liftM (src.decodeUInt width) : Proc (ℕ × Src)) where
  failure env s fault s' hrun := by
    rw [liftM_run, Src.decodeUInt] at hrun
    split_ifs at hrun <;> cases hrun
    exact hF.allows env

instance : FailsWith F (liftM (src.decodeOpenBlock capacity) : Proc (Src × Src)) where
  failure env s fault s' hrun := by
    rw [liftM_run, Src.decodeOpenBlock] at hrun
    dsimp only at hrun
    split_ifs at hrun <;> cases hrun <;> exact hF.allows env

instance : FailsWith F (liftM src.assertBlockClose : Proc Unit) where
  failure env s fault s' hrun := by
    rw [liftM_run, Src.assertBlockClose] at hrun
    split_ifs at hrun <;> cases hrun
    exact hF.allows env

variable [AllowsCode F Alert.illegalParameter] {β : Type} (hstype : ExtensionCarrier)
  (body : β → ℕ → Src → Proc (β × Src)) [∀ acc exttype block, FailsWith F (body acc exttype block)]

instance (acc : β) : FailsWith F (decodeExtensionList hstype body fuel seen src acc) := by
  induction fuel generalizing seen src acc with
  | zero => unfold decodeExtensionList; infer_instance
  | succ fuel ih =>
    unfold decodeExtensionList
    repeat' first | infer_instance | refine .seq ?_ fun _ => ?_ | split

instance (acc : β) : FailsWith F (decodeOpenExtensions hstype src acc body) := by
  unfold decodeOpenExtensions; infer_instance

instance (acc : β) : FailsWith F (decodeExtensions hstype src acc body) := by
  unfold decodeExtensions; infer_instance

end Decoding

section Refusals

variable {F : Environment → Fault → Prop} [hF : AllowsRefusals F]

omit [Crypto]

instance : FailsWith F (Procedure.fail .undefined : Proc α) :=
  ⟨fun env _ _ _ hrun => by cases hrun; exact hF.undefined env⟩

instance (o : Option α) : FailsWith F (deref o) := by
  cases o <;> (unfold deref; infer_instance)

instance (body : Proc α) [hbody : FailsWith F body] : FailsWith F (withBuffer initial body) where
  failure env s fault s' hrun := by
    rw [withBuffer_run] at hrun
    rcases hrun' : body env { s with sendbuf := initial } with ⟨fault' | a, t⟩ <;>
      rw [hrun'] at hrun <;> cases hrun
    exact hbody.failure _ _ _ _ hrun'

/-- The callback for traffic keys, whose code is checked at once. -/
instance :
    FailsWith F (do
    let ret ← ask fun env tick => env.updateTrafficKey tick isEnc epoch secret
    checkCode ret) where
  failure env s fault s' hrun := by
    rw [ask_bind, checkCode] at hrun
    by_cases hzero : env.updateTrafficKey s.tick isEnc epoch secret = 0
    · rw [if_pos hzero] at hrun
      cases hrun
    · rw [if_neg hzero] at hrun
      cases hrun
      exact hF.updateTrafficKey env s.tick isEnc epoch secret hzero

end Refusals

variable {F : Environment → Fault → Prop} [AllowsRefusals F]

/-! ## The key schedule and traffic keys -/

instance : FailsWith F getKeySchedule := by unfold getKeySchedule; infer_instance

instance (sched : KeySchedule) : FailsWith F (setKeySchedule sched) := by
  unfold setKeySchedule; infer_instance

instance : FailsWith F firstHash := by unfold firstHash; infer_instance

instance : FailsWith F (mapHashes f) := by
  unfold mapHashes; infer_instance

instance : FailsWith F (modifyFirstHash f) := by
  unfold modifyFirstHash; infer_instance

instance : FailsWith F (keyScheduleUpdateHash msg useOuter) := by
  unfold keyScheduleUpdateHash; infer_instance

instance : FailsWith F (absorbMessage message) := by
  unfold absorbMessage; infer_instance

instance : FailsWith F (noteHandshakeSecret early shared) := by
  unfold noteHandshakeSecret; infer_instance

instance : FailsWith F (hkdfExtract algo salt ikm) := by
  unfold hkdfExtract; infer_instance

instance : FailsWith F (hkdfExpandLabel algo outlen secret label context labelPrefix) := by
  unfold hkdfExpandLabel; dsimp only; infer_instance

instance : FailsWith F (keyScheduleDeriveSalt algo) := by
  unfold keyScheduleDeriveSalt; infer_instance

instance : FailsWith F (keyScheduleExtract ikm) := by
  unfold keyScheduleExtract; dsimp only; infer_instance

instance (hash : Bytes) : FailsWith F (deriveSecretWithHash label hash) := by
  unfold deriveSecretWithHash; infer_instance

instance : FailsWith F (deriveSecret label) := by
  unfold deriveSecret; infer_instance

instance (isEarly : Bool) : FailsWith F (deriveExporterSecret isEarly) := by
  unfold deriveExporterSecret; infer_instance

instance : FailsWith F (calcVerifyData secret) := by
  unfold calcVerifyData; dsimp only; infer_instance

instance : FailsWith F (installKey isEnc aead seq) := by unfold installKey; infer_instance

instance : FailsWith F (noteKeyChange isEnc) := by
  unfold noteKeyChange; infer_instance

instance : FailsWith F (renewTrafficKey isEnc seq) := by
  unfold renewTrafficKey
  repeat' first | infer_instance | refine .seq ?_ fun _ => ?_ | split

instance (secretLabel : Option Label) (skipNotify : Bool) :
    FailsWith F (setupTrafficProtection isEnc secretLabel epoch seq skipNotify) := by
  unfold setupTrafficProtection; infer_instance

/-! ## Records -/

instance : FailsWith F (pushChangeCipherSpec emitter) := by
  unfold pushChangeCipherSpec; infer_instance

instance (input : Bytes) (contentType : UInt8) : FailsWith F (aeadEncrypt input contentType) := by
  unfold aeadEncrypt; dsimp only; infer_instance

instance (src : Bytes) : FailsWith F (pushTls12Fragment type src) := by
  unfold pushTls12Fragment; infer_instance

instance (src : Bytes) : FailsWith F (pushTls13Fragment type src) := by
  unfold pushTls13Fragment; infer_instance

instance (src : Bytes) : FailsWith F (pushEncryptedRecord type src) := by
  unfold pushEncryptedRecord; infer_instance

instance (src : Bytes) : FailsWith F (pushEncryptedRecordsLoop type fuel src) := by
  induction fuel generalizing src with
  | zero => unfold pushEncryptedRecordsLoop; infer_instance
  | succ fuel ih => unfold pushEncryptedRecordsLoop; infer_instance

instance (src : Bytes) : FailsWith F (bufferPushEncryptedRecords type src) := by
  unfold bufferPushEncryptedRecords; infer_instance

instance (recStart : ℕ) : FailsWith F (bufferEncryptRecord recStart) := by
  unfold bufferEncryptRecord; dsimp only; infer_instance

instance : FailsWith F (beginMessage emitter) := by
  cases emitter <;> (unfold beginMessage; infer_instance)

instance (start : ℕ) : FailsWith F (commitMessage emitter start) := by
  unfold commitMessage
  dsimp only
  repeat' first | infer_instance | refine .seq ?_ fun _ => ?_ | split

instance (block : Proc α) [FailsWith F block] :
    FailsWith F (bufferPushMessageBody keySched type block) := by
  unfold bufferPushMessageBody; dsimp only; infer_instance

instance (block : Proc α) [FailsWith F block] :
    FailsWith F (writeMessage emitter keySched type block) := by
  unfold writeMessage; infer_instance

instance [FailsWith F block] : FailsWith F (pushMessage emitter keySched type block) := by
  unfold pushMessage; infer_instance

instance : FailsWith F (updateTrafficKey isEnc) := by
  unfold updateTrafficKey; infer_instance

omit [Crypto] [AllowsRefusals F] in
/-- A procedure that is taken back when it fails with a code fails like it. -/
theorem FailsWith.rethrow {body undo : Proc Unit} [hbody : FailsWith F body]
    [FailsWith F undo] : FailsWith F (do
      let result ← attemptCode body
      match result with
      | .ok () => pure ()
      | .error code => do
        undo
        throwCode code : Proc Unit) where
  failure env s fault s' hrun := by
    simp only [attemptCode, bind_run, attempt_run] at hrun
    rcases hbody' : body env s with ⟨(code | _ | _) | a, t⟩ <;> simp only [hbody'] at hrun
    · rcases hundo : undo env t with ⟨fault' | _, t'⟩
      · have hfault : fault' = fault := by simpa [bind_run, hundo] using congrArg Prod.fst hrun
        exact hfault ▸ FailsWith.failure env t fault' t' hundo
      · have hfault : Fault.code code = fault := by
          simpa [bind_run, hundo] using congrArg Prod.fst hrun
        exact hfault ▸ hbody.failure env s (.code code) t hbody'
    · cases hrun
      exact hbody.failure env s _ _ hbody'
    · cases hrun
      exact hbody.failure env s _ _ hbody'
    · cases hrun

instance (requestUpdate : Bool) : FailsWith F (updateSendKey requestUpdate) := by
  unfold updateSendKey
  exact FailsWith.seq inferInstance fun _ => FailsWith.rethrow

instance : FailsWith F updateSendKeyIfNeeded := by unfold updateSendKeyIfNeeded; infer_instance

/-! ## The client -/

instance : FailsWith F (beginEarlyData emitter isSecondFlight psk) := by
  unfold beginEarlyData; infer_instance

/-! ## The server's flight -/

instance : FailsWith F (pushAdditionalExtensions properties) := by
  unfold pushAdditionalExtensions; infer_instance

instance : FailsWith F (pushSignatureAlgorithms algos) := by
  unfold pushSignatureAlgorithms; infer_instance

instance : FailsWith F (sendEncryptedExtensions emitter ch properties) := by
  unfold sendEncryptedExtensions
  repeat' first | infer_instance | refine .seq ?_ fun _ => ?_

instance : FailsWith F (sendCertificateRequest emitter) := by
  unfold sendCertificateRequest; infer_instance

instance : FailsWith F (buildCertificateMessage context certificates) := by
  unfold buildCertificateMessage; infer_instance

instance : FailsWith F (defaultEmitCertificate emitter context) := by
  unfold defaultEmitCertificate; infer_instance

instance : FailsWith F (sendFinished emitter) := by
  unfold sendFinished; infer_instance

instance : FailsWith F (installHandshakeSecret isEnc) := by
  unfold installHandshakeSecret; infer_instance

instance : FailsWith F commissionHandshakeSecret := by
  unfold commissionHandshakeSecret; infer_instance

instance : FailsWith F serverAwaitClient := by unfold serverAwaitClient; infer_instance

instance : FailsWith F rejectEarlyData := by unfold rejectEarlyData; infer_instance

instance (ecdhSecret : Option Bytes) : FailsWith F (serverDeriveHandshakeKeys ch ecdhSecret) := by
  unfold serverDeriveHandshakeKeys; infer_instance

/-- The application's emitter of certificates does not report a pause. -/
instance (signatureAlgorithms : List ℕ) (pushStatusRequest : Bool) (compressAlgos : List ℕ) :
    FailsWith Stops
      (sendCertificate emitter signatureAlgorithms context pushStatusRequest compressAlgos) := by
  unfold sendCertificate
  refine FailsWith.seq inferInstance fun _ => FailsWith.seq inferInstance fun tls => ?_
  split_ifs
  · refine ⟨fun env s fault s' hrun => ?_⟩
    rw [ask_bind] at hrun
    rcases hanswer : env.emitCertificate s.tick context pushStatusRequest compressAlgos with
      code | ⟨type, body⟩
    · simp only [hanswer] at hrun
      split_ifs at hrun
      · exact FailsWith.failure _ _ _ _ hrun
      · cases hrun
        exact fun hconforms => hconforms.emitCertificate _ _ _ _ _ hanswer
    · simp only [hanswer] at hrun
      exact FailsWith.failure _ _ _ _ hrun
  · infer_instance

/-- After this failure the handshake waits for the signer, or no handshake call follows. -/
def PausesOrStops (env : Environment) (fault : Fault) : Prop :=
  env.Conforms → fault = .code Error.asyncOperation ∨ ¬ fault.Continues

instance : AllowsRefusals PausesOrStops where
  assertion _ _ := .inr id
  undefined _ _ := .inr id
  refusal env code hcode hconforms :=
    .inr (AllowsRefusals.refusal (F := Stops) env code hcode hconforms)
  updateTrafficKey env tick isEnc epoch secret hne hconforms :=
    .inr (AllowsRefusals.updateTrafficKey (F := Stops) env tick isEnc epoch secret hne hconforms)

instance (startOff : ℕ) :
    FailsWith PausesOrStops (signTranscript startOff signatureAlgorithms contextString) := by
  unfold signTranscript buildCertificateVerifySigndata
  refine FailsWith.seq inferInstance fun tls => FailsWith.seq inferInstance fun data => ?_
  refine ⟨fun env s fault s' hrun => ?_⟩
  rw [ask_bind] at hrun
  rcases hanswer : env.signCertificate s.tick data signatureAlgorithms with code | ⟨algo, signature⟩
  · simp only [hanswer, modifyTls_bind, runIf] at hrun
    split_ifs at hrun with hasync
    · -- only a server may wait for the signer
      rw [bind_run, assert_bind] at hrun
      cases htls : tls.isServer <;> rw [htls] at hrun <;> cases hrun
      · exact fun _ => .inr id
      · exact fun _ => .inl (congrArg _ hasync)
    · cases hrun
      exact fun hconforms => .inr ((hconforms.signCertificate _ _ _ _ hanswer).resolve_left hasync)
  · simp only [hanswer] at hrun
    exact FailsWith.failure _ _ _ _ hrun

instance :
    FailsWith PausesOrStops (sendCertificateVerify emitter signatureAlgorithms contextString) := by
  unfold sendCertificateVerify; infer_instance

omit [Crypto] in
/-- A caught failure counts as one. -/
theorem exitCode_eq_zero {body : Proc Unit}
    [hbody : FailsWith (fun _ fault => fault ≠ .code 0) body]
    {env : Environment} {s s' : Session} (h : exitCode body env s = (.ok 0, s')) :
    body env s = (.ok (), s') := by
  simp only [exitCode, returnCode, attemptCode, bind_run, attempt_run] at h
  rcases hrun : body env s with ⟨(code | _ | _) | _, t⟩ <;> simp only [hrun] at h
  · exact absurd hrun fun hrun => hbody.failure env s _ _ hrun (by simpa using congrArg Prod.fst h)
  · cases h
  · cases h
  · simpa using h

end Picotls
