import Picotls.Authentication
import Picotls.Ech
import Picotls.Effects.KeySchedule
import Picotls.Extensions

/-!
# Effects of decoders, of the record layer, and of authentication
-/

namespace Picotls

open Foundation Procedure

variable {α β : Type} {E : List Effect} {env : Environment} {s s' : Session}

variable (keySched : Bool) (context contextString message sniName : Bytes)
    (decoded : DecodedEchConfig) (emitter : Emitter) (hstype : ExtensionCarrier)
    (cipher : HpkeCipherSuite) (kem : HpkeKem) (certs : List Bytes) (ciphers : List HpkeCipherSuite)
    (kems : List HpkeKem) (signatureAlgorithms : Option (List ℕ))
    (properties : Option HandshakeProperties) (block : Proc Unit) (src : Src) (type : UInt8)
    (fuel : ℕ) {rec : Record} {length : ℕ}

/-! ## Decoding -/

instance (hstype : UInt8) (exttype : ℕ) (data : Bytes) :
    Does [.io, .refuse] (notifyExtension hstype exttype data) :=
  ⟨by unfold notifyExtension; infer_instance⟩

section Extensions

variable {R : Session → Session → Prop} [IsPreorder Session R]

instance (body : β → ℕ → Src → Proc (β × Src))
    [hbody : ∀ acc exttype block, Respects R (body acc exttype block)] (acc : β) :
    Respects R (decodeExtensionList hstype body fuel seen src acc) := by
  induction fuel generalizing seen src acc with
  | zero => unfold decodeExtensionList; infer_instance
  | succ fuel ih =>
    unfold decodeExtensionList
    repeat' first | infer_instance | refine .seq ?_ fun _ => ?_ | split

instance (acc : β) (body : β → ℕ → Src → Proc (β × Src))
    [∀ acc exttype block, Respects R (body acc exttype block)] :
    Respects R (decodeOpenExtensions hstype src acc body) := by
  unfold decodeOpenExtensions
  infer_instance

instance (acc : β) (body : β → ℕ → Src → Proc (β × Src))
    [∀ acc exttype block, Respects R (body acc exttype block)] :
    Respects R (decodeExtensions hstype src acc body) := by
  unfold decodeExtensions
  infer_instance

end Extensions

instance : Does [.io, .names] (setServerName serverName) :=
  ⟨by unfold setServerName; infer_instance⟩

instance : Does [.io, .names] (setNegotiatedProtocol protocol) :=
  ⟨by unfold setNegotiatedProtocol; infer_instance⟩

instance (type : ℕ) : Does [.io] (shouldCollectUnknownExtension properties type) :=
  ⟨by unfold shouldCollectUnknownExtension; infer_instance⟩

instance : Does [.io] (reportUnknownExtensions properties slots) :=
  ⟨by unfold reportUnknownExtensions; infer_instance⟩

instance : Does [.io] (pushAdditionalExtensions properties) :=
  ⟨by unfold pushAdditionalExtensions; infer_instance⟩

instance : Does [.io] (pushSignatureAlgorithms algos) :=
  ⟨by unfold pushSignatureAlgorithms; infer_instance⟩

instance : Does [.io] (pushKeyShareEntry group pubkey) :=
  ⟨by unfold pushKeyShareEntry; infer_instance⟩

/-! ## Records -/

instance : Does [.io] (setConsumed consumed) :=
  Does.update fun _ s => .io s s.sendbuf consumed s.epochOffsets s.report s.tick

instance (src : Bytes) : Does [.io, .receive] (parseRecordSlow src) :=
  ⟨by unfold parseRecordSlow; dsimp only; infer_instance⟩

instance (src : Bytes) : Does [.io, .receive] (parseRecord src) := by
  refine ⟨?_⟩
  unfold parseRecord
  repeat' first | infer_instance | refine .seq ?_ fun _ => ?_ | split

/-- The length in a record header is bounded. -/
theorem parseRecordHeader_length {header : Bytes} {type : UInt8}
    (h : parseRecordHeader header = .ok (type, length)) : length ≤ maxEncryptedRecordSize := by
  unfold parseRecordHeader at h
  dsimp only at h
  have hplain : maxPlaintextRecordSize ≤ maxEncryptedRecordSize := by decide
  split_ifs at h <;> cases h <;> omega

theorem parseRecordSlow_length {src : Bytes} {rec : Record}
    (h : parseRecordSlow src env s = (.ok (some rec), s')) :
    rec.fragment.length ≤ maxEncryptedRecordSize := by
  unfold parseRecordSlow at h
  obtain ⟨tls, s₁, -, h⟩ := bind_eq_ok.mp h
  obtain ⟨buf, s₂, -, h⟩ := bind_eq_ok.mp h
  dsimp only at h
  obtain ⟨_, s₃, -, h⟩ := bind_eq_ok.mp h
  split_ifs at h
  · cases h
  obtain ⟨⟨type, length⟩, s₄, hheader, h⟩ := bind_eq_ok.mp h
  obtain ⟨_, s₅, -, h⟩ := bind_eq_ok.mp h
  obtain ⟨_, s₆, -, h⟩ := bind_eq_ok.mp h
  obtain ⟨_, s₇, -, h⟩ := bind_eq_ok.mp h
  have hlength := parseRecordHeader_length (congrArg Prod.fst hheader)
  rw [pure_run] at h
  split_ifs at h with hcomplete <;> cases h
  rw [List.length_drop]
  omega

theorem completeRecord_length {src : Bytes} {type : UInt8}
    (h : completeRecord src = .ok (some (type, length))) : length ≤ maxEncryptedRecordSize := by
  unfold completeRecord at h
  split_ifs at h
  · cases h
  rcases hheader : parseRecordHeader src with fault | ⟨type', length'⟩ <;> rw [hheader] at h
  · cases h
  · change Except.ok (if 5 + length' ≤ src.length then some (type', length') else none) = _ at h
    split_ifs at h <;> cases h
    exact parseRecordHeader_length hheader

/-- A record that is taken from the input has a bounded length. -/
theorem parseRecord_length {src : Bytes} (h : parseRecord src env s = (.ok (some rec), s')) :
    rec.fragment.length ≤ maxEncryptedRecordSize := by
  unfold parseRecord at h
  obtain ⟨_, s₁, -, h⟩ := bind_eq_ok.mp h
  obtain ⟨_, s₂, -, h⟩ := bind_eq_ok.mp h
  rw [getTls_bind] at h
  rcases Option.eq_none_or_eq_some s₂.tls.recvbufRec with hbuf | ⟨buf, hbuf⟩ <;>
    simp only [hbuf] at h
  swap
  · exact parseRecordSlow_length h
  obtain ⟨_, s₄, -, h⟩ := bind_eq_ok.mp h
  obtain ⟨complete, s₅, hcomplete, h⟩ := bind_eq_ok.mp h
  cases complete with
  | none =>
    obtain ⟨_, s₆, -, h⟩ := bind_eq_ok.mp h
    obtain ⟨_, s₇, -, h⟩ := bind_eq_ok.mp h
    exact parseRecordSlow_length h
  | some header =>
    obtain ⟨type, length⟩ := header
    have hlength := completeRecord_length (congrArg Prod.fst hcomplete)
    cases h
    rw [List.length_take]
    omega

/-- A block is entered with the connection as it was before its header was written. -/
theorem bufferPushRecord_steps [Listed .io E] {type : UInt8} {block : Proc Unit}
    (hblock : ∀ t, t.tls = s.tls → Via E t (block env t).2) :
    Via E s (bufferPushRecord type block env s).2 := by
  unfold bufferPushRecord bufferPushBlock
  refine steps_seq (Respects.relates env s) fun _ s₁ hrun₁ => ?_
  have htls₁ : s₁.tls = s.tls := tls_eq_of_run hrun₁ (by decide)
  refine steps_seq (Respects.relates env s₁) fun _ s₂ hrun₂ => ?_
  have htls₂ : s₂.tls = s.tls := (tls_eq_of_run hrun₂ (by decide)).trans htls₁
  simp only [sendbufOff, observe_bind]
  exact steps_seq (hblock s₂ htls₂) fun _ s₃ _ => Respects.relates env s₃

variable [Crypto]

instance : Does [.decSeq] (aeadDecrypt input) := by
  refine ⟨?_⟩
  unfold aeadDecrypt
  repeat' first | infer_instance | refine .seq ?_ fun _ => ?_ | split

instance [Listed .io E] [Within E block] : Within E (bufferPushRecord type block) := by
  unfold bufferPushRecord
  infer_instance

/-- Encrypting a TLS 1.3 fragment is one step. -/
theorem aeadEncrypt_steps {input : Bytes} {contentType : UInt8} (h12 : s.tls.enc.tls12 = false) :
    Via [.io, .encrypt] s (aeadEncrypt input contentType env s).2 := by
  simp only [aeadEncrypt, getTls_bind]
  cases haead : s.tls.enc.aead with
  | none => exact refl_of _ s
  | some aead =>
    have hstep := Effect.Step.encrypt s aead (input ++ [contentType])
      { s.tls.enc with seq := (s.tls.enc.seq + 1) % 2 ^ 64 } haead haead rfl rfl
      (by simp [TrafficProtection.nonceCounter, h12])
    have hcounter : s.tls.enc.nonceCounter = s.tls.enc.seq := by
      simp [TrafficProtection.nonceCounter, h12]
    rw [hcounter] at hstep
    exact .single ⟨.encrypt, by simp, hstep⟩

theorem pushTls13Fragment_steps {type : UInt8} {src : Bytes} (h12 : s.tls.enc.tls12 = false) :
    Via [.io, .encrypt] s (pushTls13Fragment type src env s).2 := by
  simp only [pushTls13Fragment, getTls_bind]
  refine steps_seq (Respects.relates env s) fun aead s' hrun => ?_
  obtain ⟨-, rfl⟩ := deref_eq_ok.mp hrun
  refine steps_seq (Respects.relates env s') fun _ s₁ hrun => ?_
  obtain ⟨-, rfl⟩ := allocate_eq_ok.mp hrun
  exact steps_seq (aeadEncrypt_steps h12) fun _ s₂ _ => Respects.relates env s₂

/-- Encrypting a TLS 1.2 fragment is one step, whether the nonce is explicit or not. -/
theorem pushTls12Fragment_steps {type : UInt8} {src : Bytes} (h12 : s.tls.enc.tls12 = true) :
    Via [.io, .encrypt] s (pushTls12Fragment type src env s).2 := by
  simp only [pushTls12Fragment, getTls_bind]
  refine steps_seq (Respects.relates env s) fun aead s' hrun => ?_
  obtain ⟨haead, rfl⟩ := deref_eq_ok.mp hrun
  refine steps_seq (Respects.relates env s') fun _ s₁ hrun => ?_
  obtain ⟨-, rfl⟩ := allocate_eq_ok.mp hrun
  set t : Session := { s' with tick := s'.tick + 1 } with ht
  simp only [takeTls12Nonce]
  split
  case isTrue hiv =>
    by_cases h8 : aead.algo.recordIvSize = 8
    · have hassert : assert (aead.algo.recordIvSize = 8) = pure () := by simp [assert, h8]
      have hcounter (enc : TrafficProtection) (h12 : enc.tls12 = true)
          (haead : enc.aead = some aead) : enc.nonceCounter = enc.tls12EncRecordIv := by
        simp [TrafficProtection.nonceCounter, h12, haead, h8]
      have hstep := Effect.Step.encrypt t aead src
        { t.tls.enc with
          seq := (t.tls.enc.seq + 1) % 2 ^ 64
          tls12EncRecordIv := (t.tls.enc.tls12EncRecordIv + 1) % 2 ^ 64 } haead haead rfl rfl
        (by rw [hcounter t.tls.enc h12 haead]; exact hcounter _ h12 haead)
      rw [hcounter _ h12 haead] at hstep
      rw [hassert]
      exact .tail (.single ⟨.encrypt, by simp, hstep⟩) ⟨.io, by simp, .io _ _ _ _ _ _⟩
    · have hassert : assert (aead.algo.recordIvSize = 8) = Procedure.fail .assertion := by
        simp [assert, h8]
      rw [hassert]
      exact refl_of _ t
  case isFalse hiv =>
    have hiv : aead.algo.recordIvSize = 0 := by simpa using hiv
    have hstep := Effect.Step.encrypt t aead src
      { t.tls.enc with seq := (t.tls.enc.seq + 1) % 2 ^ 64 } haead haead rfl rfl
      (by simp [TrafficProtection.nonceCounter, ht, haead, hiv])
    have hcounter : t.tls.enc.nonceCounter = t.tls.enc.seq := by
      simp [TrafficProtection.nonceCounter, ht, haead, hiv]
    rw [hcounter] at hstep
    exact .tail (.single ⟨.encrypt, by simp, hstep⟩) ⟨.io, by simp, .io _ _ _ _ _ _⟩

instance (src : Bytes) : Does [.io, .encrypt] (pushEncryptedRecord type src) := by
  refine ⟨⟨fun env s => ?_⟩⟩
  simp only [pushEncryptedRecord, getTls_bind]
  split
  case isTrue h12 => exact bufferPushRecord_steps fun t ht => pushTls12Fragment_steps (ht ▸ h12)
  case isFalse h12 =>
    exact bufferPushRecord_steps fun t ht => pushTls13Fragment_steps (ht ▸ by simpa using h12)

instance (src : Bytes) : Does [.io, .encrypt] (pushEncryptedRecordsLoop type fuel src) := by
  refine ⟨?_⟩
  induction fuel generalizing src with
  | zero => unfold pushEncryptedRecordsLoop; infer_instance
  | succ fuel ih => unfold pushEncryptedRecordsLoop; infer_instance

instance (src : Bytes) : Does [.io, .encrypt] (bufferPushEncryptedRecords type src) :=
  ⟨by unfold bufferPushEncryptedRecords; infer_instance⟩

instance (recStart : ℕ) : Does [.io, .encrypt] (bufferEncryptRecord recStart) := by
  refine ⟨⟨fun env s => ?_⟩⟩
  simp only [bufferEncryptRecord, getSendbuf, observe_bind]
  refine steps_seq (Respects.relates env s) fun type s' hrun => ?_
  rw [getTls_bind]
  split
  case isTrue h =>
    refine steps_seq (Respects.relates env s') fun aead s₁ hrun => ?_
    obtain ⟨-, rfl⟩ := deref_eq_ok.mp hrun
    refine steps_seq (Respects.relates env s₁) fun _ s₂ hrun => ?_
    obtain ⟨-, rfl⟩ := allocate_eq_ok.mp hrun
    have h12 : s₁.tls.enc.tls12 = false := by simp at h; exact h.1
    exact steps_seq (aeadEncrypt_steps h12) fun _ s₃ _ => Respects.relates env s₃
  case isFalse => exact Respects.relates env s'

/-! ## Handshake messages -/

instance : Does [.io] (beginMessage emitter) := by
  refine ⟨?_⟩
  cases emitter <;> (unfold beginMessage; infer_instance)

instance : Does [.io, .encrypt] (commitMessage emitter start) := by
  have hoffsets (offs : List ℕ) : Does [.io] (Procedure.update fun _ s =>
      { s with epochOffsets := offs } : Proc Unit) :=
    Does.update fun _ s => .io s s.sendbuf s.consumed offs s.report s.tick
  refine ⟨?_⟩
  unfold commitMessage
  dsimp only
  repeat' first | infer_instance | refine .seq ?_ fun _ => ?_ | split

instance [Listed .io E] [Listed .transcript E] (block : Proc α) [Within E block] :
    Within E (bufferPushMessageBody keySched type block) := by
  unfold bufferPushMessageBody
  dsimp only
  infer_instance

instance [Listed .io E] [Listed .transcript E] [Listed .encrypt E] (block : Proc α)
    [Within E block] : Within E (writeMessage emitter keySched type block) := by
  unfold writeMessage
  infer_instance

instance [Listed .io E] [Listed .transcript E] [Listed .encrypt E] [Listed (.note .sent) E]
    [Within E block] : Within E (pushMessage emitter keySched type block) := by
  unfold pushMessage
  infer_instance

instance : Does [.io, .misc] (pushChangeCipherSpec emitter) :=
  ⟨by unfold pushChangeCipherSpec; infer_instance⟩

/-! ## Authentication -/

instance : Does [.io] (buildCertificateMessage context certificates) :=
  ⟨by unfold buildCertificateMessage; infer_instance⟩

instance :
    Does [.io, .transcript, .encrypt, .note .sent] (defaultEmitCertificate emitter context) :=
  ⟨by unfold defaultEmitCertificate; infer_instance⟩

instance (signatureAlgorithms : List ℕ) (pushStatusRequest : Bool) (compressAlgos : List ℕ) :
    Does [.io, .transcript, .encrypt, .note .sent]
      (sendCertificate emitter signatureAlgorithms context pushStatusRequest compressAlgos) := by
  refine ⟨?_⟩
  unfold sendCertificate
  repeat' first | infer_instance | refine .seq ?_ fun _ => ?_ | split

instance : Does [] (buildCertificateVerifySigndata contextString) :=
  ⟨by unfold buildCertificateVerifySigndata; infer_instance⟩

instance : Does [.io, .misc] (signTranscript startOff signatureAlgorithms contextString) := by
  refine ⟨?_⟩
  unfold signTranscript
  repeat' first | infer_instance | refine .seq ?_ fun _ => ?_ | split

instance :
    Does [.io, .transcript, .encrypt, .misc, .note .sent]
      (sendCertificateVerify emitter signatureAlgorithms contextString) :=
  ⟨by unfold sendCertificateVerify; repeat' first | infer_instance | refine .seq ?_ fun _ => ?_⟩

instance :
    Does [.io, .transcript, .encrypt, .note .derive, .note .finishedMac, .note .sent]
      (sendFinished emitter) :=
  ⟨by unfold sendFinished; infer_instance⟩

instance : Does [.io, .refuse] (decodeCertificateList fuel certs src) := by
  refine ⟨?_⟩
  induction fuel generalizing certs src with
  | zero => unfold decodeCertificateList; infer_instance
  | succ fuel ih => unfold decodeCertificateList; dsimp only; infer_instance

instance : Does [.io, .misc, .verify] (callVerifyCertificate certs) := by
  refine ⟨⟨fun env s => ?_⟩⟩
  unfold callVerifyCertificate runIf
  rw [getTls_bind]
  split_ifs
  · refine steps_seq (.single ⟨.verify, by simp, .verify s⟩) fun _ s' _ => ?_
    exact Respects.relates env s'
  · exact refl_of _ s

instance : Does [.io, .misc, .verify, .note .authenticate, .refuse] (handleCertificate src) :=
  ⟨by unfold handleCertificate; repeat' first | infer_instance | refine .seq ?_ fun _ => ?_⟩

instance :
    Does [.io, .transcript, .misc, .note .absorb, .note .authenticate]
      (handleCertificateVerify message contextString) :=
  ⟨by unfold handleCertificateVerify; repeat' first | infer_instance | refine .seq ?_ fun _ => ?_⟩

instance :
    Does [.io, .note .derive, .note .finishedMac, .note .authenticate] (verifyFinished message) :=
  ⟨by unfold verifyFinished; infer_instance⟩

/-! ## Encrypted ClientHello -/

instance : Does [.ech] (modifyEch f) := ⟨by unfold modifyEch; infer_instance⟩

instance : Does [.io] (decodeOneEchConfig kems ciphers src) :=
  ⟨by unfold decodeOneEchConfig; dsimp only; infer_instance⟩

instance : Does [.io] (decodeEchConfigs kems ciphers fuel found src) := by
  refine ⟨?_⟩
  induction fuel generalizing found src with
  | zero => unfold decodeEchConfigs; infer_instance
  | succ fuel ih => unfold decodeEchConfigs; infer_instance

instance : Does [.io] (clientDecodeEchConfigList ctx configList) :=
  ⟨by unfold clientDecodeEchConfigList; infer_instance⟩

instance : Does [.io, .draw, .ech] (clientSetupEchBody decoded kem cipher) :=
  ⟨by unfold clientSetupEchBody; repeat' first | infer_instance | refine .seq ?_ fun _ => ?_⟩

instance : Does [.io, .draw, .ech] (clientSetupEch decoded kem cipher) := by
  refine ⟨?_⟩
  unfold clientSetupEch
  repeat' first | infer_instance | refine .seq ?_ fun _ => ?_ | split

instance : Does [.io, .draw, .ech] (clientSetupEchGreaseBody kems ciphers sniName) := by
  refine ⟨?_⟩
  unfold clientSetupEchGreaseBody
  dsimp only
  repeat' first | infer_instance | refine .seq ?_ fun _ => ?_ | split

instance : Does [.io, .draw, .ech] (clientSetupEchGrease kems ciphers sniName) := by
  refine ⟨?_⟩
  unfold clientSetupEchGrease
  repeat' first | infer_instance | refine .seq ?_ fun _ => ?_ | split

instance : Does [.io, .note .derive] (echCalcConfirmation innerRandom label message) :=
  ⟨by unfold echCalcConfirmation; dsimp only; infer_instance⟩

/-! ## Single records -/

/-- What fits into one record is sent as one record. -/
theorem bufferPushEncryptedRecords_single {src : Bytes} (type : UInt8) (hne : src ≠ [])
    (hfit : src.length ≤ maxPlaintextRecordSize) :
    bufferPushEncryptedRecords type src env s = pushEncryptedRecord type src env s := by
  obtain ⟨fuel, hfuel⟩ : ∃ fuel, src.length = fuel + 1 :=
    Nat.exists_eq_succ_of_ne_zero (by simpa using hne)
  have hnil (fuel : ℕ) : pushEncryptedRecordsLoop type fuel [] = pure () := by
    cases fuel <;> simp [pushEncryptedRecordsLoop]
  rw [bufferPushEncryptedRecords, hfuel, pushEncryptedRecordsLoop, if_neg hne,
    List.take_of_length_le hfit, List.drop_eq_nil_of_le hfit, hnil, bind_run]
  rcases pushEncryptedRecord type src env s with ⟨_ | _, t⟩ <;> rfl

end Picotls
