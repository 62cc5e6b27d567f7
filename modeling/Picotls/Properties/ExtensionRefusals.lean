import Picotls.Effects.Memory
import Picotls.MessageMode
import Picotls.Sample
import Picotls.Sending.Endpoint

/-!
# Answers of the application to extensions

The application is told about every extension of the hellos, of EncryptedExtensions, of certificates
and requests for them, and of session tickets, and may refuse an extension with a code of its own.
The handshake then fails, but with the code one, which is also the description of its alert. The
extensions of a saved ticket are read once more when the session is offered; there a refusal means
that the ticket is not used.
-/

namespace Picotls

open Foundation Procedure

set_option synthInstance.maxSize 2048

variable {isEndOfRecord isSecondFlight : Bool} {data message ticket : Bytes} {ret : Code}
    {emitter : Emitter} {hstype : ExtensionCarrier} {properties : Option HandshakeProperties}
    {rec : Record} {src : Src} {exttype fuel : ℕ} {α : Type} {input : Bytes} {m : Proc α}
  {origOff : ℕ}

/-! ## Refusals -/

/-- The refusal concerns a message of the peer, and not a saved ticket. -/
def Refusal.IsOfMessage (refusal : Refusal) : Bool :=
  refusal.hstype ≠ HandshakeType.newSessionTicket || refusal.state = .clientPostHandshake

/-- The answers with which extensions of messages were refused. -/
def Session.refused (s : Session) : List Code :=
  (s.refusals.filter Refusal.IsOfMessage).map Refusal.code

/-- No extension of a message was refused, and no keys of TLS 1.2 were put into use. -/
structure SameRefusals (s t : Session) : Prop where
  refused_eq : t.refused = s.refused
  plain : s.tls.enc.tls12 = false → t.tls.enc.tls12 = false

instance : IsPreorder Session SameRefusals where
  refl _ := ⟨rfl, id⟩
  trans _ _ _ h h' := ⟨h'.refused_eq.trans h.refused_eq, h'.plain ∘ h.plain⟩

/-- Outside of a client's established connection, no extension of a message was refused. -/
def SparesMessages (s t : Session) : Prop :=
  s.tls.state ≠ .clientPostHandshake → t.tls.state ≠ .clientPostHandshake ∧ SameRefusals s t

instance : IsPreorder Session SparesMessages where
  refl s h := ⟨h, refl_of SameRefusals s⟩
  trans _ _ _ h h' hs := ⟨(h' (h hs).1).1, trans_of SameRefusals (h hs).2 (h' (h hs).1).2⟩

/-- No plaintext was handed over, and no keys of TLS 1.2 were put into use. -/
structure SamePlaintext (s t : Session) : Prop where
  decryptbuf_eq : t.decryptbuf = s.decryptbuf
  plain : s.tls.enc.tls12 = false → t.tls.enc.tls12 = false

instance : IsPreorder Session SamePlaintext where
  refl _ := ⟨rfl, id⟩
  trans _ _ _ h h' := ⟨h'.decryptbuf_eq.trans h.decryptbuf_eq, h'.plain ∘ h.plain⟩

section Steps

variable {E : List Effect} {s t : Session}

theorem Steps.sameRefusals (h : Via E s t)
    (hE : .refuse ∉ E ∧ .importKeys ∉ E) : SameRefusals s t := by
  refine ⟨?_, Steps.plain h hE.2⟩
  refine h.preserves (P := fun u => u.refused = s.refused) (fun e he u v hstep hu => ?_) rfl
  cases hstep <;> first | exact hu | exact absurd he hE.1

theorem Steps.sparesMessages (h : Via E s t)
    (hE : (.refuse ∉ E ∧ .importKeys ∉ E) ∧ .state .clientPostHandshake ∉ E) :
    SparesMessages s t := by
  refine fun hs => ⟨?_, Steps.sameRefusals h hE.1⟩
  refine h.preserves (P := fun u => u.tls.state ≠ .clientPostHandshake)
    (fun e he u v hstep hu => ?_) hs
  cases hstep with
  | state _ target => exact fun htarget => hE.2 (htarget ▸ he)
  | _ => exact hu

theorem Steps.samePlaintext (h : Via E s t)
    (hE : .deliver ∉ E ∧ .importKeys ∉ E) : SamePlaintext s t := by
  refine ⟨?_, Steps.plain h hE.2⟩
  refine h.preserves (P := fun u => u.decryptbuf = s.decryptbuf) (fun e he u v hstep hu => ?_) rfl
  cases hstep <;> first | exact hu | exact absurd he hE.1

end Steps

theorem sameRefusals_of_does {E : List Effect} [h : Does E m] (hE : .refuse ∉ E ∧ .importKeys ∉ E) :
    Respects SameRefusals m :=
  ⟨fun env s => Steps.sameRefusals (h.steps.relates env s) hE⟩

/-- The effects of the handling of records, apart from refusals, plaintext and the end of a client's
handshake. -/
abbrev silentEffects : List Effect :=
  .receive :: .decSeq :: .note .received :: .note .skipEarlyData :: .note .handled ::
    silentHandlerEffects

instance (priority := low) {α : Type} (m : Proc α) [h : Within silentEffects m] :
    Respects SameRefusals m :=
  ⟨fun env s => Steps.sameRefusals (h.relates env s) (by decide)⟩

instance (priority := low) {α : Type} (m : Proc α) [h : Within silentEffects m] :
    Respects SparesMessages m :=
  ⟨fun env s => Steps.sparesMessages (h.relates env s) (by decide)⟩

instance (priority := low) {α : Type} (m : Proc α) [h : Within silentEffects m] :
    Respects SamePlaintext m :=
  ⟨fun env s => Steps.samePlaintext (h.relates env s) (by decide)⟩

/-! ## Saved tickets -/

instance : Respects SparesMessages (noteRefusal HandshakeType.newSessionTicket exttype code) where
  relates _ s hs := by
    refine ⟨hs, ?_, id⟩
    simp [Session.refused, noteRefusal, Procedure.update, Refusal.IsOfMessage, hs]

instance :
    Respects SparesMessages (notifyExtension HandshakeType.newSessionTicket exttype data) := by
  unfold notifyExtension
  infer_instance

instance : Respects SparesMessages (decodeNewSessionTicket src) := by
  unfold decodeNewSessionTicket
  infer_instance

instance : Respects SparesMessages (decodeStoredSessionTicket ticket) := by
  unfold decodeStoredSessionTicket
  repeat' first | infer_instance | refine .seq ?_ fun _ => ?_ | split

instance (properties : HandshakeProperties) :
    Respects SparesMessages (offerTicket properties isSecondFlight ticket) := by
  unfold offerTicket
  repeat' first | infer_instance | refine .seq ?_ fun _ => ?_ | split

instance : Respects SparesMessages (offerPsk properties isSecondFlight) := by
  unfold offerPsk
  repeat' first | infer_instance | refine .seq ?_ fun _ => ?_ | split

variable [Crypto]

instance : Respects SparesMessages (composeClientHello emitter properties cookie) := by
  unfold composeClientHello
  dsimp only
  infer_instance

instance : Respects SparesMessages (sendClientHello emitter properties cookie) := by
  unfold sendClientHello
  infer_instance

instance : Respects SparesMessages (clientHandleRetry emitter message sh properties) := by
  unfold clientHandleRetry clientAbsorbRetry handleHelloRetryRequest
  dsimp only
  infer_instance

/-! ## Messages with extensions -/

/-- A refusal of an extension of a message ends the procedure with the code one. -/
abbrev Reports {α : Type} (m : Proc α) : Prop := RespectsUnless SameRefusals (.code 1) m

/-- Whatever the application answers instead of zero, the procedure fails with the code one. -/
instance (hstype : UInt8) : Reports (notifyExtension hstype exttype data) where
  relates env s := by
    unfold notifyExtension runIf
    rw [getTls_bind]
    split_ifs
    · rw [ask_bind]
      by_cases hret : env.onExtension s.tick hstype exttype data = 0
      · rw [hret]
        exact .inl ⟨rfl, id⟩
      · rw [if_pos hret, throwIf, if_pos hret]
        exact .inr rfl
    · exact .inl ⟨rfl, id⟩

section Extensions

variable {β : Type}

instance (body : β → ℕ → Src → Proc (β × Src))
    [hbody : ∀ acc exttype block, Reports (body acc exttype block)] (acc : β) :
    Reports (decodeExtensionList hstype body fuel seen src acc) := by
  induction fuel generalizing seen src acc with
  | zero => unfold decodeExtensionList; infer_instance
  | succ fuel ih =>
    unfold decodeExtensionList
    repeat' first | infer_instance | refine .seq ?_ fun _ => ?_ | split

instance (acc : β) (body : β → ℕ → Src → Proc (β × Src))
    [∀ acc exttype block, Reports (body acc exttype block)] :
    Reports (decodeOpenExtensions hstype src acc body) := by
  unfold decodeOpenExtensions
  infer_instance

instance (acc : β) (body : β → ℕ → Src → Proc (β × Src))
    [∀ acc exttype block, Reports (body acc exttype block)] :
    Reports (decodeExtensions hstype src acc body) := by
  unfold decodeExtensions
  infer_instance

end Extensions

instance : Reports (decodeServerHelloExtension acc exttype block) := by
  unfold decodeServerHelloExtension
  infer_instance

instance : Reports (decodeServerHello message) := by
  unfold decodeServerHello
  dsimp only
  repeat' first | infer_instance | refine .seq ?_ fun _ => ?_

instance : Reports (clientReadHello message) := by
  unfold clientReadHello
  infer_instance

instance : Reports (clientHandleEncryptedExtensions message properties) := by
  unfold clientHandleEncryptedExtensions decodeEncryptedExtension
  infer_instance

instance : Reports (clientHandleCertificateRequest message) := by
  unfold clientHandleCertificateRequest decodeCertificateRequest
  infer_instance

instance : Reports (decodeCertificateList fuel certs src) := by
  induction fuel generalizing certs src with
  | zero => unfold decodeCertificateList; infer_instance
  | succ fuel ih => unfold decodeCertificateList; dsimp only; infer_instance

instance : Reports (handleCertificate src) := by
  unfold handleCertificate
  infer_instance

instance : Reports (clientHandleAnyCertificate type message) := by
  unfold clientHandleAnyCertificate clientHandleCertificate clientHandleCompressedCertificate
    clientDoHandleCertificate
  split <;> infer_instance

instance : Reports (serverHandleCertificate message) := by
  unfold serverHandleCertificate
  infer_instance

instance : Reports (clientHandleNewSessionTicket message) := by
  unfold clientHandleNewSessionTicket decodeNewSessionTicket
  infer_instance

instance : Reports (decodeClientHello message properties) := by
  have hextension (ch : ClientHello) (exttype : ℕ) (block : Src) :
      Reports (decodeClientHelloExtension properties ch exttype block) := by
    unfold decodeClientHelloExtension
    repeat' first | infer_instance | refine .seq ?_ fun _ => ?_ | split
  unfold decodeClientHello
  dsimp only
  infer_instance

instance : Reports (serverHandleEch message ch isSecondFlight properties) := by
  unfold serverHandleEch serverOpenEch serverAdoptInnerHello
  dsimp only
  repeat' first | infer_instance | refine .seq ?_ fun _ => ?_ | split

instance : Reports (serverReadHello message properties) := by
  unfold serverReadHello
  dsimp only
  infer_instance

instance : Reports (serverHandleHello emitter message properties) := by
  unfold serverHandleHello
  infer_instance

/-! ## Dispatch -/

section Dispatch

variable {env : Environment} {s : Session}

/-- A HelloRetryRequest is answered without regard to what is refused of a saved ticket. -/
theorem clientHandleHello_reports (hstate : s.tls.state ≠ .clientPostHandshake) :
    SameRefusals s (clientHandleHello emitter message properties env s).2 ∨
      (clientHandleHello emitter message properties env s).1 = .error (.code 1) := by
  unfold clientHandleHello
  refine RespectsUnless.bind_run inferInstance fun _ s₁ h₁ => ?_
  refine RespectsUnless.bind_run inferInstance fun sh s₂ h₂ => ?_
  split_ifs
  · have hstate₂ : s₂.tls.state = s₁.tls.state :=
      Steps.state_eq (Within.steps (E := [.io, .suite, .psk, .refuse]) inferInstance h₂) (by simp)
    have hspares : SparesMessages s₂ (clientHandleRetry emitter message sh properties env s₂).2 :=
      Respects.relates env s₂
    refine .inl (hspares ?_).2
    rw [hstate₂]
    cases h₁
    exact hstate
  · exact .inl (Respects.relates env s₂)

end Dispatch

instance : Respects SameRefusals (clientHandleFinished emitter message) :=
  sameRefusals_of_does (by decide)

instance : Reports (handleClientHandshakeMessage emitter message isEndOfRecord properties) where
  relates env s := by
    unfold handleClientHandshakeMessage
    rw [getTls_bind]
    refine RespectsUnless.bind_run inferInstance fun type s₁ h₁ => ?_
    obtain rfl := (deref_eq_ok.mp h₁).2
    cases hstate : s₁.tls.state with
    | clientExpectServerHello | clientExpectSecondServerHello =>
      dsimp only
      split_ifs
      · exact clientHandleHello_reports (by rw [hstate]; decide)
      · exact .inl ⟨rfl, id⟩
    | _ => exact RespectsUnless.relates env s₁

instance : Reports (handleServerHandshakeMessage emitter message isEndOfRecord properties) := by
  unfold handleServerHandshakeMessage
  refine RespectsUnless.seq inferInstance fun tls => RespectsUnless.seq inferInstance fun type => ?_
  split <;> infer_instance

instance : Reports (handleHandshakeMessage emitter message isEndOfRecord properties) := by
  unfold handleHandshakeMessage
  infer_instance

/-! ## Records -/

/-- A refusal makes the call return the code one, without plaintext. -/
def Returns (s : Session) (outcome : Except Fault Code × Session) : Prop :=
  SameRefusals s outcome.2 ∨ outcome.1 = .ok 1 ∧ SamePlaintext s outcome.2

section Returns

variable {env : Environment} {s t : Session}

omit [Crypto] in
theorem returnCode_returns {body : Proc Code} [hbody : Reports body]
    [hplain : Respects SamePlaintext body] : Returns s (returnCode body env s) := by
  have hrefusals := hbody.relates env s
  have hsame := hplain.relates env s
  rw [returnCode_run]
  generalize body env s = outcome at hrefusals hsame ⊢
  rcases hrefusals with h | h
  · rcases outcome with ⟨(_ | _ | _) | _, _⟩ <;> exact .inl h
  · obtain ⟨x, t⟩ := outcome
    cases h
    exact .inr ⟨rfl, hsame⟩

omit [Crypto] in
theorem Returns.returnCode {body : Proc Code} (h : Returns s (body env s)) :
    Returns s (returnCode body env s) := by
  rw [returnCode_run]
  rcases hrun : body env s with ⟨(code | _ | _) | code, t⟩ <;> rw [hrun] at h
  · exact h.imp_right fun hone => by cases hone.1
  all_goals exact h

omit [Crypto] in
/-- A call that goes on after a silent part. -/
theorem Returns.bind {f : α → Proc Code} [hm : Within silentEffects m]
    (hf : ∀ a s', m env s = (.ok a, s') → Returns s' (f a env s')) :
    Returns s ((m >>= f) env s) := by
  have hsteps := hm.relates env s
  have hsame := Steps.sameRefusals hsteps (by decide)
  have hplain := Steps.samePlaintext hsteps (by decide)
  refine bind_cases (Q := Returns s) (fun e s' hrun => ?_) fun a s' hrun => ?_ <;>
    rw [hrun] at hsame hplain
  · exact .inl hsame
  · exact (hf a s' hrun).imp (trans_of SameRefusals hsame)
      fun h => ⟨h.1, trans_of SamePlaintext hplain h.2⟩

end Returns

instance :
    Respects SamePlaintext (handleHandshakeMessage emitter message isEndOfRecord properties) where
  relates env s := by
    have hsteps : Via (.note .received :: handlerEffects) s
        (handleHandshakeMessage emitter message isEndOfRecord properties env s).2 :=
      Respects.relates env s
    exact Steps.samePlaintext hsteps (by decide)

instance :
    Respects SamePlaintext
      (handleRecordMessage handleHandshakeMessage emitter message isEndOfRecord properties) := by
  unfold handleRecordMessage
  infer_instance

instance :
    Reports
      (handleRecordMessage handleHandshakeMessage emitter message isEndOfRecord properties) where
  relates env s := by
    unfold handleRecordMessage
    have hreturns : Returns s (returnCode (do
        let progress ← handleHandshakeMessage emitter message isEndOfRecord properties
        return progress.code) env s) := returnCode_returns
    refine bind_cases (Q := fun p => SameRefusals s p.2 ∨ p.1 = .error (Fault.code 1))
      (fun fault t hrun => ?_) fun ret t hrun => ?_ <;> rw [hrun] at hreturns
    · exact hreturns.imp_right fun h => by cases h.1
    · rcases hreturns with hsame | ⟨hone, -⟩
      · exact .inl (trans_of SameRefusals hsame (Respects.relates env t))
      · cases hone
        exact .inr rfl

instance (src : Bytes) :
    Respects SamePlaintext
      (handleMessages handleHandshakeMessage emitter properties fuel ret src) := by
  induction fuel generalizing ret src with
  | zero => unfold handleMessages; infer_instance
  | succ fuel ih => unfold handleMessages receiveKeyChanges; split <;> infer_instance

instance (src : Bytes) :
    Reports (handleMessages handleHandshakeMessage emitter properties fuel ret src) := by
  induction fuel generalizing ret src with
  | zero => unfold handleMessages; infer_instance
  | succ fuel ih => unfold handleMessages receiveKeyChanges; split <;> infer_instance

instance :
    Respects SamePlaintext
      (handleHandshakeRecord handleHandshakeMessage emitter rec properties) := by
  unfold handleHandshakeRecord
  infer_instance

instance : Reports (handleHandshakeRecord handleHandshakeMessage emitter rec properties) := by
  unfold handleHandshakeRecord
  infer_instance

instance : Respects SameRefusals (serverSkipEarlyData length) := by
  have hcount (f : Tls → ℕ) : Respects SameRefusals (modifyTls fun tls =>
      { tls with earlyDataSkippedBytes := f tls }) := ⟨fun _ _ => ⟨rfl, id⟩⟩
  unfold serverSkipEarlyData
  infer_instance

section Records

variable {env : Environment} {s : Session}

theorem handleCleartextRecord_returns :
    Returns s (handleCleartextRecord emitter rec properties env s) := by
  unfold handleCleartextRecord
  rw [getTls_bind]
  have hreturns : Returns s (returnCode
      (if s.tls.recvbufMess.isSome ∨ rec.type = ContentType.handshake then
        handleHandshakeRecord handleHandshakeMessage emitter rec properties
      else handleContent rec) env s) := by
    split_ifs
    · exact returnCode_returns
    · have hcontent : Respects SameRefusals (handleContent rec) := sameRefusals_of_does (by decide)
      exact .inl (Respects.relates env s)
  refine bind_cases (Q := Returns s) (fun fault t hrun => ?_) fun ret t hrun => ?_ <;>
    rw [hrun] at hreturns
  · exact hreturns.imp_right fun h => by cases h.1
  · exact hreturns.imp (fun h => ⟨h.refused_eq, h.plain⟩)
      fun h => ⟨h.1, h.2.decryptbuf_eq, h.2.plain⟩

theorem handleEncryptedRecord_returns :
    Returns s (handleEncryptedRecord emitter rec properties env s) := by
  unfold handleEncryptedRecord
  refine .bind fun _ s₁ _ => .bind fun _ s₂ _ => .bind fun result s₃ _ => ?_
  cases result with
  | error code =>
    dsimp only
    rw [getTls_bind]
    split_ifs
    · exact .inl (Respects.relates env _)
    · exact .inl ⟨rfl, id⟩
  | ok plaintext =>
    dsimp only
    cases innerRecord plaintext with
    | none => exact .inl ⟨rfl, id⟩
    | some inner => exact handleCleartextRecord_returns

theorem handleInput_returns : Returns s (handleInput emitter input properties env s) := by
  unfold handleInput
  refine .bind fun rec s₁ _ => ?_
  cases rec with
  | none => exact .inl ⟨rfl, id⟩
  | some rec =>
    dsimp only
    unfold handleRecord
    rw [getTls_bind]
    split_ifs
    · exact .bind fun _ s₂ _ => .inl ⟨rfl, id⟩
    · exact handleEncryptedRecord_returns
    · exact .inl (Respects.relates env _)
    · exact handleCleartextRecord_returns

end Records

/-! ## Calls -/

section Calls

variable {env : Environment} {s : Session}

/-- The loop of the handshake ends with the first record that brings a refusal. The assertion about
plaintext holds, since that record brought none. -/
theorem handshakeLoop_returns (env : Environment) (properties : Option HandshakeProperties)
    (fuel taken : ℕ) (src : Bytes) (hoff : s.decryptbuf.length = origOff)
    (hplain : s.tls.enc.tls12 = false) :
    let outcome := handshakeLoop properties origOff fuel taken src env s
    SameRefusals s outcome.2 ∨ outcome.1 = .ok 1 ∧ outcome.2.tls.enc.tls12 = false := by
  induction fuel generalizing s taken src with
  | zero => exact .inl ⟨rfl, id⟩
  | succ fuel ih =>
    unfold handshakeLoop
    split_ifs
    · exact .inl ⟨rfl, id⟩
    have hreturns : Returns s (returnCode (handleInput .record src properties) env s) :=
      handleInput_returns.returnCode
    refine bind_cases (Q := fun p => SameRefusals s p.2 ∨ p.1 = .ok 1 ∧ p.2.tls.enc.tls12 = false)
      (fun fault t hrun => ?_) fun ret t hrun => ?_ <;> rw [hrun] at hreturns
    · exact hreturns.imp_right fun h => by cases h.1
    rw [getConsumed, observe_bind, decryptbufOff, observe_bind, assert_bind]
    rcases hreturns with hsame | ⟨hone, hsame⟩
    · split_ifs with hnow hgo
      · exact (ih _ _ (by simpa using hnow) (hsame.plain hplain)).imp_left
          (trans_of SameRefusals hsame)
      · exact .inl ⟨hsame.refused_eq, hsame.plain⟩
      · exact .inl hsame
    · cases hone
      rw [hsame.decryptbuf_eq]
      simp only [hoff]
      exact .inr ⟨rfl, hsame.plain hplain⟩

theorem receiveLoop_returns (fuel taken : ℕ) (src : Bytes) :
    SameRefusals s (receiveLoop origOff fuel taken src env s).2 ∨
      (receiveLoop origOff fuel taken src env s).1 = .ok 1 := by
  induction fuel generalizing s taken src with
  | zero => exact .inl ⟨rfl, id⟩
  | succ fuel ih =>
    unfold receiveLoop
    split_ifs
    · exact .inl ⟨rfl, id⟩
    rw [getTls_bind]
    have hreturns : Returns s (returnCode (if s.tls.dec.tls12 then handleInputTls12 src
        else handleInput .record src none) env s) := by
      refine Returns.returnCode ?_
      split_ifs with htls12
      · exact .inl (Steps.sameRefusals (handleInputTls12_steps htls12) (by decide))
      · exact handleInput_returns
    refine bind_cases (Q := fun p => SameRefusals s p.2 ∨ p.1 = .ok 1) (fun fault t hrun => ?_)
      fun ret t hrun => ?_ <;> rw [hrun] at hreturns
    · exact hreturns.imp_right fun h => by cases h.1
    rw [getConsumed, observe_bind, decryptbufOff, observe_bind]
    rcases hreturns with hsame | ⟨hone, -⟩
    · split_ifs
      · exact (ih _ _).imp_left (trans_of SameRefusals hsame)
      all_goals exact .inl ⟨hsame.refused_eq, hsame.plain⟩
    · cases hone
      exact .inr rfl

/-! ## The alert -/

omit [Crypto] in
/-- A procedure that fails with codes only returns one. -/
theorem exitCode_returns {body : Proc Unit} {Q : Unit → Session → Prop}
    (h : Ends Fault.IsCode Q (body env s)) : ∃ code t, exitCode body env s = (.ok code, t) := by
  unfold exitCode
  rw [returnCode_run, bind_run]
  rcases hrun : body env s with ⟨fault | _, t⟩ <;> rw [hrun] at h
  · obtain ⟨code, rfl⟩ := h
    exact ⟨code, t, rfl⟩
  · exact ⟨0, t, rfl⟩

/-- Under keys of TLS 1.3, an alert is written or a code says why it is not. -/
theorem ptlsSendAlert_returns (level description : UInt8) (hplain : s.tls.enc.tls12 = false) :
    ∃ code t, ptlsSendAlert level description env s = (.ok code, t) := by
  unfold ptlsSendAlert
  refine exitCode_returns (Q := fun _ _ => True) ?_
  rw [sendbufOff, observe_bind, getTls_bind]
  by_cases hdetached : s.tls.txDetached = true
  · rw [throwIf_bind_of hdetached]
    exact ⟨_, rfl⟩
  rw [throwIf_bind_of_not hdetached]
  have hrecord : Builds _ env s
      (bufferPushRecord ContentType.alert (bufferPushv [level, description]) env s)
      ([ContentType.alert, recordVersionMajor, recordVersionMinor] ++
        encodeBlock 2 [level, description]) () s.tls :=
    (Builds.bufferPushv s _).seq fun _ => .bufferPushBlock fun _ => .bufferPushv _ _
  refine (Ends.of_failsWith (G := fun _ (fault : Fault) => fault.IsCode)
    fun _ t hrun => (hrecord.returns _ t hrun).2.2).bind fun _ t ht => ?_
  obtain ⟨tick, rfl⟩ := ht
  rw [runIf]
  split_ifs with hencrypt
  · obtain ⟨aead, haead⟩ := Option.isSome_iff_exists.mp hencrypt.1
    have hbody : (s.appended s.tls ([ContentType.alert, recordVersionMajor, recordVersionMinor] ++
        encodeBlock 2 [level, description]) tick).sendbuf.drop (s.sendbuf.length + 5) =
          [level, description] := by
      simp [Session.appended, encodeBlock, toBE]
    have htype : (s.appended s.tls ([ContentType.alert, recordVersionMajor, recordVersionMinor] ++
        encodeBlock 2 [level, description]) tick).sendbuf[s.sendbuf.length]? =
          some ContentType.alert := by
      simp [Session.appended]
    rw [bufferEncryptRecord, getSendbuf, observe_bind, hbody, htype, deref_some_bind, getTls_bind]
    simp only [Session.appended_tls, hplain, haead]
    refine (allocate_ends.mono (fun _ h => ⟨_, h.1⟩) fun _ _ => id).bind fun _ t ht => ?_
    subst ht
    rw [aeadEncrypt, Procedure.bind_assoc, getTls_bind]
    simp only [Session.appended_tls, haead]
    trivial
  · trivial

/-- The description of the alert that goes with a code. -/
def alertDescription (code : Code) : UInt8 :=
  UInt8.ofNat (if errorGetClass code = 0 then code else Alert.internalError)

/-- The output is cut back to a length, and then a fatal alert is written, if it can be. -/
def EndsWithAlert (env : Environment) (origOff : ℕ) (description : UInt8) (t : Session) : Prop :=
  ∃ u sent v, u.sendbuf.length ≤ origOff ∧
    ptlsSendAlert Alert.levelFatal description env u = (.ok sent, v) ∧
    t = if sent = 0 then v else { v with sendbuf := v.sendbuf.take origOff }

theorem sendFailureAlert_one (origOff : ℕ) (hplain : s.tls.enc.tls12 = false) :
    ∃ t, sendFailureAlert origOff 1 env s = (.ok (), t) ∧ EndsWithAlert env origOff 1 t := by
  obtain ⟨sent, t, hsend⟩ : ∃ sent t, ptlsSendAlert Alert.levelFatal 1 env
      { s with sendbuf := s.sendbuf.take origOff } = (.ok sent, t) :=
    ptlsSendAlert_returns _ _ hplain
  have hlength : (s.sendbuf.take origOff).length ≤ origOff := List.length_take_le _ _
  refine ⟨if sent = 0 then t else { t with sendbuf := t.sendbuf.take origOff }, ?_,
    _, sent, t, hlength, hsend, rfl⟩
  change (ptlsSendAlert Alert.levelFatal 1 >>= fun sent =>
    runIf (sent ≠ 0) (modifySendbuf (·.take origOff))) env _ = _
  rw [bind_of_ok hsend, runIf]
  by_cases hsent : sent = 0
  · rw [if_neg (not_not_intro hsent), if_pos hsent]
    rfl
  · rw [if_pos hsent, if_neg hsent]
    rfl

/-- A refusal makes the call return the code one, after an alert with this description. -/
def Alerts (env : Environment) (s : Session) (outcome : Except Fault Code × Session) : Prop :=
  outcome.2.refused = s.refused ∨
    outcome.1 = .ok 1 ∧ EndsWithAlert env s.sendbuf.length 1 outcome.2

theorem ptlsHandshake_alerts (hplain : s.tls.enc.tls12 = false ∨ s.tls.state.IsPostHandshake) :
    Alerts env s (ptlsHandshake properties input env s) := by
  unfold ptlsHandshake
  rw [getTls_bind, assert_bind]
  split_ifs with hearly
  case neg => exact .inl rfl
  have hplain : s.tls.enc.tls12 = false :=
    hplain.resolve_right (by simpa using hearly)
  rw [sendbufOff, observe_bind]
  have hinput : Alerts env s ((do
      let off ← decryptbufOff
      let ret ← handshakeLoop properties off (input.length + 1) 0 input
      runIf (ret ∉ [0, Error.inProgress, Error.statelessRetry, Error.asyncOperation])
        (sendFailureAlert s.sendbuf.length ret)
      return ret) env s) := by
    rw [decryptbufOff, observe_bind]
    have hloop := handshakeLoop_returns env properties (input.length + 1) 0 input rfl hplain
    refine bind_cases (Q := Alerts env s) (fun fault t hrun => ?_) fun ret t hrun => ?_ <;>
      rw [hrun] at hloop
    · exact .inl (hloop.resolve_right fun h => by cases h.1).refused_eq
    rcases hloop with hsame | ⟨hone, hplain'⟩
    · have hrest : SameRefusals t ((do
          runIf (ret ∉ [0, Error.inProgress, Error.statelessRetry, Error.asyncOperation])
            (sendFailureAlert s.sendbuf.length ret)
          return ret) env t).2 := Respects.relates env t
      exact .inl (hrest.refused_eq.trans hsame.refused_eq)
    · cases hone
      obtain ⟨u, halert, hends⟩ : ∃ u, sendFailureAlert s.sendbuf.length 1 env t = (.ok (), u) ∧
          EndsWithAlert env s.sendbuf.length 1 u := sendFailureAlert_one _ hplain'
      refine .inr ?_
      rw [runIf, if_pos (by decide), bind_of_ok halert]
      exact ⟨rfl, hends⟩
  cases hstate : s.tls.state with
  | clientHandshakeStart =>
    have hspares : SparesMessages s ((do
        assert (input = [])
        returnCode do
          sendClientHello .record properties none
          return Error.inProgress) env s).2 := Respects.relates env s
    exact .inl (hspares (by rw [hstate]; decide)).2.refused_eq
  | serverGeneratingCertificateVerify =>
    have hsame : SameRefusals s (returnCode (do
        let progress ← serverFinishHandshake .record true none
        return progress.code) env s).2 := Respects.relates env s
    exact .inl hsame.refused_eq
  | _ => exact hinput

theorem ptlsReceive_returns :
    SameRefusals s (ptlsReceive input env s).2 ∨ (ptlsReceive input env s).1 = .ok 1 := by
  unfold ptlsReceive
  rw [getTls_bind, assert_bind]
  split_ifs
  · rw [decryptbufOff, observe_bind]
    exact receiveLoop_returns _ _ _
  · exact .inl ⟨rfl, id⟩

instance : Does [] getReadEpoch := by
  refine ⟨?_⟩
  unfold getReadEpoch
  repeat' first | infer_instance | refine .seq ?_ fun _ => ?_ | split

theorem ptlsHandleMessage_returns {inEpoch : ℕ} :
    Returns s (ptlsHandleMessage properties inEpoch (some input) env s) := by
  have hinput (t : Session) : Returns t (handleEpochInput properties inEpoch input env t) :=
    returnCode_returns
  unfold ptlsHandleMessage
  rw [getTls_bind]
  split_ifs
  · unfold ptlsServerHandleMessage
    rw [getTls_bind]
    refine .bind fun _ s₁ _ => ?_
    split_ifs
    · exact .inl (Respects.relates env s₁)
    · exact .bind fun _ s₂ _ => hinput s₂
  · unfold ptlsClientHandleMessage
    rw [getTls_bind]
    exact .bind fun _ s₁ _ => hinput s₁

end Calls

/-- A call that may handle messages of the peer. -/
inductive Call where
  | handshake (properties : Option HandshakeProperties) (input : Bytes)
  | receive (input : Bytes)
  | handleMessage (properties : Option HandshakeProperties) (inEpoch : ℕ) (input : Bytes)

def Call.run : Call → Proc Code
  | .handshake properties input => ptlsHandshake properties input
  | .receive input => ptlsReceive input
  | .handleMessage properties inEpoch input => ptlsHandleMessage properties inEpoch (some input)

/-- The answers with which extensions of messages are refused during a call. -/
def Call.refused (call : Call) (env : Environment) (s : Session) : List Code :=
  (call.run env s).2.refused.drop s.refused.length

/-- An answer of the application reaches the caller, and the alert that the handshake sends goes
with it. -/
structure Call.PassesOn (call : Call) (env : Environment) (s : Session) (answer : Code) : Prop where
  returned : (call.run env s).1 = .ok answer
  alert : ∀ properties input, call = .handshake properties input →
    EndsWithAlert env s.sendbuf.length (alertDescription answer) (call.run env s).2

theorem Call.passesOn_one {call : Call} {env : Environment} {s : Session}
    (hplain : s.tls.enc.tls12 = false ∨ s.tls.state.IsPostHandshake)
    (hrefused : call.refused env s ≠ []) : call.PassesOn env s 1 := by
  have hchanged : (call.run env s).2.refused ≠ s.refused := by
    intro hsame
    rw [Call.refused, hsame, List.drop_length] at hrefused
    exact hrefused rfl
  cases call with
  | handshake properties input =>
    obtain ⟨hone, halert⟩ := (ptlsHandshake_alerts hplain).resolve_left hchanged
    refine ⟨hone, ?_⟩
    rintro _ _ ⟨⟩
    exact halert
  | receive input =>
    refine ⟨ptlsReceive_returns.resolve_left fun h => hchanged h.refused_eq, ?_⟩
    intro _ _ hcall
    cases hcall
  | handleMessage properties inEpoch input =>
    refine ⟨(ptlsHandleMessage_returns.resolve_left fun h => hchanged h.refused_eq).1, ?_⟩
    intro _ _ hcall
    cases hcall

/-- The application refuses an extension of any message, and at any place of it. Its answer reaches
the caller exactly if the answer is one. Keys of TLS 1.2 are those of imported connections, which
have no handshake. -/
theorem extension_refusal_passed_on_iff (call : Call) (env : Environment) (s : Session)
    (hplain : s.tls.enc.tls12 = false ∨ s.tls.state.IsPostHandshake) {answer : Code}
    (hanswer : answer ∈ call.refused env s) : call.PassesOn env s answer ↔ answer = 1 := by
  have hone := Call.passesOn_one hplain (List.ne_nil_of_mem hanswer)
  constructor
  · intro h
    exact Except.ok.inj (h.returned.symm.trans hone.returned)
  · rintro rfl
    exact hone

open Sample

/-- A client that awaits a ServerHello, whose application is told about extensions. -/
def Sample.askingClient : Session where
  tls := newInstance { context with onExtension := true } false .clientExpectServerHello

/-- An application that answers every extension with a code. -/
def Sample.answering (code : Code) : Environment :=
  { environment with onExtension := fun _ _ _ _ => code }

/-- A handshake that handles a ServerHello. -/
def Sample.extensionCall : Call :=
  .handshake none (record (hello (zeros 32) 0x1301 helloExtensions))

omit [Crypto] in
theorem extension_refusal_passed_on_one :
    @Call.PassesOn crypto extensionCall (answering 1) askingClient 1 :=
  (@extension_refusal_passed_on_iff crypto extensionCall (answering 1)
    askingClient (.inl rfl) 1 (by decide +kernel)).mpr rfl

omit [Crypto] in
/-- An answer of forty, which stands for a failure of the handshake, becomes one. -/
theorem extension_refusal_becomes_one :
    let outcome := @Call.run crypto extensionCall (answering 40)
      askingClient
    40 ∈ @Call.refused crypto extensionCall (answering 40)
        askingClient ∧
      outcome.1 = .ok 1 ∧ outcome.2.sendbuf = [21, 3, 3, 0, 2, 2, 1] ∧
      ¬ @Call.PassesOn crypto extensionCall (answering 40) askingClient
        40 := by
  have hone : (@Call.run crypto extensionCall (answering 40)
      askingClient).1 = .ok 1 := by decide +kernel
  refine ⟨by decide +kernel, hone, by decide +kernel, fun h => ?_⟩
  cases hone.symm.trans (@Call.PassesOn.returned crypto _ _ _ _ h)

end Picotls
