import Picotls.Effects.Client
import Picotls.Effects.Failures
import Picotls.Effects.Input
import Picotls.Effects.Server

/-!
# Messages that change the key for receiving

The hellos and the Finished messages change the key for receiving only where they end their record.
A KeyUpdate and an EndOfEarlyData that are handled change it wherever they stand; no other message
does.
-/

namespace Picotls

open Foundation Procedure

variable [Crypto] {env : Environment} {s t : Session} {emitter : Emitter} {message : Bytes}
  {isEndOfRecord : Bool} {properties : Option HandshakeProperties} {x : Except Fault Progress}
  {x' : Except Fault Unit}

/-! ## Handlers of messages -/

instance : Does certificateEffects (clientHandleAnyCertificate type message) :=
  ⟨by unfold clientHandleAnyCertificate; infer_instance⟩

/-- The effects of the handlers of messages, apart from refusals and from the end of a client's
handshake. -/
abbrev silentHandlerEffects : List Effect :=
  [.io, .draw, .transcript, .advance, .schedule, .dec, .encSecret, .encClear, .encInstall, .encrypt,
    .names, .negotiation, .suite, .psk, .ech, .keyUpdate, .earlyData, .startSkip, .misc, .context,
    .verify,
    .state .clientExpectServerHello, .state .clientExpectSecondServerHello,
    .state .clientExpectEncryptedExtensions, .state .clientExpectCertificateRequestOrCertificate,
    .state .clientExpectCertificate, .state .clientExpectCertificateVerify,
    .state .clientExpectFinished, .state .serverExpectSecondClientHello,
    .state .serverGeneratingCertificateVerify, .state .serverExpectCertificate,
    .state .serverExpectCertificateVerify, .state .serverExpectEndOfEarlyData,
    .state .serverExpectFinished, .state .serverPostHandshake,
    .note .derive, .note .finishedMac, .note .hello, .note .selectCipher, .note .acceptServerHello,
    .note .startSchedule, .note .clientHello, .note .sent, .note .absorb, .note .decideEch,
    .note .exchange, .note .handshakeSecret, .note .authenticate, .note .acceptEarly,
    .note .sealTicket, .note .saveTicket]

/-- The effects of the handlers of messages. -/
abbrev handlerEffects : List Effect :=
  .refuse :: .state .clientPostHandshake :: silentHandlerEffects

set_option synthInstance.maxSize 1024 in
instance (properties : Option HandshakeProperties) :
    Within handlerEffects
      (handleClientHandshakeMessage emitter message isEndOfRecord properties) := by
  unfold handleClientHandshakeMessage
  refine Respects.seq inferInstance fun tls => Respects.seq inferInstance fun type => ?_
  split <;> infer_instance

set_option synthInstance.maxSize 1024 in
instance (properties : Option HandshakeProperties) :
    Within handlerEffects
      (handleServerHandshakeMessage emitter message isEndOfRecord properties) := by
  unfold handleServerHandshakeMessage
  refine Respects.seq inferInstance fun tls => Respects.seq inferInstance fun type => ?_
  split <;> infer_instance

instance (properties : Option HandshakeProperties) :
    Within (.note .received :: handlerEffects)
      (handleHandshakeMessage emitter message isEndOfRecord properties) := by
  unfold handleHandshakeMessage
  refine Respects.seq inferInstance fun _ => Respects.seq inferInstance fun tls => ?_
  split <;> exact ⟨fun env s => Steps.mono (Respects.relates env s) fun _ => List.mem_cons_of_mem _⟩

/-! ## Changes in the history -/

omit [Crypto] in
/-- Steps that leave the protection of received records alone do not change the key. -/
theorem Steps.count_changeKey {E : List Effect} (h : Via E s t)
    (hE : ∀ e ∈ E, e.emits .changeKey = false) :
    t.trace.count .changeReceiveKey = s.trace.count .changeReceiveKey := by
  have hfilter := congrArg (List.count .changeReceiveKey) (Steps.filter_kind .changeKey h hE)
  rwa [List.count_filter (by decide), List.count_filter (by decide)] at hfilter

omit [Crypto] in
/-- Changes stay in the history. -/
theorem Steps.count_changeKey_le {E : List Effect} (h : Via E s t) :
    s.trace.count .changeReceiveKey ≤ t.trace.count .changeReceiveKey :=
  (Steps.trace_prefix h).sublist.count_le _

/-! ## Messages that leave the key alone -/

/-- The effects of the handlers that leave the key alone. -/
abbrev keepingEffects : List Effect :=
  [.io, .transcript, .names, .ech, .earlyData, .psk, .misc, .verify, .refuse,
    .state .clientExpectCertificateRequestOrCertificate, .state .clientExpectCertificate,
    .state .clientExpectCertificateVerify, .state .clientExpectFinished,
    .state .serverExpectCertificateVerify, .state .serverExpectFinished,
    .note .derive, .note .absorb, .note .authenticate, .note .saveTicket]

section

variable (hother : ¬ ChangesKeyAnywhere message)

include hother

theorem handleClientHandshakeMessage_keepsKey :
    Via keepingEffects s
      (handleClientHandshakeMessage emitter message false properties env s).2 := by
  unfold handleClientHandshakeMessage
  rw [getTls_bind]
  refine steps_quiet [] (by decide) fun type s₁ hrun _ => ?_
  have hhead := (deref_eq_ok.mp hrun).1
  have htype : type ≠ HandshakeType.keyUpdate := fun h => hother (.inl (h ▸ hhead))
  cases s.tls.state with
  | clientPostHandshake =>
    simp only [if_neg htype]
    exact Respects.relates env s₁
  | clientExpectServerHello | clientExpectSecondServerHello | clientExpectFinished =>
    simp only [Bool.false_eq_true, and_false, if_false]
    exact Respects.relates env s₁
  | _ => exact Respects.relates env s₁

theorem handleServerHandshakeMessage_keepsKey :
    Via keepingEffects s
      (handleServerHandshakeMessage emitter message false properties env s).2 := by
  unfold handleServerHandshakeMessage
  rw [getTls_bind]
  refine steps_quiet [] (by decide) fun type s₁ hrun _ => ?_
  have hhead := (deref_eq_ok.mp hrun).1
  have hupdate : type ≠ HandshakeType.keyUpdate := fun h => hother (.inl (h ▸ hhead))
  have hearly : type ≠ HandshakeType.endOfEarlyData := fun h => hother (.inr (h ▸ hhead))
  cases s.tls.state with
  | serverPostHandshake =>
    simp only [if_neg hupdate]
    exact Respects.relates env s₁
  | serverExpectEndOfEarlyData =>
    simp only [if_neg hearly]
    exact Respects.relates env s₁
  | serverExpectClientHello | serverExpectSecondClientHello | serverExpectFinished =>
    simp only [Bool.false_eq_true, and_false, if_false]
    exact Respects.relates env s₁
  | _ => exact Respects.relates env s₁

/-- A message leaves the key alone if it neither ends its record nor changes the key anywhere. -/
theorem handleHandshakeMessage_keepsKey
    (hrun : handleHandshakeMessage emitter message false properties env s = (x, t)) :
    t.trace.count .changeReceiveKey = s.trace.count .changeReceiveKey := by
  have hsteps : Via (.note .received :: keepingEffects) s t := by
    rw [← show _ = t from congrArg Prod.snd hrun, handleHandshakeMessage, emitEvent_bind,
      getTls_bind]
    refine .trans (.single ⟨.note .received, by simp, .note s (.received message)⟩) ?_
    split_ifs
    · exact Steps.mono (handleServerHandshakeMessage_keepsKey hother) (by simp)
    · exact Steps.mono (handleClientHandshakeMessage_keepsKey hother) (by simp)
  exact Steps.count_changeKey hsteps (by decide)

end

/-! ## Messages that change the key -/

/-- A stage of the key schedule never fails with a code after which the handshake goes on. -/
theorem hkdfExpandLabel_stops {algo : HashAlgorithm} {outlen : ℕ} {secret context : Bytes}
    {label : Label} { labelPrefix : Option Bytes} {fault : Fault}
    (hrun : hkdfExpandLabel algo outlen secret label context labelPrefix env s =
      (.error fault, t)) :
    ¬ fault.Continues := by
  simp only [hkdfExpandLabel, bind_run, allocate_run, throwIf] at hrun
  split_ifs at hrun <;> cases hrun <;> exact Bool.false_ne_true

/-- A secret that is put into use for receiving enters the history. -/
theorem setupTrafficProtection_changesKey {epoch seq : ℕ} {skipNotify : Bool}
    (hrun : setupTrafficProtection false none epoch seq skipNotify env s = (x', t)) :
    s.trace.count .changeReceiveKey < t.trace.count .changeReceiveKey := by
  rw [setupTrafficProtection, whenSome, bind_run, pure_run] at hrun
  dsimp only at hrun
  rw [modifyProtection_bind, noteKeyChange, runIf, if_pos (by decide), emitEvent_bind] at hrun
  have hsteps : Via [.io, .dec, .note .derive] _ t := Within.steps inferInstance hrun
  have hle := Steps.count_changeKey_le hsteps
  simp only [List.count_append, List.count_singleton_self] at hle
  omega

theorem updateTrafficKey_changesKey (hrun : updateTrafficKey false env s = (x', t))
    (hcont : Continues x') :
    s.trace.count .changeReceiveKey < t.trace.count .changeReceiveKey := by
  rw [updateTrafficKey] at hrun
  rcases hfirst : firstHash env s with ⟨fault | slot, s₁⟩
  · obtain ⟨rfl, -⟩ := firstHash_error hfirst
    rw [bind_of_error hfirst] at hrun
    cases hrun
    exact hcont.elim
  rw [bind_of_ok hfirst, getTls_bind] at hrun
  obtain ⟨-, -, -, rfl⟩ := firstHash_eq_ok.mp hfirst
  rcases hexpand : hkdfExpandLabel slot.algo slot.algo.digestSize (s₁.tls.protection false).secret
    .trafficUpdate [] none env s₁ with ⟨fault | secret, s₂⟩
  · rw [bind_of_error hexpand] at hrun
    cases hrun
    exact absurd hcont (hkdfExpandLabel_stops hexpand)
  · rw [bind_of_ok hexpand, modifyProtection_bind] at hrun
    have hsteps : Via [.io, .note .derive] s₁ s₂ := Within.steps inferInstance hexpand
    have hle := Steps.count_changeKey_le hsteps
    have hlt := setupTrafficProtection_changesKey hrun
    exact lt_of_le_of_lt hle hlt

omit [Crypto] in
/-- Whether a KeyUpdate asks for one in return is read off, or the message is refused. -/
theorem decodeKeyUpdate_inv {y : Except Fault Bool}
    (hrun : decodeKeyUpdate message env s = (y, t)) :
    t = s ∧ ∀ fault, y = .error fault → ¬ fault.Continues := by
  unfold decodeKeyUpdate at hrun
  generalize message.drop handshakeHeaderSize = body at hrun
  have hrefused (hfail : (throwCode Alert.decodeError : Proc Bool) env s = (y, t)) :
      t = s ∧ ∀ fault, y = .error fault → ¬ fault.Continues := by
    cases hfail
    refine ⟨rfl, ?_⟩
    rintro _ ⟨⟩
    exact Bool.false_ne_true
  match body with
  | [] => exact hrefused hrun
  | [request] =>
    dsimp only at hrun
    split_ifs at hrun
    · exact hrefused hrun
    · cases hrun
      exact ⟨rfl, by rintro _ ⟨⟩⟩
  | _ :: _ :: _ => exact hrefused hrun

/-- A KeyUpdate that is not refused changes the key. -/
theorem handleKeyUpdate_changesKey (hrun : handleKeyUpdate message env s = (x, t))
    (hcont : Continues x) :
    s.trace.count .changeReceiveKey < t.trace.count .changeReceiveKey := by
  rw [handleKeyUpdate] at hrun
  rcases hdecode : decodeKeyUpdate message env s with ⟨y, s₁⟩
  obtain ⟨rfl, hrefused⟩ := decodeKeyUpdate_inv hdecode
  cases y with
  | error fault =>
    rw [bind_of_error hdecode] at hrun
    cases hrun
    exact absurd hcont (hrefused fault rfl)
  | ok request =>
    rw [bind_of_ok hdecode] at hrun
    rcases hupdate : updateTrafficKey false env s₁ with ⟨fault | _, s₂⟩
    · rw [bind_of_error hupdate] at hrun
      cases hrun
      exact updateTrafficKey_changesKey hupdate hcont
    · rw [bind_of_ok hupdate] at hrun
      have hsteps : Via [.keyUpdate] s₂ t := Within.steps inferInstance hrun
      exact lt_of_lt_of_le (updateTrafficKey_changesKey hupdate trivial)
        (Steps.count_changeKey_le hsteps)

/-- An EndOfEarlyData that is not refused changes the key. -/
theorem serverHandleEndOfEarlyData_changesKey (hserver : s.tls.isServer)
    (hrun : serverHandleEndOfEarlyData message env s = (x, t)) (hcont : Continues x) :
    s.trace.count .changeReceiveKey < t.trace.count .changeReceiveKey := by
  have hcommission {y : Except Fault Unit} {u : Session}
      (h : commissionHandshakeSecret env s = (y, u)) (hcont : Continues y) :
      s.trace.count .changeReceiveKey < u.trace.count .changeReceiveKey := by
    rw [commissionHandshakeSecret, getTls_bind, if_pos hserver, installHandshakeSecret,
      getTls_bind] at h
    cases hpending : s.tls.pendingHandshakeSecret with
    | none =>
      rw [hpending] at h
      cases h
      exact hcont.elim
    | some secret =>
      rw [hpending, assert_bind, if_pos Option.isSome_some, deref_some_bind, modifyProtection_bind,
        modifyTls_bind] at h
      have hlt := setupTrafficProtection_changesKey h
      exact hlt
  rw [serverHandleEndOfEarlyData] at hrun
  rcases hfirst : commissionHandshakeSecret env s with ⟨fault | _, s₁⟩
  · rw [bind_of_error hfirst] at hrun
    cases hrun
    exact hcommission hfirst hcont
  · rw [bind_of_ok hfirst] at hrun
    have hsteps : Via [.transcript, .state .serverExpectFinished, .note .absorb] s₁ t :=
      Within.steps inferInstance hrun
    exact lt_of_lt_of_le (hcommission hfirst trivial) (Steps.count_changeKey_le hsteps)

section

variable (hany : ChangesKeyAnywhere message)

include hany

/-- On the client, a message that changes the key anywhere is a KeyUpdate or refused. -/
theorem handleClientHandshakeMessage_any
    (hrun : handleClientHandshakeMessage emitter message isEndOfRecord properties env s = (x, t))
    (hcont : Continues x) : handleKeyUpdate message env s = (x, t) := by
  have hrefused {fault : Fault} (hfault : ¬ fault.Continues)
      (hfail : (.error fault, s) = (x, t)) : handleKeyUpdate message env s = (x, t) := by
    cases hfail
    exact absurd hcont hfault
  simp only [handleClientHandshakeMessage, getTls_bind] at hrun
  rcases hany with hhead | hhead <;> rw [hhead, deref_some_bind] at hrun <;>
    generalize s.tls.state = state at hrun
  all_goals cases state with
  | clientPostHandshake =>
    first | exact hrun | exact hrefused (by exact Bool.false_ne_true) hrun
  | _ => exact hrefused (by first | exact Bool.false_ne_true | exact id) hrun

/-- On the server, a message that changes the key anywhere is a KeyUpdate, an EndOfEarlyData, or
refused. -/
theorem handleServerHandshakeMessage_any
    (hrun : handleServerHandshakeMessage emitter message isEndOfRecord properties env s = (x, t))
    (hcont : Continues x) :
    handleKeyUpdate message env s = (x, t) ∨ serverHandleEndOfEarlyData message env s = (x, t) := by
  have hrefused {fault : Fault} (hfault : ¬ fault.Continues) (hfail : (.error fault, s) = (x, t)) :
      handleKeyUpdate message env s = (x, t) ∨
        serverHandleEndOfEarlyData message env s = (x, t) := by
    cases hfail
    exact absurd hcont hfault
  simp only [handleServerHandshakeMessage, getTls_bind] at hrun
  rcases hany with hhead | hhead <;> rw [hhead, deref_some_bind] at hrun <;>
    generalize s.tls.state = state at hrun
  all_goals cases state with
  | serverPostHandshake =>
    first | exact .inl hrun | exact hrefused (by exact Bool.false_ne_true) hrun
  | serverExpectEndOfEarlyData =>
    dsimp only at hrun
    rw [assert_bind] at hrun
    split_ifs at hrun
    all_goals first
      | exact .inr hrun
      | exact hrefused (by first | exact Bool.false_ne_true | exact id) hrun
  | _ => exact hrefused (by first | exact Bool.false_ne_true | exact id) hrun

/-- A message that changes the key anywhere changes it unless it is refused. -/
theorem handleHandshakeMessage_changesKey
    (hrun : handleHandshakeMessage emitter message isEndOfRecord properties env s = (x, t))
    (hcont : Continues x) : s.trace.count .changeReceiveKey < t.trace.count .changeReceiveKey := by
  have hnoted : s.trace.count .changeReceiveKey =
      (s.trace ++ [Event.received message]).count .changeReceiveKey := by
    simp [List.count_append]
  rw [handleHandshakeMessage, emitEvent_bind, getTls_bind] at hrun
  rw [hnoted]
  split_ifs at hrun with hserver
  · rcases handleServerHandshakeMessage_any hany hrun hcont with hupdate | hend
    · exact handleKeyUpdate_changesKey hupdate hcont
    · exact serverHandleEndOfEarlyData_changesKey hserver hend hcont
  · exact handleKeyUpdate_changesKey (handleClientHandshakeMessage_any hany hrun hcont) hcont

end

/-! ## Messages of a record -/

omit [Crypto] in
/-- A message of a record that is not refused has been handled. -/
theorem handleRecordMessage_eq_ok {cb : MessageCallback} {ret : Code}
    (hrun : handleRecordMessage cb emitter message isEndOfRecord properties env s = (.ok ret, t)) :
    ∃ x, cb emitter message isEndOfRecord properties env s = (x, t) ∧ Continues x := by
  obtain ⟨code, u, hcode, hrest⟩ := bind_eq_ok.mp hrun
  split_ifs at hrest with halive
  · obtain rfl : u = t := congrArg Prod.snd hrest
    rcases returnCode_eq_ok hcode with hbody | hbody
    · obtain ⟨progress, v, hcb, hv⟩ := bind_eq_ok.mp hbody
      obtain rfl : v = u := congrArg Prod.snd hv
      exact ⟨_, hcb, trivial⟩
    · rcases hcb : cb emitter message isEndOfRecord properties env s with ⟨fault | progress, v⟩
      · rw [bind_of_error hcb] at hbody
        cases hbody
        refine ⟨_, rfl, ?_⟩
        rcases halive with rfl | rfl | rfl <;> rfl
      · rw [bind_of_ok hcb] at hbody
        cases hbody
  · cases hrest

/-- A message that is not refused leaves a note of whether it changed the key. -/
theorem handled_step {rest : Bytes} (hrest : isEndOfRecord = true → rest = [])
    (hrun : handleHandshakeMessage emitter message isEndOfRecord properties env s = (x, t))
    (hcont : Continues x) :
    Effect.Step .handled t { t with trace := t.trace ++ [.handled message rest
      (s.trace.count .changeReceiveKey ≠ t.trace.count .changeReceiveKey)] } := by
  refine .handled t message rest _ (fun hchanged => ?_) fun hany => ?_
  · by_contra hneither
    rw [not_or] at hneither
    obtain ⟨hne, hother⟩ := hneither
    have hmiddle : isEndOfRecord = false := by
      rw [← Bool.not_eq_true]
      exact fun hend => hne (hrest hend)
    subst hmiddle
    have hkeeps := handleHandshakeMessage_keepsKey hother hrun
    exact of_decide_eq_true hchanged hkeeps.symm
  · have hlt := handleHandshakeMessage_changesKey hany hrun hcont
    exact decide_eq_true hlt.ne

end Picotls
