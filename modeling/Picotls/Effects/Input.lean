import Picotls.Api
import Picotls.Effects.Record

/-!
# Effects of input handling and of the calls on a connection

The handlers of handshake messages are left to the invariants of runs; here are the steps around
them, and the calls that send.
-/

namespace Picotls

open Foundation Procedure

variable [Crypto] {R : Session → Session → Prop} [IsPreorder Session R]

variable {env : Environment} {E : List Effect} {body : Proc Code} {s s' : Session}

/-! ## Key updates of the peer -/

instance : Does [] (decodeKeyUpdate message) := by
  refine ⟨?_⟩
  unfold decodeKeyUpdate
  split <;> infer_instance

/-- A request is counted only for a detached sender. -/
instance : Does [.keyUpdate] noteKeyUpdateRequest := by
  refine ⟨⟨fun env s => ?_⟩⟩
  unfold noteKeyUpdateRequest
  rw [getTls_bind]
  refine steps_quiet [] (by decide) fun _ s₁ hguard _ => ?_
  obtain rfl := (throwIf_eq_ok.mp hguard).2
  split_ifs with hdetached
  · refine steps_quiet [] (by decide) fun _ s₂ hlimit _ => ?_
    obtain rfl := (throwIf_eq_ok.mp hlimit).2
    exact .single ⟨.keyUpdate, by simp, .keyUpdate s₂ s₂.tls.needsKeyUpdate
      s₂.tls.keyUpdateSendRequest (s₂.tls.keyUpdateRequests + 1) (by simp [hdetached])⟩
  · exact Respects.relates env s₁

instance : Does [.io, .dec, .keyUpdate, .note .derive] (handleKeyUpdate message) :=
  ⟨by unfold handleKeyUpdate; infer_instance⟩

/-! ## Records -/

instance [Respects R body] : Respects R (returnCode body) := by
  unfold returnCode
  refine Respects.seq inferInstance fun result => ?_
  cases result <;> infer_instance

omit [Crypto] in
/-- A procedure takes the same steps when its failures are returned as codes. -/
theorem returnCode_steps (hbody : Via E s (body env s).2) :
    Via E s (returnCode body env s).2 := by
  unfold returnCode attemptCode
  rw [bind_run, attempt_bind]
  rcases hrun : body env s with ⟨(code | _ | _) | code, t⟩ <;> (rw [hrun] at hbody; exact hbody)

omit [Crypto] in
/-- What is returned depends on how the body ends. -/
theorem returnCode_run (body : Proc Code) (env : Environment) (s : Session) :
    returnCode body env s = match body env s with
      | (.ok code, t) | (.error (.code code), t) => (.ok code, t)
      | (.error fault, t) => (.error fault, t) := by
  unfold returnCode attemptCode
  rw [bind_run, attempt_bind]
  rcases body env s with ⟨(code | _ | _) | code, t⟩ <;> rfl

omit [Crypto] in
/-- A code is returned that the body returned or stopped with. -/
theorem returnCode_eq_ok {t : Session} {code : Code} (h : returnCode body env s = (.ok code, t)) :
    body env s = (.ok code, t) ∨ body env s = (.error (.code code), t) := by
  rw [returnCode_run] at h
  rcases hrun : body env s with ⟨(code' | _ | _) | code', t'⟩ <;> rw [hrun] at h <;> cases h
  · exact .inr rfl
  · exact .inl rfl

instance : Does [.io, .receive] (flattenMessages fragment) := by
  refine ⟨?_⟩
  unfold flattenMessages
  refine Respects.seq inferInstance fun tls => ?_
  split <;> infer_instance

instance : Does [.io, .receive] (keepPartialMessage rest) :=
  ⟨by unfold keepPartialMessage; infer_instance⟩

omit [Crypto] in
/-- Plaintext is appended in states that hand it over. -/
theorem appendPlaintext_steps {octets : Bytes} (hdelivers : s.tls.Delivers) :
    Via [.deliver] s (appendPlaintext octets env s).2 :=
  .tail (.single ⟨.deliver, by simp, .plaintext s (s.decryptbuf ++ octets)⟩)
    ⟨.deliver, by simp, .deliver _ octets hdelivers⟩

instance : Does [.receive] disposeRecvbufRec := ⟨by unfold disposeRecvbufRec; infer_instance⟩

omit [Crypto] in
/-- Early data is only counted by a server that passes over it. -/
theorem serverSkipEarlyData_steps {length : ℕ} (hlength : length ≤ maxEncryptedRecordSize)
    (hskips : s.tls.skipsEarlyData) :
    Via [.receive, .skip] s (serverSkipEarlyData length env s).2 := by
  have hne : s.tls.earlyDataSkippedBytes ≠ uint32Max := by
    simpa using (Bool.and_eq_true_iff.mp hskips).2
  unfold serverSkipEarlyData
  rw [modifyTls_bind, getTls_bind, emitEvent_bind]
  refine .trans (.single ⟨.skip, by simp, .skip s length hlength hne⟩) ?_
  exact Respects.relates (R := Via [.receive, .skip]) env _

instance : Does [.deliver] (handleContent rec) := by
  refine ⟨⟨fun env s => ?_⟩⟩
  unfold handleContent runIf
  rw [getTls_bind]
  split_ifs with _ hpost hearly haead
  · exact steps_seq (appendPlaintext_steps (.inl hpost)) fun _ t _ => refl_of _ t
  · exact steps_seq (appendPlaintext_steps (.inr (.inl ⟨hearly, haead⟩))) fun _ t _ => refl_of _ t
  all_goals exact refl_of _ s

instance : Does [] (tls12RecordNonce aead seq fragment) :=
  ⟨by unfold tls12RecordNonce; infer_instance⟩

instance : Does [.io, .decSeq] (decryptTls12Record rec) := by
  refine ⟨?_⟩
  unfold decryptTls12Record
  dsimp only
  repeat' first | infer_instance | refine .seq ?_ fun _ => ?_ | split

omit [Crypto] in
/-- The version of the record protection is left alone by effects that keep the receiving key. -/
theorem Steps.tls12_eq (h : Via E s s') (hE : .dec ∉ E ∧ .importKeys ∉ E) :
    s'.tls.dec.tls12 = s.tls.dec.tls12 := by
  refine h.preserves (P := fun t => t.tls.dec.tls12 = s.tls.dec.tls12) ?_ rfl
  intro e he t t' hstep ht
  cases hstep <;> first | exact ht | exact absurd he hE.1 | exact absurd he hE.2

/-- The steps of input under the record protection of TLS 1.2. -/
abbrev tls12Effects : List Effect := [.io, .receive, .decSeq, .deliver]

theorem handleTls12Record_steps {rec : Record} (htls12 : s.tls.dec.tls12) :
    Via tls12Effects s (handleTls12Record rec env s).2 := by
  refine steps_seq (Respects.relates env s) fun plaintext t hrun => ?_
  have hsteps : Via [.io, .decSeq] s t := Within.steps inferInstance hrun
  have htls12 : t.tls.dec.tls12 := by rwa [Steps.tls12_eq hsteps (by decide)]
  split_ifs
  · refine steps_seq (Steps.mono (appendPlaintext_steps (.inr (.inr htls12))) (by decide)) ?_
    exact fun _ u _ => refl_of _ u
  all_goals exact refl_of _ t

theorem handleInputTls12_steps {input : Bytes} (htls12 : s.tls.dec.tls12) :
    Via tls12Effects s (handleInputTls12 input env s).2 := by
  refine steps_seq (Respects.relates env s) fun rec t hrun => ?_
  have hsteps : Via [.io, .receive] s t := Within.steps inferInstance hrun
  have htls12 : t.tls.dec.tls12 := by rwa [Steps.tls12_eq hsteps (by decide)]
  cases rec with
  | none => exact refl_of _ t
  | some rec =>
    refine steps_seq ?_ fun _ u _ => Respects.relates env u
    exact returnCode_steps (handleTls12Record_steps htls12)

/-! ## Sending -/

instance exitCode_respects (body : Proc Unit) [Respects R body] : Respects R (exitCode body) := by
  unfold exitCode
  infer_instance

instance :
    Does [.io, .transcript, .encrypt, .encSecret, .encClear, .encInstall, .note .derive,
      .note .sent] (updateSendKey requestUpdate) := by
  refine ⟨?_⟩
  unfold updateSendKey
  repeat' first | infer_instance | refine .seq ?_ fun _ => ?_ | split

instance : Does [.keyUpdate] (modifyTls fun tls =>
    if keyUpdateThreshold ≤ tls.enc.seq ∧ tls.keySchedule.isSome then
      { tls with needsKeyUpdate := true }
    else tls) := by
  refine ⟨⟨fun env s => ?_⟩⟩
  by_cases hdue : keyUpdateThreshold ≤ s.tls.enc.seq ∧ s.tls.keySchedule.isSome
  · refine .single ⟨.keyUpdate, List.mem_cons_self, ?_⟩
    simpa [hdue] using .keyUpdate s true s.tls.keyUpdateSendRequest s.tls.keyUpdateRequests
      fun _ => le_rfl
  · simpa [hdue] using refl_of _ s

/-- The effects of the calls that send. -/
abbrev sendEffects : List Effect :=
  [.io, .transcript, .encrypt, .encSecret, .encClear, .encInstall, .keyUpdate, .note .derive,
    .note .sent]

instance : Does sendEffects updateSendKeyIfNeeded :=
  ⟨by unfold updateSendKeyIfNeeded; infer_instance⟩

instance (input : Bytes) : Does sendEffects (ptlsSend input) :=
  ⟨by unfold ptlsSend; infer_instance⟩

instance (requestUpdate : ℤ) : Does [.keyUpdate] (ptlsUpdateKey requestUpdate) :=
  ⟨by unfold ptlsUpdateKey; infer_instance⟩

instance (level description : UInt8) : Does [.io, .encrypt] (ptlsSendAlert level description) :=
  ⟨by unfold ptlsSendAlert; infer_instance⟩

instance : Does [.keyUpdate] ptlsTakeKeyUpdateRequest := by
  refine ⟨⟨fun env s => ?_⟩⟩
  unfold ptlsTakeKeyUpdateRequest
  rw [getTls_bind]
  split_ifs
  · exact refl_of _ s
  · exact .single ⟨.keyUpdate, by simp, .keyUpdate s s.tls.needsKeyUpdate
      s.tls.keyUpdateSendRequest (s.tls.keyUpdateRequests - 1) fun _ => Nat.sub_le _ _⟩

/-! ## Receiving -/

instance : Does [] getConsumed := ⟨by unfold getConsumed; infer_instance⟩

instance : Does [] decryptbufOff := ⟨by unfold decryptbufOff; infer_instance⟩

instance : Does [.io, .encrypt] (sendFailureAlert origOff ret) :=
  ⟨by unfold sendFailureAlert; dsimp only; infer_instance⟩

/-! ## Detached senders -/

/-- The effects on the connection of a call on the detached sender. -/
abbrev txEffects : List Effect :=
  [.io, .tx, .note .derive, .note .installEnc, .note .encrypt, .note .sent]

/-- The connection while a procedure runs on its detached sender. -/
def Session.aside (s : Session) (tls : Tls) : Session := { s with tx := some s.tls, tls := tls }

omit [Crypto] in
/-- Sending steps on the detached sender leave the connection alone. -/
theorem Steps.aside (tls : Tls) (h : Via sendEffects s s') :
    Via txEffects (s.aside tls) (s'.aside tls) := by
  refine h.preserves (P := fun t => Via txEffects (s.aside tls) (t.aside tls))
    (fun e he t t' hstep ht => ht.trans ?_) (refl_of _ _)
  cases hstep with
  | io _ sendbuf consumed epochOffsets report tick =>
    exact .single ⟨.io, by simp, .io _ sendbuf consumed epochOffsets report tick⟩
  | note _ event =>
    refine .single ⟨.note event.kind, ?_, .note _ event⟩
    revert he
    cases event <;> simp [Event.kind]
  | encInstall _ aead seq hash hkey =>
    exact .tail (.single ⟨.tx, by simp, .tx _ _⟩)
      ⟨.note .installEnc, by simp, .note _ (.installEnc t.tls.enc.secret aead)⟩
  | encrypt _ aead plaintext enc =>
    exact .tail (.single ⟨.tx, by simp, .tx _ _⟩)
      ⟨.note .encrypt, by simp, .note _ (.encrypt aead t.tls.enc.nonceCounter plaintext)⟩
  | transcript | encSecret | encClear | keyUpdate =>
    exact .single ⟨.tx, by simp, .tx _ _⟩
  | _ => simp at he

omit [Crypto] in
/-- A call on the detached sender is the call on that object, put back aside afterwards. -/
theorem onTx_run {tx : Tls} {x : Except Fault Code} (htx : s.tx = some tx)
    (hrun : body env { s with tls := tx } = (x, s')) : onTx body env s = (x, s'.aside s.tls) := by
  unfold onTx
  rw [observe_bind, htx]
  simp only [getTls_bind, modifyTls_bind, attempt_bind, hrun]
  cases x <;> rfl

omit [Crypto] in
/-- A call on the detached sender leaves the connection alone. -/
theorem Does.onTx (h : Within sendEffects body) : Does txEffects (onTx body) := by
  refine ⟨⟨fun env s => ?_⟩⟩
  cases htx : s.tx with
  | none =>
    unfold Picotls.onTx
    rw [observe_bind, htx]
    exact refl_of _ s
  | some tx =>
    rcases hrun : body env { s with tls := tx } with ⟨x, s'⟩
    rw [onTx_run htx hrun]
    have haside := Steps.aside s.tls (h.steps hrun)
    rwa [show Session.aside { s with tls := tx } s.tls = s by simp [Session.aside, ← htx]] at haside

instance : Does txEffects (ptlsTxSend input) := Does.onTx inferInstance

/-- The message and the next key of a key update. -/
def sendKeyUpdate (requestUpdate : Bool) : Proc Unit := do
  pushMessage .record false HandshakeType.keyUpdate
    (bufferPushv [if requestUpdate then 1 else 0])
  updateTrafficKey true

/-- A key update that stops with a code takes back its output. -/
theorem updateSendKey_run (requestUpdate : Bool) (env : Environment) (s : Session) :
    updateSendKey requestUpdate env s = match sendKeyUpdate requestUpdate env s with
      | (.ok (), t) => (.ok (), t)
      | (.error (.code code), t) =>
        (.error (.code code), { t with sendbuf := t.sendbuf.take s.sendbuf.length })
      | (.error fault, t) => (.error fault, t) := by
  change (attemptCode (sendKeyUpdate requestUpdate) >>= _) env s = _
  rw [bind_run, attemptCode_run]
  rcases sendKeyUpdate requestUpdate env s with ⟨(code | _ | _) | _, t⟩ <;> rfl

/-- What is taken back does not return. -/
theorem updateSendKey_eq_ok {requestUpdate : Bool} {u : Unit} :
    updateSendKey requestUpdate env s = (.ok u, s') ↔ (do
      pushMessage .record false HandshakeType.keyUpdate
        (bufferPushv [if requestUpdate then 1 else 0])
      updateTrafficKey true : Proc Unit) env s = (.ok u, s') := by
  change _ ↔ sendKeyUpdate requestUpdate env s = (.ok u, s')
  rw [updateSendKey_run]
  rcases sendKeyUpdate requestUpdate env s with ⟨(code | _ | _) | _, t⟩ <;> simp

omit [Crypto] in
theorem vectorsLength_eq (input : List Bytes) : vectorsLength input = input.flatten.length :=
  List.length_flatten.symm

omit [Crypto] in
/-- Vectors that pass the check fit into one record. -/
theorem vectorsFit_length {inlen : ℕ} {input : List Bytes} (hinlen : inlen ≤ maxPlaintextRecordSize)
    (h : vectorsFit inlen input) : inlen + input.flatten.length ≤ maxPlaintextRecordSize := by
  induction input generalizing inlen with
  | nil => simpa using hinlen
  | cons octets rest ih =>
    simp only [vectorsFit, Bool.and_eq_true, decide_eq_true_eq] at h
    have hrest := ih (by omega) h.2
    simp only [List.flatten_cons, List.length_append]
    omega

/-- A TLS 1.2 fragment is the same whether its plaintext is given as vectors or as a whole. -/
theorem sendvTls12Fragment_eq (type : UInt8) (input : List Bytes) :
    sendvTls12Fragment type input = pushTls12Fragment type input.flatten := by
  simp only [sendvTls12Fragment, pushTls12Fragment, AeadContext.encryptVectors_eq, vectorsLength_eq]

/-- A TLS 1.3 fragment is the same whether its plaintext is given as vectors or as a whole. -/
theorem sendvTls13Fragment_eq (type : UInt8) (input : List Bytes) :
    sendvTls13Fragment type input = pushTls13Fragment type input.flatten := by
  funext env s
  have hflatten : (input ++ [[type]]).flatten = input.flatten ++ [type] := by simp
  cases haead : s.tls.enc.aead with
  | none => simp [sendvTls13Fragment, pushTls13Fragment, bind_run, haead, deref]
  | some aead =>
    cases halloc : env.alloc s.tick <;>
      simp [sendvTls13Fragment, pushTls13Fragment, aeadEncrypt, bind_run, haead, deref,
        allocate_run, halloc, modifyProtection, appendReserved, modifySendbuf, vectorsLength_eq,
        hflatten]

/-- An application record is the same whether its plaintext is given as vectors or as a whole. -/
theorem sendvRecord_eq (input : List Bytes) :
    sendvRecord ContentType.appdata input =
      pushEncryptedRecord ContentType.appdata input.flatten := by
  unfold sendvRecord pushEncryptedRecord
  simp only [sendvTls12Fragment_eq, sendvTls13Fragment_eq]

instance : Does [.io, .encrypt] (sendvRecord ContentType.appdata input) := by
  rw [sendvRecord_eq]
  infer_instance

instance (input : List Bytes) : Does txEffects (ptlsTxSendv input) := Does.onTx inferInstance

instance (requestUpdate : ℤ) : Does txEffects (ptlsTxUpdateKey requestUpdate) :=
  Does.onTx inferInstance

instance : Does txEffects (ptlsTxSendAlert level description) :=
  Does.onTx inferInstance

/-- The sender is moved in one step, after its object has been set up. -/
instance : Does [.io, .detach] ptlsDetachTx := by
  refine ⟨@exitCode_respects _ _ _ ⟨fun env s => ?_⟩⟩
  rw [getTls_bind]
  refine steps_quiet [] (by decide) fun _ s₁ hguard htls₁ => ?_
  have hguard := (throwIf_eq_ok.mp hguard).1
  push Not at hguard
  obtain ⟨hattached, -, hpost, haead⟩ := hguard
  -- memory is taken for the object and for the names and the schedule in it
  refine steps_quiet [.io] (by decide) fun _ s₂ _ htls₂ => ?_
  refine steps_quiet [.io] (by decide) fun _ s₃ _ htls₃ => ?_
  refine steps_quiet [.io] (by decide) fun _ s₄ _ htls₄ => ?_
  refine steps_quiet [.io] (by decide) fun keySchedule s₅ _ htls₅ => ?_
  have htls : s₅.tls = s.tls := by rw [htls₅, htls₄, htls₃, htls₂, htls₁]
  rw [← htls] at hattached hpost haead ⊢
  exact .single ⟨.detach, by simp, .detach s₅ _ _ (by simpa using hattached) hpost
    (by simpa [Option.isSome_iff_ne_none] using haead) rfl rfl rfl⟩

end Picotls
