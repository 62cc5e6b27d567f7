import Picotls.Effects.Output
import Picotls.Effects.Input
import Picotls.Sample

/-!
# Sending vectors and sending their concatenation

A detached sender has two calls for application data, with a record writer each. Where both succeed
they produce the same output and leave the sender in the same state. Whether they succeed depends on
the memory that each of them is given, so the two calls are made in two environments.
-/

namespace Picotls

open Foundation Procedure

variable (aead : AeadContext) (octets secret src : Bytes) (code : Code) (labelPrefix : Option Bytes)
    (type : UInt8) (seq : ℕ)

/-- The sessions differ at most in the number of questions asked. -/
def SameUpToTick (s s' : Session) : Prop := { s with tick := s'.tick } = s'

theorem SameUpToTick.refl (s : Session) : SameUpToTick s s := rfl

theorem SameUpToTick.exists_tick {s s' : Session} (h : SameUpToTick s s') :
    ∃ tick, s' = { s with tick := tick } := ⟨s'.tick, h.symm⟩

/-! ## Primitive steps -/

section Primitives

variable {α : Type}

/-- An observation that does not depend on the environment or on the questions asked. -/
theorem Agrees.observe {f : Session → α} (hf : ∀ s tick, f { s with tick := tick } = f s) :
    Agrees SameUpToTick (Procedure.observe fun _ s => f s : Proc α)
      (Procedure.observe fun _ s => f s) where
  agree hs h h' := by
    obtain ⟨tick, rfl⟩ := hs.exists_tick
    cases h
    cases h'
    exact ⟨(hf _ tick).symm, rfl⟩

/-- An update that does not depend on the environment or on the questions asked. -/
theorem Agrees.update {f : Session → Session}
    (hf : ∀ s tick, f { s with tick := tick } = { f s with tick := tick }) :
    Agrees SameUpToTick (Procedure.update fun _ s => f s : Proc Unit)
      (Procedure.update fun _ s => f s) where
  agree {_ _ s _ _ _ _ _} hs h h' := by
    obtain ⟨tick, rfl⟩ := hs.exists_tick
    cases h
    cases h'
    have hsame : SameUpToTick (f s) (f { s with tick := tick }) := by
      rw [hf s tick]
      rfl
    exact ⟨rfl, hsame⟩

instance : Agrees SameUpToTick getTls getTls := Agrees.observe fun _ _ => rfl

instance : Agrees SameUpToTick (modifyTls f) (modifyTls f) :=
  Agrees.update fun _ _ => rfl

instance : Agrees SameUpToTick (emitEvent event) (emitEvent event) :=
  Agrees.update fun _ _ => rfl

instance : Agrees SameUpToTick sendbufOff sendbufOff := Agrees.observe fun _ _ => rfl

instance : Agrees SameUpToTick getSendbuf getSendbuf := Agrees.observe fun _ _ => rfl

instance : Agrees SameUpToTick (modifySendbuf f) (modifySendbuf f) :=
  Agrees.update fun _ _ => rfl

instance : Agrees SameUpToTick (appendReserved octets) (appendReserved octets) := by
  unfold appendReserved; infer_instance

instance : Agrees SameUpToTick allocate allocate where
  agree hs h h' := by
    obtain ⟨tick, rfl⟩ := hs.exists_tick
    obtain ⟨-, rfl⟩ := allocate_eq_ok.mp h
    obtain ⟨-, rfl⟩ := allocate_eq_ok.mp h'
    exact ⟨rfl, rfl⟩

instance (m : Proc α) : Agrees SameUpToTick (throwCode code) m := by
  unfold throwCode; infer_instance

instance (c : Prop) [Decidable c] :
    Agrees SameUpToTick (throwIf c code) (throwIf c code) := by unfold throwIf; infer_instance

instance (c : Prop) [Decidable c] (step : Proc Unit) [Agrees SameUpToTick step step] :
    Agrees SameUpToTick (runIf c step) (runIf c step) := by unfold runIf; infer_instance

instance : Agrees SameUpToTick (assert c) (assert c) := by unfold assert; infer_instance

instance (o : Option α) : Agrees SameUpToTick (deref o) (deref o) := by
  cases o <;> (unfold deref; infer_instance)

end Primitives

/-! ## Sending -/

section Sending

variable {α : Type}

instance : Agrees SameUpToTick (bufferPushv octets) (bufferPushv octets) := by
  unfold bufferPushv; infer_instance

instance (block : Proc α) [Agrees SameUpToTick block block] :
    Agrees SameUpToTick (bufferPushBlock capacity block) (bufferPushBlock capacity block) := by
  unfold bufferPushBlock; dsimp only; infer_instance

instance (block : Proc Unit) [Agrees SameUpToTick block block] :
    Agrees SameUpToTick (bufferPushRecord type block) (bufferPushRecord type block) := by
  unfold bufferPushRecord; infer_instance

instance : Agrees SameUpToTick getKeySchedule getKeySchedule := by
  unfold getKeySchedule; infer_instance

instance : Agrees SameUpToTick firstHash firstHash := by unfold firstHash; infer_instance

instance : Agrees SameUpToTick (modifyProtection isEnc f) (modifyProtection isEnc f) := by
  unfold modifyProtection; infer_instance

variable [Crypto]

instance :
    Agrees SameUpToTick (hkdfExpandLabel algo outlen secret label context labelPrefix)
      (hkdfExpandLabel algo outlen secret label context labelPrefix) := by
  unfold hkdfExpandLabel; dsimp only; infer_instance

instance (aead : AeadAlgorithm) (hash : HashAlgorithm) :
    Agrees SameUpToTick (aeadNew aead hash secret labelPrefix)
      (aeadNew aead hash secret labelPrefix) := by
  unfold aeadNew; infer_instance

instance : Agrees SameUpToTick (installKey true aead seq) (installKey true aead seq) := by
  unfold installKey; infer_instance

/-- A failed derivation of the key does not return. -/
theorem renewTrafficKey_eq_ok {seq : ℕ} {env : Environment} {s s' : Session} {u : Unit} :
    renewTrafficKey true seq env s = (.ok u, s') ↔ (do
      let tls ← getTls
      let suite ← deref tls.cipherSuite
      modifyProtection true fun tp => { tp with aead := none }
      let aead ← aeadNew suite.aead suite.hash tls.enc.secret tls.ctx.hkdfLabelPrefixObsolete
      installKey true aead seq : Proc Unit) env s = (.ok u, s') := by
  simp only [renewTrafficKey, getTls_bind]
  cases hsuite : s.tls.cipherSuite with
  | none => exact Iff.rfl
  | some suite =>
    simp only [deref_some_bind, modifyProtection_bind, attempt_bind, Tls.protection, if_true]
    rw [bind_run]
    rcases aeadNew suite.aead suite.hash s.tls.enc.secret s.tls.ctx.hkdfLabelPrefixObsolete env
      { s with tls := { s.tls with enc := { s.tls.enc with aead := none } } } with ⟨_ | aead, t⟩
    · simp
    · exact Iff.rfl

instance : Agrees SameUpToTick (renewTrafficKey true seq) (renewTrafficKey true seq) where
  agree hs h h' :=
    Agrees.agree hs (renewTrafficKey_eq_ok.mp h) (renewTrafficKey_eq_ok.mp h')

/-- A key update notifies nobody, so it asks only for memory. -/
instance :
    Agrees SameUpToTick (setupTrafficProtection true none epoch seq true)
    (setupTrafficProtection true none epoch seq true) := by
  unfold setupTrafficProtection runIf whenSome
  simp only [Bool.not_true, Bool.false_eq_true, if_false, noteKeyChange_true]
  infer_instance

instance : Agrees SameUpToTick (updateTrafficKey true) (updateTrafficKey true) := by
  unfold updateTrafficKey Tls.protection; infer_instance

instance : Agrees SameUpToTick (aeadEncrypt input contentType) (aeadEncrypt input contentType) := by
  unfold aeadEncrypt; dsimp only; infer_instance

instance : Agrees SameUpToTick (takeTls12Nonce aead tp) (takeTls12Nonce aead tp) := by
  unfold takeTls12Nonce; infer_instance

instance : Agrees SameUpToTick (pushEncryptedRecord type src) (pushEncryptedRecord type src) := by
  unfold pushEncryptedRecord pushTls12Fragment pushTls13Fragment; infer_instance

instance :
    Agrees SameUpToTick (pushEncryptedRecordsLoop type fuel src)
      (pushEncryptedRecordsLoop type fuel src) := by
  induction fuel generalizing src with
  | zero => unfold pushEncryptedRecordsLoop; infer_instance
  | succ fuel ih => unfold pushEncryptedRecordsLoop; infer_instance

instance :
    Agrees SameUpToTick (bufferPushEncryptedRecords type src)
      (bufferPushEncryptedRecords type src) := by
  unfold bufferPushEncryptedRecords; infer_instance

instance : Agrees SameUpToTick (bufferEncryptRecord recStart) (bufferEncryptRecord recStart) := by
  unfold bufferEncryptRecord; dsimp only; infer_instance

instance : Agrees SameUpToTick (commitMessage .record start) (commitMessage .record start) := by
  unfold commitMessage; dsimp only; infer_instance

/-- Writing a KeyUpdate. -/
instance :
    Agrees SameUpToTick (pushMessage .record false HandshakeType.keyUpdate (bufferPushv octets))
      (pushMessage .record false HandshakeType.keyUpdate (bufferPushv octets)) := by
  unfold pushMessage writeMessage beginMessage bufferPushMessageBody bufferPushMessage
  simp only [runIf, Bool.false_eq_true, if_false]
  infer_instance

instance : Agrees SameUpToTick (updateSendKey requestUpdate) (updateSendKey requestUpdate) where
  agree hs h h' := Agrees.agree hs (updateSendKey_eq_ok.mp h) (updateSendKey_eq_ok.mp h')

instance : Agrees SameUpToTick updateSendKeyIfNeeded updateSendKeyIfNeeded := by
  unfold updateSendKeyIfNeeded; infer_instance

end Sending

/-! ## The two calls -/

section Calls

variable [Crypto] {env env' : Environment} {s s' : Session}

/-- Sending vectors, seen as sending their concatenation. -/
theorem sendv_body {input : List Bytes} {u : Unit} (h : (do
      throwIf (!vectorsFit 0 input) Error.library
      let tls ← getTls
      assert tls.enc.aead.isSome
      updateSendKeyIfNeeded
      runIf (vectorsLength input ≠ 0) (sendvRecord ContentType.appdata input) : Proc Unit) env s =
        (.ok u, s')) : (do
      updateSendKeyIfNeeded
      bufferPushEncryptedRecords ContentType.appdata input.flatten : Proc Unit) env s =
        (.ok u, s') := by
  simp only [bind_eq_ok (m := throwIf _ _), throwIf_eq_ok] at h
  obtain ⟨_, _, ⟨hfit, rfl⟩, h⟩ := h
  have hlength := vectorsFit_length (Nat.zero_le _) (by simpa using hfit)
  rw [getTls_bind] at h
  simp only [bind_eq_ok (m := assert _), assert_eq_ok] at h
  obtain ⟨_, _, ⟨-, rfl⟩, h⟩ := h
  obtain ⟨_, t, hupdate, hsend⟩ := bind_eq_ok.mp h
  rw [bind_of_ok hupdate]
  by_cases hnil : input.flatten = []
  · simpa [runIf, vectorsLength_eq, hnil, bufferPushEncryptedRecords, pushEncryptedRecordsLoop]
      using hsend
  · have hne : vectorsLength input ≠ 0 := by
      rw [vectorsLength_eq]
      exact fun hzero => hnil (List.length_eq_zero_iff.mp hzero)
    rw [runIf, if_pos hne, sendvRecord_eq] at hsend
    rwa [bufferPushEncryptedRecords_single _ hnil (by omega)]

instance {F : Environment → Fault → Prop} [AllowsRefusals F] :
    FailsWith F (sendvRecord ContentType.appdata input) := by
  rw [sendvRecord_eq]
  infer_instance

omit [Crypto] in
/-- A call on the detached sender that succeeds is one on that object. -/
theorem onTx_exitCode_eq_zero {env : Environment} {s s' : Session} {body : Proc Unit}
    [FailsWith (fun _ fault => fault ≠ .code 0) body]
    (h : onTx (exitCode body) env s = (.ok 0, s')) :
    ∃ tx t, s.tx = some tx ∧ body env { s with tls := tx } = (.ok (), t) ∧ s' = t.aside s.tls := by
  rcases Option.eq_none_or_eq_some s.tx with htx | ⟨tx, htx⟩
  · rw [onTx, observe_bind, htx] at h
    cases h
  · rcases hrun : exitCode body env { s with tls := tx } with ⟨x, t⟩
    rw [onTx_run htx hrun] at h
    cases h
    exact ⟨tx, t, htx, exitCode_eq_zero hrun, rfl⟩

/-- If a detached sender succeeds in sending vectors, and in sending their concatenation from the
same state, then the output is the same, and so is all of the sender's state: its secret, its key
and sequence number, the counter of explicit nonces, and what is pending of key updates. -/
theorem ptlsTxSendv_eq_ptlsTxSend (env env' : Environment) (s : Session) (input : List Bytes)
    {sent sentv : Session} (hsend : ptlsTxSend input.flatten env s = (.ok 0, sent))
    (hsendv : ptlsTxSendv input env' s = (.ok 0, sentv)) :
    sentv.sendbuf = sent.sendbuf ∧ sentv.tx = sent.tx := by
  obtain ⟨tx, t, htx, hbody, rfl⟩ := onTx_exitCode_eq_zero hsend
  obtain ⟨tx', t', htx', hbody', rfl⟩ := onTx_exitCode_eq_zero hsendv
  obtain rfl : tx = tx' := Option.some.inj (htx.symm.trans htx')
  have hsendv := sendv_body hbody'
  rw [getTls_bind] at hbody
  obtain ⟨_, _, hguard, hbody⟩ := bind_eq_ok.mp hbody
  obtain ⟨-, rfl⟩ := throwIf_eq_ok.mp hguard
  obtain ⟨_, _, hassert, hsend⟩ := bind_eq_ok.mp hbody
  obtain ⟨-, rfl⟩ := assert_eq_ok.mp hassert
  obtain ⟨-, hsame⟩ := Agrees.agree (SameUpToTick.refl _) hsend hsendv
  obtain ⟨tick, rfl⟩ := hsame.exists_tick
  exact ⟨rfl, rfl⟩

end Calls

open Sample

/-- The two calls succeed, with empty vectors among the others. -/
theorem ptlsTxSendv_eq_ptlsTxSend_sample :
    let sent := @ptlsTxSend crypto [1, 2, 3] environment detachedSession
    let sentv := @ptlsTxSendv crypto [[], [1], [], [2, 3]] environment
      detachedSession
    sent.1 = .ok 0 ∧ sentv.1 = .ok 0 ∧ sentv.2.sendbuf = sent.2.sendbuf ∧
      sentv.2.tx = sent.2.tx := by
  refine ⟨by decide +kernel, by decide +kernel, ?_⟩
  exact @ptlsTxSendv_eq_ptlsTxSend crypto environment environment
    detachedSession [[], [1], [], [2, 3]] _ _ (Prod.ext (by decide +kernel) rfl)
    (Prod.ext (by decide +kernel) rfl)

end Picotls
