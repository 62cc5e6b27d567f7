import Picotls.Effects.KeyChange

/-!
# Invariants of runs

An invariant of a run depends on whether the handshake may still be continued: a handshake call
that fails may leave the connection in a state from which the handshake must not go on, although
other calls may follow. To show that something is invariant it is enough to consider the steps
around the handlers of handshake messages, the handlers, and the calls that send.
-/

namespace Picotls

open Foundation Procedure

variable [Crypto]

variable {isEndOfRecord : Bool} {input message : Bytes} {f : Code → Proc Code} {emitter : Emitter}
  {env : Environment} {properties : Option HandshakeProperties} {m : Proc Code} {rec : Record}
  {s : Session}

/-- The effects of the steps around the handlers of handshake messages. -/
abbrev inputEffects : List Effect :=
  [.io, .receive, .decSeq, .encrypt, .skip, .deliver, .handled]

/-- The states in which input is also taken outside of handshake calls. -/
def State.IsLate (state : State) : Prop := State.rank .serverExpectEndOfEarlyData ≤ state.rank

instance (state : State) : Decidable state.IsLate := inferInstanceAs (Decidable (_ ≤ _))

/-- The outcome of a call, which may return the code as a value, lets the handshake go on. -/
def CodeContinues : Except Fault Code → Prop
  | .ok code => continues code
  | .error fault => fault.Continues

/-- A call that is neither a handshake call nor one that receives. -/
def Operation.IsSending : Operation → Prop
  | .handshake .. | .receive _ => False
  | _ => True

/-- The effects of the calls that send. -/
abbrev sendingEffects : List Effect :=
  [.io, .transcript, .encSecret, .encClear, .encInstall, .encrypt, .keyUpdate, .deliver, .detach,
    .tx, .note .derive, .note .sent, .note .installEnc, .note .encrypt]

/-- The calls that send consist of steps outside of the handshake. -/
theorem perform_within (operation : Operation) (hsending : operation.IsSending) :
    Within sendingEffects (perform operation) := by
  cases operation with
  | handshake | receive => exact hsending.elim
  | supplyBuffers sendbuf decryptbuf =>
    have hbuffers : Does [.io, .deliver] (Procedure.update fun _ s =>
        { s with sendbuf := sendbuf, decryptbuf := decryptbuf } : Proc Unit) :=
      ⟨⟨fun _ s => .tail
        (.single ⟨.io, by simp, .io s sendbuf s.consumed s.epochOffsets s.report s.tick⟩)
        ⟨.deliver, by simp, .plaintext _ decryptbuf⟩⟩⟩
    unfold perform
    infer_instance
  | _ => unfold perform; infer_instance

/-! ## Messages in late states -/

/-- The effects of the handlers in late states. -/
abbrev lateEffects : List Effect :=
  [.io, .transcript, .dec, .keyUpdate, .earlyData, .refuse, .state .serverExpectFinished,
    .state .serverPostHandshake, .note .received, .note .derive, .note .finishedMac,
    .note .saveTicket, .note .absorb, .note .authenticate]

/-- On the server, the pending handshake secret protects received records. -/
theorem commissionHandshakeSecret_server (hserver : s.tls.isServer) :
    commissionHandshakeSecret env s = installHandshakeSecret false env s := by
  simp [commissionHandshakeSecret, getTls_bind, hserver]

theorem handleServerHandshakeMessage_late (hserver : s.tls.isServer) (hlate : s.tls.state.IsLate) :
    Via lateEffects s
      (handleServerHandshakeMessage emitter message isEndOfRecord properties env s).2 := by
  unfold handleServerHandshakeMessage
  rw [getTls_bind]
  refine steps_quiet [] (by decide) fun type s₁ _ htls => ?_
  rw [← htls] at hserver hlate ⊢
  cases hstate : s₁.tls.state with
  | serverExpectEndOfEarlyData =>
    refine steps_quiet [] (by decide) fun _ s₂ _ htls₂ => ?_
    split_ifs
    · refine steps_seq ?_ fun _ s₃ _ => Respects.relates env s₃
      rw [commissionHandshakeSecret_server (by rwa [htls₂])]
      exact Respects.relates env s₂
    · exact Respects.relates env s₂
  | serverExpectFinished | serverPostHandshake => exact Respects.relates env s₁
  | clientPostHandshake => exact refl_of _ s₁
  | _ => rw [hstate] at hlate; exact absurd hlate (by decide)

theorem handleClientHandshakeMessage_late (hlate : s.tls.state.IsLate) :
    Via [.io, .dec, .keyUpdate, .refuse, .note .derive, .note .saveTicket] s
      (handleClientHandshakeMessage emitter message isEndOfRecord properties env s).2 := by
  unfold handleClientHandshakeMessage
  rw [getTls_bind]
  refine steps_quiet [] (by decide) fun type s₁ _ htls => ?_
  rw [← htls] at hlate ⊢
  cases hstate : s₁.tls.state with
  | clientPostHandshake => exact Respects.relates env s₁
  | serverExpectEndOfEarlyData | serverExpectFinished | serverPostHandshake => exact refl_of _ s₁
  | _ => rw [hstate] at hlate; exact absurd hlate (by decide)

theorem handleHandshakeMessage_late (env : Environment) (emitter : Emitter) (message : Bytes)
    (isEndOfRecord : Bool) (properties : Option HandshakeProperties) (hlate : s.tls.state.IsLate) :
    Via lateEffects s
      (handleHandshakeMessage emitter message isEndOfRecord properties env s).2 := by
  unfold handleHandshakeMessage
  rw [emitEvent_bind, getTls_bind]
  refine .trans (.single ⟨.note .received, by simp, .note s (.received message)⟩) ?_
  split_ifs with hserver
  · exact handleServerHandshakeMessage_late hserver hlate
  · refine Steps.mono (handleClientHandshakeMessage_late ?_) (by decide)
    exact hlate

omit [Crypto] in
/-- Steps that enter only late states lead from late states to late states. -/
theorem Steps.late {E : List Effect} {s' : Session} (h : Via E s s')
    (hE : ∀ state, .state state ∈ E → state.IsLate) (hlate : s.tls.state.IsLate) :
    s'.tls.state.IsLate :=
  Steps.state_inv h hE hlate

section Rule

variable (Inv : Bool → Session → Prop)

/-- What a step of the handshake leaves behind: the weaker invariant in any case, the stronger one
if the handshake may go on. -/
def Settled {α : Type} (outcome : Except Fault α × Session) : Prop :=
  Inv false outcome.2 ∧ (Continues outcome.1 → Inv true outcome.2)

/-- What a call leaves behind. -/
def CodeSettled (outcome : Except Fault Code × Session) : Prop :=
  Inv false outcome.2 ∧ (CodeContinues outcome.1 → Inv true outcome.2)

/-- The conditions under which input keeps an invariant. -/
structure IsInputInvariant (env : Environment) : Prop where
  weaken : ∀ s, Inv true s → Inv false s
  input : ∀ live s s', Via inputEffects s s' → Inv live s → Inv live s'
  message : ∀ properties message isEndOfRecord s, Inv true s →
    Settled Inv (handleHandshakeMessage .record message isEndOfRecord properties env s)

/-- The conditions under which every call keeps an invariant. -/
structure IsInvariant (env : Environment) : Prop extends IsInputInvariant Inv env where
  start : ∀ properties s, Inv true s → s.tls.state = .clientHandshakeStart →
    Settled Inv (sendClientHello .record properties none env s)
  resume : ∀ s, Inv true s → s.tls.state = .serverGeneratingCertificateVerify →
    Settled Inv (serverFinishHandshake .record true none env s)
  lateMessage : ∀ live properties message isEndOfRecord s, Inv live s → s.tls.state.IsLate →
    Inv live (handleHandshakeMessage .record message isEndOfRecord properties env s).2
  sending : ∀ live operation s, operation.IsSending → Inv live s →
    Inv live (perform operation env s).2

omit Inv in
/-- What every step keeps is invariant. That a message was handled is noted only where it is
true. -/
theorem IsInvariant.of_step {P : Session → Prop}
    (hstep : ∀ e s s', e ≠ .note .handled → Effect.Step e s s' → P s → P s') (env : Environment) :
    IsInvariant (fun _ => P) env := by
  have hsteps {E : List Effect} (hE : .note .handled ∉ E) {s s' : Session}
      (h : Via E s s') (hs : P s) : P s' :=
    h.preserves (fun e he t t' => hstep e t t' (fun heq => hE (heq ▸ he))) hs
  have hsettled {α : Type} {m : Proc α} {E : List Effect} (h : Within E m)
      (hE : .note .handled ∉ E) {s : Session} (hs : P s) : Settled (fun _ => P) (m env s) :=
    ⟨hsteps hE (h.relates env s) hs, fun _ => hsteps hE (h.relates env s) hs⟩
  have hmessage {message : Bytes} {isEndOfRecord : Bool}
      {properties : Option HandshakeProperties} {s : Session} (hs : P s) :
      Settled (fun _ => P)
        (handleHandshakeMessage .record message isEndOfRecord properties env s) :=
    hsettled (inferInstance : Within (.note .received :: handlerEffects) _) (by decide) hs
  exact {
    weaken := fun _ => id
    input := fun _ _ _ => hsteps (by decide)
    message := fun _ _ _ _ => hmessage
    start := fun _ _ hs _ => hsettled Performs.steps (by decide) hs
    resume := fun _ hs _ => hsettled Performs.steps (by decide) hs
    lateMessage := fun _ _ _ _ _ hs _ => (hmessage hs).1
    sending := fun _ operation s hsending =>
      hsteps (by decide) ((perform_within operation hsending).relates env s) }

variable {Inv} {α β : Type}

omit [Crypto] in
theorem Settled.and {Q : Session → Prop} {outcome : Except Fault α × Session}
    (h : Settled Inv outcome) (hq : Q outcome.2) :
    Settled (fun live s => Inv live s ∧ Q s) outcome :=
  ⟨⟨h.1, hq⟩, fun hcont => ⟨h.2 hcont, hq⟩⟩

omit [Crypto] in
theorem Settled.bind {m : Proc α} {f : α → Proc β} (hm : Settled Inv (m env s))
    (hf : ∀ a s', m env s = (.ok a, s') → Inv true s' → Settled Inv (f a env s')) :
    Settled Inv ((m >>= f) env s) := by
  refine bind_cases (fun e s' hrun => ?_) fun a s' hrun => ?_
  · rw [hrun] at hm
    exact hm
  · rw [hrun] at hm
    exact hf a s' hrun (hm.2 trivial)

omit [Crypto] in
theorem Settled.bind_code {m : Proc α} {f : α → Proc Code} (hm : Settled Inv (m env s))
    (hf : ∀ a s', m env s = (.ok a, s') → Inv true s' → CodeSettled Inv (f a env s')) :
    CodeSettled Inv ((m >>= f) env s) := by
  refine bind_cases (fun e s' hrun => ?_) fun a s' hrun => ?_
  · rw [hrun] at hm
    exact hm
  · rw [hrun] at hm
    exact hf a s' hrun (hm.2 trivial)

omit [Crypto] in
theorem Settled.codeSettled (hm : Settled Inv (m env s)) : CodeSettled Inv (m env s) := by
  refine ⟨hm.1, fun hcont => hm.2 ?_⟩
  revert hcont
  rcases (m env s).1 with fault | code
  · exact id
  · exact fun _ => trivial

omit [Crypto] in
theorem CodeSettled.bind (hm : CodeSettled Inv (m env s))
    (hf : ∀ code s', Inv false s' → (continues code → Inv true s') →
      CodeSettled Inv (f code env s')) : CodeSettled Inv ((m >>= f) env s) := by
  refine bind_cases (fun e s' hrun => ?_) fun code s' hrun => ?_
  · rw [hrun] at hm
    exact hm
  · rw [hrun] at hm
    exact hf code s' hm.1 hm.2

omit [Crypto] in
/-- A code that a procedure stops with counts like one that it returns. -/
theorem CodeSettled.returnCode {body : Proc Code} (hbody : CodeSettled Inv (body env s)) :
    CodeSettled Inv (returnCode body env s) := by
  unfold Picotls.returnCode attemptCode
  rw [bind_run, attempt_bind]
  rcases hrun : body env s with ⟨(code | _ | _) | code, s'⟩ <;> (rw [hrun] at hbody; exact hbody)

namespace IsInputInvariant

variable (h : IsInputInvariant Inv env)

include h

/-- A step around the handlers settles an invariant. -/
theorem settled_of_within {m : Proc α} [hm : Within inputEffects m] (hs : Inv true s) :
    Settled Inv (m env s) := by
  have hsteps := hm.relates env s
  exact ⟨h.input false _ _ hsteps (h.weaken s hs), fun _ => h.input true _ _ hsteps hs⟩

theorem codeSettled_of_steps (hsteps : Via inputEffects s (m env s).2)
    (hs : Inv true s) : CodeSettled Inv (m env s) :=
  ⟨h.input false _ _ hsteps (h.weaken s hs), fun _ => h.input true _ _ hsteps hs⟩

theorem codeSettled_of_within [hm : Within inputEffects m] (hs : Inv true s) :
    CodeSettled Inv (m env s) :=
  h.codeSettled_of_steps (hm.relates env s) hs

/-- What a call leaves behind is still there after steps around the handlers that return a code
only if the call did. -/
theorem codeSettled_bind_within [hf : ∀ code, Within inputEffects (f code)]
    (hm : CodeSettled Inv (m env s))
    (hcode : ∀ code s', CodeContinues (f code env s').1 → continues code) :
    CodeSettled Inv ((m >>= f) env s) := by
  refine bind_cases (fun e s' hrun => ?_) fun code s' hrun => ?_
  · rw [hrun] at hm
    exact hm
  · rw [hrun] at hm
    have hsteps := (hf code).relates env s'
    exact ⟨h.input false _ _ hsteps hm.1, fun hcont =>
      h.input true _ _ hsteps (hm.2 (hcode code s' hcont))⟩

/-! ### Handshake records -/

theorem handleRecordMessage_settled (hs : Inv true s) :
    Settled Inv
      (handleRecordMessage handleHandshakeMessage .record message isEndOfRecord properties
        env s) := by
  have hret : CodeSettled Inv (returnCode (do
      let progress ← handleHandshakeMessage .record message isEndOfRecord properties
      return progress.code) env s) := by
    refine CodeSettled.returnCode (Settled.bind_code (h.message properties message _ s hs) ?_)
    intro progress s' _ hs'
    exact ⟨h.weaken s' hs', fun _ => hs'⟩
  unfold handleRecordMessage
  refine bind_cases (fun e s' hrun => ?_) fun ret s' hrun => ?_
  · rw [hrun] at hret
    exact hret
  · rw [hrun] at hret
    by_cases halive : ret = 0 ∨ ret = Error.asyncOperation ∨ ret = Error.inProgress
    · rw [if_pos halive]
      have hs' : Inv true s' := hret.2 (by
        rcases halive with rfl | rfl | rfl <;> rfl)
      exact ⟨hret.1, fun _ => hs'⟩
    · rw [if_neg halive, modifyTls_bind]
      refine ⟨h.input false _ _ (.single ⟨.receive, by simp, .receive s' _ none⟩) hret.1, ?_⟩
      intro hcont
      refine absurd hcont ?_
      simpa [Continues, Fault.Continues, continues, not_or, and_comm, and_assoc] using halive

theorem handleMessages_settled (fuel : ℕ) (ret : Code) (src : Bytes) (hs : Inv true s) :
    Settled Inv (handleMessages handleHandshakeMessage .record properties fuel ret src env s) := by
  induction fuel generalizing ret src s with
  | zero => exact h.settled_of_within (m := pure (ret, src)) hs
  | succ fuel ih =>
    unfold handleMessages
    cases completeMessageLength src with
    | none => exact h.settled_of_within (m := pure (ret, src)) hs
    | some messLen =>
      dsimp only
      rw [receiveKeyChanges, observe_bind]
      refine (h.handleRecordMessage_settled hs).bind fun ret t hrun ht => ?_
      rw [observe_bind, emitEvent_bind]
      refine ih ret _ (h.input true _ _ (.single ⟨.handled, by simp, ?_⟩) ht)
      obtain ⟨x, hhandle, hcont⟩ := handleRecordMessage_eq_ok hrun
      refine handled_step (fun hend => ?_) hhandle hcont
      exact List.drop_eq_nil_of_le (of_decide_eq_true hend).le

theorem handleHandshakeRecord_settled (hs : Inv true s) :
    Settled Inv (handleHandshakeRecord handleHandshakeMessage .record rec properties env s) := by
  refine (h.settled_of_within hs).bind fun _ s₁ _ hs₁ => ?_
  refine (h.settled_of_within hs₁).bind fun src s₂ _ hs₂ => ?_
  refine (h.handleMessages_settled _ _ _ hs₂).bind fun ⟨ret, rest⟩ s₃ _ hs₃ => ?_
  exact h.settled_of_within hs₃

/-! ### Records -/

theorem handleCleartextRecord_settled (hs : Inv true s) :
    CodeSettled Inv (handleCleartextRecord .record rec properties env s) := by
  unfold handleCleartextRecord
  rw [getTls_bind]
  refine h.codeSettled_bind_within (CodeSettled.returnCode ?_) fun code s' hcode => hcode
  split
  · exact (h.handleHandshakeRecord_settled hs).codeSettled
  · exact h.codeSettled_of_within hs

theorem handleEncryptedRecord_settled (hlength : rec.fragment.length ≤ maxEncryptedRecordSize)
    (hs : Inv true s) : CodeSettled Inv (handleEncryptedRecord .record rec properties env s) := by
  unfold handleEncryptedRecord
  refine (h.settled_of_within hs).bind_code fun _ s₁ _ hs₁ => ?_
  refine (h.settled_of_within hs₁).bind_code fun _ s₂ _ hs₂ => ?_
  refine (h.settled_of_within hs₂).bind_code fun result s₃ _ hs₃ => ?_
  cases result with
  | error code =>
    dsimp only
    rw [getTls_bind]
    split_ifs with hskips
    · exact h.codeSettled_of_steps (Steps.mono (serverSkipEarlyData_steps hlength hskips)
        (by decide)) hs₃
    · exact h.codeSettled_of_within hs₃
  | ok plaintext =>
    dsimp only
    cases innerRecord plaintext with
    | none => exact h.codeSettled_of_within (m := throwCode Alert.unexpectedMessage) hs₃
    | some inner => exact h.handleCleartextRecord_settled hs₃

theorem handleRecord_settled (hlength : rec.fragment.length ≤ maxEncryptedRecordSize)
    (hs : Inv true s) : CodeSettled Inv (handleRecord .record rec properties env s) := by
  unfold handleRecord
  rw [getTls_bind]
  split_ifs with _ _ hskips
  · exact h.codeSettled_of_within hs
  · exact h.handleEncryptedRecord_settled hlength hs
  · exact h.codeSettled_of_steps (Steps.mono (serverSkipEarlyData_steps hlength hskips.2)
      (by decide)) hs
  · exact h.handleCleartextRecord_settled hs

theorem handleInput_settled (hs : Inv true s) :
    CodeSettled Inv (handleInput .record input properties env s) := by
  refine (h.settled_of_within hs).bind_code fun rec s₁ hparse hs₁ => ?_
  cases rec with
  | none => exact h.codeSettled_of_within (m := pure Error.inProgress) hs₁
  | some rec => exact h.handleRecord_settled (parseRecord_length hparse) hs₁

/-! ### Handshake calls -/

/-- Steps around the handlers after a failure. -/
theorem codeSettled_of_not_continues [hm : Within inputEffects m] (hs : Inv false s)
    (hcode : ¬ CodeContinues (m env s).1) : CodeSettled Inv (m env s) :=
  ⟨h.input false _ _ (hm.relates env s) hs, fun hcont => absurd hcont hcode⟩

theorem handshakeLoop_settled {origOff : ℕ} (fuel : ℕ) (taken : ℕ) (src : Bytes) (hs : Inv true s) :
    CodeSettled Inv (handshakeLoop properties origOff fuel taken src env s) := by
  induction fuel generalizing taken src s with
  | zero => exact h.codeSettled_of_within (m := do setConsumed taken; return Error.inProgress) hs
  | succ fuel ih =>
    unfold handshakeLoop
    split_ifs
    · exact h.codeSettled_of_within hs
    refine CodeSettled.bind (CodeSettled.returnCode (h.handleInput_settled hs)) ?_
    intro ret s₁ hs₁ hlive
    by_cases hret : continues ret
    · refine (h.settled_of_within (hlive hret)).bind_code fun consumed s₂ _ hs₂ => ?_
      refine (h.settled_of_within hs₂).bind_code fun off s₃ _ hs₃ => ?_
      refine (h.settled_of_within hs₃).bind_code fun _ s₄ _ hs₄ => ?_
      split_ifs
      · exact ih _ _ hs₄
      · exact h.codeSettled_of_within hs₄
    · have hne : ret ≠ Error.inProgress := by rintro rfl; exact hret rfl
      simp only [if_neg hne]
      refine h.codeSettled_of_not_continues hs₁ ?_
      by_cases hoff : s₁.decryptbuf.length = origOff <;>
        simp [bind_run, getConsumed, decryptbufOff, assert, hoff, setConsumed, CodeContinues,
          Fault.Continues, hret]

theorem receiveLoop_inv (origOff fuel taken : ℕ) (src : Bytes) (hs : Inv true s) :
    Inv false (receiveLoop origOff fuel taken src env s).2 := by
  induction fuel generalizing taken src s with
  | zero => exact (h.settled_of_within (m := do setConsumed taken; return 0) hs).1
  | succ fuel ih =>
    unfold receiveLoop
    split_ifs
    · exact (h.settled_of_within hs).1
    have hret : CodeSettled Inv (returnCode (if s.tls.dec.tls12 then handleInputTls12 src
        else handleInput .record src none) env s) := by
      refine CodeSettled.returnCode ?_
      split_ifs with htls12
      · exact h.codeSettled_of_steps (Steps.mono (handleInputTls12_steps htls12) (by decide)) hs
      · exact h.handleInput_settled hs
    rw [getTls_bind]
    refine bind_cases (Q := fun p => Inv false p.2) (fun fault s₁ hrun => ?_)
      fun ret s₁ hrun => ?_ <;>
      rw [hrun] at hret
    · exact hret.1
    · rw [getConsumed, observe_bind, decryptbufOff, observe_bind]
      split_ifs with hgo
      · refine ih _ _ (hret.2 ?_)
        rcases hgo.1 with rfl | rfl <;> rfl
      all_goals exact h.input false _ _ (Respects.relates env s₁) hret.1

end IsInputInvariant

namespace IsInvariant

variable (h : IsInvariant Inv env)

include h

theorem ptlsHandshake_settled (hs : Inv true s) :
    CodeSettled Inv (ptlsHandshake properties input env s) := by
  unfold ptlsHandshake
  rw [getTls_bind]
  refine (h.settled_of_within hs).bind_code fun _ s₁ hrun hs₁ => ?_
  obtain rfl := (assert_eq_ok.mp hrun).2
  refine (h.settled_of_within hs).bind_code fun origOff s₂ hrun hs₂ => ?_
  obtain rfl : s₁ = s₂ := by cases hrun; rfl
  have hinput : CodeSettled Inv ((do
      let off ← decryptbufOff
      let ret ← handshakeLoop properties off (input.length + 1) 0 input
      runIf (ret ∉ [0, Error.inProgress, Error.statelessRetry, Error.asyncOperation])
        (sendFailureAlert origOff ret)
      return ret) env s₁) := by
    refine (h.settled_of_within hs).bind_code fun off s₃ _ hs₃ => ?_
    refine h.codeSettled_bind_within (h.handshakeLoop_settled _ _ _ hs₃) fun ret s₄ => ?_
    refine bind_cases (Q := fun p => CodeContinues p.1 → continues ret) ?_ fun _ s₅ _ hcont => hcont
    exact fun fault s₅ hrun hcont =>
      absurd hcont (FailsWith.failure (F := fun _ fault => ¬ fault.Continues) env s₄ fault s₅ hrun)
  cases hstate : s₁.tls.state with
  | clientHandshakeStart =>
    refine (h.settled_of_within hs).bind_code fun _ s₃ hrun hs₃ => ?_
    obtain rfl := (assert_eq_ok.mp hrun).2
    refine CodeSettled.returnCode ((h.start properties s₃ hs hstate).bind_code ?_)
    exact fun _ s' _ hs' => ⟨h.weaken s' hs', fun _ => hs'⟩
  | serverGeneratingCertificateVerify =>
    refine CodeSettled.returnCode ((h.resume s₁ hs hstate).bind_code ?_)
    exact fun _ s' _ hs' => ⟨h.weaken s' hs', fun _ => hs'⟩
  | _ => exact hinput

/-! ### Calls that receive -/

/-- Between handshakes, input keeps an invariant whatever its outcome. -/
theorem ptlsReceive_inv (live : Bool) (hs : Inv live s) : Inv live (ptlsReceive input env s).2 := by
  have hlate : IsInputInvariant (fun _ t => Inv live t ∧ t.tls.state.IsLate) env := by
    refine ⟨fun _ => id, fun _ t t' hsteps ht => ?_,
      fun properties message isEndOfRecord t ht => ?_⟩
    · exact ⟨h.input live t t' hsteps ht.1, Steps.late hsteps (by simp) ht.2⟩
    · have hmessage := h.lateMessage live properties message isEndOfRecord t ht.1 ht.2
      have hsteps := handleHandshakeMessage_late env .record message isEndOfRecord properties ht.2
      have hstate := Steps.late hsteps (by simp [State.IsLate, State.rank]) ht.2
      exact ⟨⟨hmessage, hstate⟩, fun _ => ⟨hmessage, hstate⟩⟩
  unfold ptlsReceive
  rw [getTls_bind]
  refine bind_cases (Q := fun p => Inv live p.2) (fun fault s' hrun => ?_) fun _ s' hrun => ?_
  · exact h.input live _ _ (Within.steps inferInstance hrun) hs
  · obtain ⟨hstate, rfl⟩ := assert_eq_ok.mp hrun
    exact (hlate.receiveLoop_inv _ _ _ _ ⟨hs, of_decide_eq_true hstate⟩).1

/-! ### Runs -/

theorem performNext_inv (operation : Operation) (live : Bool) (hs : Inv live s) :
    Inv false (performNext live operation env s).2 ∧
      ∀ live' s', performNext live operation env s = (.ok live', s') → Inv live' s' := by
  have hother : ∀ t, Inv live t → Inv false t := by
    cases live
    · exact fun _ => id
    · exact h.weaken
  have hcall (hkeeps : Inv live (perform operation env s).2)
      (hnext : performNext live operation = do let _ ← perform operation; return live) :
      Inv false (performNext live operation env s).2 ∧
        ∀ live' s', performNext live operation env s = (.ok live', s') → Inv live' s' := by
    rw [hnext, bind_run]
    rcases hrun : perform operation env s with ⟨fault | code, s'⟩ <;> rw [hrun] at hkeeps
    · exact ⟨hother _ hkeeps, fun _ _ hok => by cases hok⟩
    · refine ⟨hother _ hkeeps, fun live' s'' hok => ?_⟩
      cases hok
      exact hkeeps
  cases operation with
  | handshake properties input =>
    cases live with
    | false =>
      refine ⟨hs, fun live' s' hok => ?_⟩
      cases hok
      exact hs
    | true =>
      have hcode : CodeSettled Inv (ptlsHandshake properties input env s) :=
        h.ptlsHandshake_settled hs
      simp only [performNext, if_true, bind_run]
      rcases hrun : ptlsHandshake properties input env s with ⟨fault | code, s'⟩ <;>
        rw [hrun] at hcode
      · exact ⟨hcode.1, fun _ _ hok => by cases hok⟩
      · refine ⟨hcode.1, fun live' s'' hok => ?_⟩
        cases hok
        cases hcont : continues code
        · exact hcode.1
        · exact hcode.2 hcont
  | receive input => exact hcall (h.ptlsReceive_inv live hs) rfl
  | _ => exact hcall (h.sending live _ s trivial hs) rfl

/-- Every run keeps an invariant. -/
theorem performAll_inv (operations : List Operation) (live : Bool) (hs : Inv live s) :
    Inv false (performAll live operations env s).2 := by
  induction operations generalizing live s with
  | nil => cases live with
    | false => exact hs
    | true => exact h.weaken s hs
  | cons operation operations ih =>
    have hnext := h.performNext_inv operation live hs
    refine bind_cases (Q := fun p => Inv false p.2) (fun fault s' hrun => ?_)
      fun live' s' hrun => ?_
    · simpa [hrun] using hnext.1
    · exact ih live' (hnext.2 live' s' hrun)

end IsInvariant

end Rule

end Picotls
