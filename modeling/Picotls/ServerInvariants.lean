import Picotls.Invariants

/-!
# Invariants of server runs

On a server an invariant is shown for the handlers of the client's messages and for the resumption
of a handshake that waited for a signature, and otherwise for the steps that input and the calls
that send consist of. The end of early data and the Finished may also arrive between handshake
calls, so their handlers have to keep an invariant whether or not the handshake may be continued.
-/

namespace Picotls

open Foundation Procedure

variable {emitter : Emitter} {E : List Effect} {s s' t : Session}

/-! ## Servers -/

/-- A state of the server. -/
def State.IsServer (state : State) : Prop :=
  State.rank .serverExpectClientHello ≤ state.rank ∧ state ≠ .clientPostHandshake

instance (state : State) : Decidable state.IsServer := inferInstanceAs (Decidable (_ ∧ _))

/-- The session of a server. -/
def Session.IsServer (s : Session) : Prop := s.tls.isServer = true ∧ s.tls.state.IsServer

/-- Steps that enter only states of the server keep a server one. -/
theorem Steps.server (h : Via E s s')
    (hE : ∀ state, .state state ∈ E → state.IsServer) (hs : s.IsServer) : s'.IsServer := by
  refine h.preserves (P := Session.IsServer) (fun e he t t' hstep ht => ?_) hs
  cases hstep <;> first | exact ht | exact ⟨ht.1, hE _ he⟩

/-- No step turns a client into a server. -/
theorem Steps.isServer_eq (h : Via E s s') : s'.tls.isServer = s.tls.isServer := by
  refine h.preserves (P := fun t => t.tls.isServer = s.tls.isServer)
    (fun e _ t t' hstep ht => ?_) rfl
  cases hstep <;> exact ht

theorem server_of_does {α : Type} {m : Proc α} [hm : Does E m] {env : Environment}
    (hE : ∀ state, .state state ∈ E → state.IsServer) (hs : s.IsServer) : (m env s).2.IsServer :=
  Steps.server (hm.steps.relates env s) hE hs

/-- A session of a new server. -/
def Session.newServer (ctx : Context) : Session := { Session.initial ctx true with
  tls := { newInstance ctx true .serverExpectClientHello with
    earlyDataSkippedBytes := uint32Max } }

theorem Session.newServer_isServer (ctx : Context) : (Session.newServer ctx).IsServer := by
  refine ⟨rfl, ?_⟩
  change State.IsServer .serverExpectClientHello
  decide

variable [Crypto]

/-- The effects of the steps outside of the handshake. -/
abbrev serverEffects : List Effect :=
  [.io, .receive, .transcript, .dec, .encSecret, .encClear, .encInstall, .encrypt, .keyUpdate,
    .decSeq, .skip, .deliver, .handled, .detach, .tx, .note .received, .note .derive, .note .sent,
    .note .installEnc, .note .encrypt]

/-- The conditions under which an invariant holds throughout the runs of a server. -/
structure IsServerInvariant (Inv : Bool → Session → Prop) (env : Environment) : Prop where
  weaken : ∀ s, Inv true s → Inv false s
  steps : ∀ live s s', Via serverEffects s s' → Inv live s → Inv live s'
  hello : ∀ properties message s, s.IsServer →
    s.tls.state = .serverExpectClientHello ∨ s.tls.state = .serverExpectSecondClientHello →
    Inv true s → Settled Inv (serverHandleHello .record message properties env s)
  resume : ∀ s, s.IsServer → s.tls.state = .serverGeneratingCertificateVerify → Inv true s →
    Settled Inv (serverFinishHandshake .record true none env s)
  certificate : ∀ message s, s.IsServer → s.tls.state = .serverExpectCertificate → Inv true s →
    Settled Inv (serverHandleCertificate message env s)
  certificateVerify : ∀ message s, s.IsServer → s.tls.state = .serverExpectCertificateVerify →
    Inv true s → Settled Inv (serverHandleCertificateVerify message env s)
  endOfEarlyData : ∀ live message s, s.IsServer → s.tls.state = .serverExpectEndOfEarlyData →
    Inv live s → Inv live (serverHandleEndOfEarlyData message env s).2
  finished : ∀ live message s, s.IsServer → s.tls.state = .serverExpectFinished → Inv live s →
    Inv live (serverHandleFinished message env s).2

namespace IsServerInvariant

variable {Inv : Bool → Session → Prop} {env : Environment} (h : IsServerInvariant Inv env)

include h

/-- A message in a late state keeps the invariant. -/
theorem lateMessage_inv (live : Bool) (message : Bytes) (isEndOfRecord : Bool)
    (properties : Option HandshakeProperties) (hserver : s.IsServer) (hlate : s.tls.state.IsLate)
    (hs : Inv live s) :
    Inv live (handleServerHandshakeMessage .record message isEndOfRecord properties env s).2 := by
  have hsteps {α : Type} {m : Proc α} (hm : Within serverEffects m) {t : Session}
      (ht : Inv live t) : Inv live (m env t).2 := h.steps live _ _ (hm.relates env t) ht
  have hstates := hserver.2
  unfold handleServerHandshakeMessage
  rw [getTls_bind]
  refine bind_cases (Q := fun p => Inv live p.2) (fun fault s₁ hrun => ?_) fun type s₁ hrun => ?_
  · have hs₁ : Inv live (deref message.head? env s).2 := hsteps inferInstance hs
    rwa [hrun] at hs₁
  obtain rfl := (deref_eq_ok.mp hrun).2
  cases hstate : s₁.tls.state with
  | serverExpectEndOfEarlyData =>
    dsimp only
    rw [assert_bind]
    split_ifs
    · exact h.endOfEarlyData live message s₁ hserver hstate hs
    · exact hsteps inferInstance hs
    · exact hs
  | serverExpectFinished =>
    dsimp only
    split_ifs
    · exact h.finished live message s₁ hserver hstate hs
    · exact hsteps inferInstance hs
  | serverPostHandshake => exact hsteps inferInstance hs
  | _ =>
    rw [hstate] at hstates hlate
    first
      | exact absurd hlate (by decide)
      | exact absurd hstates (by decide)

/-- The handlers of the server settle the invariant. -/
theorem message_settled (message : Bytes) (isEndOfRecord : Bool)
    (properties : Option HandshakeProperties) (hserver : s.IsServer) (hs : Inv true s) :
    Settled Inv (handleServerHandshakeMessage .record message isEndOfRecord properties env s) := by
  by_cases hlate : s.tls.state.IsLate
  · have hs' := h.lateMessage_inv true message isEndOfRecord properties hserver hlate hs
    exact ⟨h.weaken _ hs', fun _ => hs'⟩
  have hsteps {α : Type} {m : Proc α} (hm : Within serverEffects m) {t : Session}
      (ht : Inv true t) : Settled Inv (m env t) := by
    have ht' := h.steps true _ _ (hm.relates env t) ht
    exact ⟨h.weaken _ ht', fun _ => ht'⟩
  have hstates := hserver.2
  unfold handleServerHandshakeMessage
  rw [getTls_bind]
  refine (hsteps inferInstance hs).bind fun type s₁ hrun hs₁ => ?_
  obtain rfl := (deref_eq_ok.mp hrun).2
  cases hstate : s₁.tls.state with
  | serverExpectClientHello =>
    dsimp only
    split_ifs
    · exact h.hello _ _ _ hserver (.inl hstate) hs
    · exact hsteps inferInstance hs
  | serverExpectSecondClientHello =>
    dsimp only
    split_ifs
    · exact h.hello _ _ _ hserver (.inr hstate) hs
    · exact hsteps inferInstance hs
  | serverExpectCertificate =>
    dsimp only
    split_ifs
    · exact h.certificate _ _ hserver hstate hs
    · exact hsteps inferInstance hs
  | serverExpectCertificateVerify =>
    dsimp only
    split_ifs
    · exact h.certificateVerify _ _ hserver hstate hs
    · exact hsteps inferInstance hs
  | serverGeneratingCertificateVerify =>
    exact hsteps (m := Procedure.fail .assertion) inferInstance hs
  | _ =>
    rw [hstate] at hstates hlate
    first
      | exact absurd (by decide) hlate
      | exact absurd hstates (by decide)

/-- That the endpoint is a server is part of every invariant. -/
theorem and_server : IsServerInvariant (fun live s => Inv live s ∧ s.IsServer) env where
  weaken s hs := ⟨h.weaken s hs.1, hs.2⟩
  steps live s s' hsteps hs :=
    ⟨h.steps live s s' hsteps hs.1, Steps.server hsteps (by simp) hs.2⟩
  hello properties message s hserver hstate hs :=
    (h.hello properties message s hserver hstate hs.1).and
      (server_of_does (by simp; decide) hs.2)
  resume s hserver hstate hs :=
    (h.resume s hserver hstate hs.1).and (server_of_does (by simp; decide) hs.2)
  certificate message s hserver hstate hs :=
    (h.certificate message s hserver hstate hs.1).and (server_of_does (by simp; decide) hs.2)
  certificateVerify message s hserver hstate hs :=
    (h.certificateVerify message s hserver hstate hs.1).and
      (server_of_does (by simp; decide) hs.2)
  endOfEarlyData live message s hserver hstate hs :=
    ⟨h.endOfEarlyData live message s hserver hstate hs.1, server_of_does (by simp; decide) hs.2⟩
  finished live message s hserver hstate hs :=
    ⟨h.finished live message s hserver hstate hs.1, server_of_does (by simp; decide) hs.2⟩

/-- The conditions suffice for all calls. -/
theorem isInvariant : IsInvariant (fun live s => Inv live s ∧ s.IsServer) env where
  weaken := h.and_server.weaken
  input live s s' hsteps := h.and_server.steps live s s' (hsteps.mono (by decide))
  message properties message isEndOfRecord s hs := by
    unfold handleHandshakeMessage
    rw [emitEvent_bind, getTls_bind, if_pos hs.2.1]
    have hs' := h.and_server.steps true s _
      (.single ⟨.note .received, by simp, .note s (.received message)⟩) hs
    exact h.and_server.message_settled message isEndOfRecord properties hs'.2 hs'
  start properties s hs hstate := absurd (hstate ▸ hs.2.2) (by decide)
  resume s hs hstate := h.and_server.resume s hs.2 hstate hs
  lateMessage live properties message isEndOfRecord s hs hlate := by
    unfold handleHandshakeMessage
    rw [emitEvent_bind, getTls_bind, if_pos hs.2.1]
    have hs' := h.and_server.steps live s _
      (.single ⟨.note .received, by simp, .note s (.received message)⟩) hs
    exact h.and_server.lateMessage_inv live message isEndOfRecord properties hs'.2 hlate hs'
  sending live operation s hsending hs :=
    h.and_server.steps live s _
      (Steps.mono ((perform_within operation hsending).relates env s) (by decide)) hs

/-- Every run of a server keeps the invariant. -/
theorem serverRun_inv {ctx : Context} (hinit : Inv true (.newServer ctx))
    (operations : List Operation) : Inv false (serverRun env ctx operations) :=
  (h.isInvariant.performAll_inv operations true ⟨hinit, Session.newServer_isServer ctx⟩).1

end IsServerInvariant

/-! ## The server's answer -/

/-- The server has answered the hello. -/
def State.HasAnswered (state : State) : Prop :=
  State.rank .serverGeneratingCertificateVerify ≤ state.rank

instance (state : State) : Decidable state.HasAnswered := inferInstanceAs (Decidable (_ ≤ _))

/-- The hello is answered if the handshake may go on. -/
def Answered {α : Type} (outcome : Except Fault α × Session) : Prop :=
  Continues outcome.1 → outcome.2.tls.state.HasAnswered

section Answer

variable {α β : Type} {env : Environment}

omit [Crypto] in
theorem Answered.bind {m : Proc α} {f : α → Proc β} [hm : FailsWith Stops m]
    (hconforms : env.Conforms) (hf : ∀ a t, m env s = (.ok a, t) → Answered (f a env t)) :
    Answered ((m >>= f) env s) := by
  refine bind_cases (fun fault t hrun hcont => ?_) hf
  exact absurd hcont (hm.failure env s fault t hrun hconforms)

omit [Crypto] in
/-- Steps that enter only states behind the answer stay behind it. -/
theorem Steps.answered (h : Via E s s')
    (hE : ∀ state, .state state ∈ E → state.HasAnswered) (hs : s.tls.state.HasAnswered) :
    s'.tls.state.HasAnswered :=
  Steps.state_inv h hE hs

/-- The server waits for a signer in a state of its own. -/
theorem serverSendCertificateVerify_error {algorithms : Option (List ℕ)} {fault : Fault}
    (hconforms : env.Conforms)
    (hrun : serverSendCertificateVerify emitter algorithms env s = (.error fault, t))
    (hcont : fault.Continues) : t.tls.state = .serverGeneratingCertificateVerify := by
  unfold serverSendCertificateVerify attemptCode at hrun
  rw [bind_run, attempt_bind] at hrun
  rcases hsend : sendCertificateVerify emitter algorithms serverCertificateVerifyContextString env s
    with ⟨(code | _ | _) | a, t'⟩ <;> rw [hsend] at hrun
  · have hcode := FailsWith.failure (F := PausesOrStops) _ _ _ _ hsend hconforms
    by_cases hasync : code = Error.asyncOperation
    · simp only [hasync, runIf, if_true, pure_run] at hrun
      cases hrun
      rfl
    · simp only [hasync, runIf, if_false, pure_run] at hrun
      cases hrun
      exact absurd hcont (hcode.resolve_left (fun h => hasync (Fault.code.inj h)))
  · cases hrun
    exact hcont.elim
  · cases hrun
    exact hcont.elim
  · cases hrun

/-- The handshake of a server is past its own flight. -/
def State.HasFinished (state : State) : Prop :=
  State.rank .serverGeneratingCertificateVerify < state.rank

instance (state : State) : Decidable state.HasFinished := inferInstanceAs (Decidable (_ < _))

theorem serverAwaitClient_finished {u : Unit} (hrun : serverAwaitClient env s = (.ok u, t)) :
    t.tls.state.HasFinished := by
  unfold serverAwaitClient at hrun
  rw [getTls_bind] at hrun
  split_ifs at hrun
  · obtain ⟨_, s₁, _, hset⟩ := bind_eq_ok.mp hrun
    cases hset
    exact (by decide : State.HasFinished .serverExpectFinished)
  · cases hrun
    exact (by decide : State.HasFinished .serverExpectEndOfEarlyData)
  · cases hrun
    dsimp only
    split_ifs <;> decide

/-- When the server's flight ends in success or a pause, the hello is answered. -/
theorem serverFinishHandshake_answered (hconforms : env.Conforms) (emitter : Emitter)
    (sendCertVerify : Bool) (algorithms : Option (List ℕ)) :
    Answered (serverFinishHandshake emitter sendCertVerify algorithms env s) := by
  unfold serverFinishHandshake serverFinishFlight
  simp only [Procedure.bind_assoc]
  refine bind_cases (fun fault t hrun hcont => ?_) fun _ s₁ _ => ?_
  · rw [runIf] at hrun
    split_ifs at hrun
    · rw [serverSendCertificateVerify_error hconforms hrun hcont]
      decide
    · cases hrun
  refine .bind hconforms fun _ s₂ _ => .bind hconforms fun sched s₃ _ => ?_
  refine .bind hconforms fun _ s₄ _ => .bind hconforms fun _ s₅ _ => ?_
  refine .bind hconforms fun _ s₆ _ => .bind hconforms fun secret s₇ _ => ?_
  refine .bind hconforms fun _ s₈ _ => .bind hconforms fun _ s₉ _ => ?_
  refine .bind hconforms fun _ s₁₀ hawait _ => ?_
  have hrest (E : List Effect) (hE : ∀ state, .state state ∉ E) {m : Proc Progress}
    (hm : Within E m) :
      (m env s₁₀).2.tls.state.HasAnswered :=
    Steps.answered (hm.relates env s₁₀) (fun state hstate => absurd hstate (hE state))
      (serverAwaitClient_finished hawait).le
  exact hrest sendTicketEffects (by simp) inferInstance

/-- The server answers the hello or, in the first flight, asks for another one or accepts a cookie
and answers. -/
theorem serverDecideRetry_cases {message : Bytes} {ch : ClientHello}
    {keyShare : Option (KeyExchangeAlgorithm × Bytes)} {isSecondFlight : Bool}
    {properties : Option HandshakeProperties} {Q : Except Fault Progress × Session → Prop}
    (hanswer : ∀ flag, Q (serverAnswerHello emitter message ch keyShare flag properties env s))
    (hretry : isSecondFlight = false →
      Q (serverSendRetry emitter properties message ch keyShare.isNone env s))
    (hcookie : ∀ p cookie algo, isSecondFlight = false → Q ((do
      serverAcceptCookie emitter p ch cookie algo
      serverAnswerHello emitter message ch keyShare true properties : Proc Progress) env s)) :
    Q (serverDecideRetry emitter message ch keyShare isSecondFlight properties env s) := by
  have hdefault : Q ((if !isSecondFlight && serverNeedsRetry s.tls ch keyShare properties then
      serverSendRetry emitter properties message ch keyShare.isNone
      else serverAnswerHello emitter message ch keyShare isSecondFlight properties) env s) := by
    split_ifs with hneeds
    · exact hretry (by simpa using (Bool.and_eq_true_iff.mp hneeds).1)
    · exact hanswer isSecondFlight
  unfold serverDecideRetry
  rw [getTls_bind]
  rcases properties with _ | p
  · exact hdefault
  rcases Option.eq_none_or_eq_some ch.cookie with hnone | ⟨cookie, hsome⟩
  · simp only [hnone]
    exact hdefault
  rcases keyShare with _ | ⟨algo, peerkey⟩
  · simp only [hsome]
    exact hdefault
  simp only [hsome]
  split_ifs with hsecond
  · exact hanswer true
  · exact hcookie p cookie algo (by simpa using hsecond)

end Answer

end Picotls
