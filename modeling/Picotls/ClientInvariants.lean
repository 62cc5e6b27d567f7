import Picotls.Invariants

/-!
# Invariants of client runs

On a client an invariant is shown for the first ClientHello, for each of the handlers, and for the
steps that the calls outside of the handshake consist of. Where nothing depends on the order of the
server's encrypted messages, their handlers are taken together by their steps.
-/

namespace Picotls

open Foundation Procedure

variable {ctx : Context} {env : Environment} {E : List Effect} {s : Session} {α : Type} {m : Proc α}

/-! ## Clients -/

/-- A state of the client. -/
def State.IsClient (state : State) : Prop :=
  state.rank ≤ State.rank .clientExpectFinished ∨ state = .clientPostHandshake

instance (state : State) : Decidable state.IsClient := inferInstanceAs (Decidable (_ ∨ _))

/-- The session of a client. -/
def Session.IsClient (s : Session) : Prop := s.tls.isServer = false ∧ s.tls.state.IsClient

/-- Steps that enter only states of the client keep a client one. -/
theorem Steps.client {s' : Session} (h : Via E s s')
    (hE : ∀ state, .state state ∈ E → state.IsClient) (hs : s.IsClient) : s'.IsClient := by
  refine h.preserves (P := Session.IsClient) (fun e he t t' hstep ht => ?_) hs
  cases hstep <;> first | exact ht | exact ⟨ht.1, hE _ he⟩

theorem client_of_does [hm : Does E m] (hE : ∀ state, .state state ∈ E → state.IsClient)
    (hs : s.IsClient) : (m env s).2.IsClient :=
  Steps.client (hm.steps.relates env s) hE hs

/-- The states in which the client awaits the encrypted part of the server's flight. -/
def State.IsFlight (state : State) : Prop :=
  State.rank .clientExpectEncryptedExtensions ≤ state.rank ∧
    state.rank ≤ State.rank .clientExpectFinished

instance (state : State) : Decidable state.IsFlight := inferInstanceAs (Decidable (_ ∧ _))

/-- The effects of the handlers of the encrypted part of the server's flight. -/
abbrev flightEffects : List Effect :=
  [.io, .transcript, .advance, .dec, .encSecret, .encClear, .encInstall, .encrypt, .names,
    .earlyData, .misc, .state .clientExpectCertificateVerify, .verify, .refuse,
    .state .clientExpectCertificateRequestOrCertificate, .state .clientExpectCertificate,
    .state .clientExpectFinished, .state .clientPostHandshake, .note .derive, .note .finishedMac,
    .note .sent, .note .absorb, .note .authenticate]

/-- The effects of the steps outside of the handshake. -/
abbrev clientEffects : List Effect :=
  [.io, .receive, .transcript, .dec, .encSecret, .encClear, .encInstall, .encrypt, .keyUpdate,
    .decSeq, .skip, .deliver, .handled, .detach, .tx, .refuse, .note .received, .note .derive,
    .note .sent, .note .installEnc, .note .encrypt, .note .saveTicket]

/-! ## New clients -/

/-- The session of a client that has not sent anything yet. -/
def Session.IsNewClient (ctx : Context) (s : Session) : Prop :=
  s.trace = [] ∧ s.tx = none ∧ ∃ clientRandom legacySessionId serverName,
    s.tls = { newInstance ctx false .clientHandshakeStart with
      clientRandom := clientRandom, legacySessionId := legacySessionId, serverName := serverName }

theorem Session.IsNewClient.client (h : s.IsNewClient ctx) : s.IsClient := by
  obtain ⟨-, -, _, _, _, htls⟩ := h
  rw [Session.IsClient, htls]
  exact ⟨rfl, .inl (Nat.zero_le _)⟩

theorem ptlsClientNew_run (ctx : Context) (env : Environment) :
    ∃ s, ptlsClientNew ctx env (.initial ctx false) = (.ok (), s) ∧ s.IsNewClient ctx := by
  simp only [ptlsClientNew, modifyTls_bind, randomBytes_bind]
  cases hccs : ctx.sendChangeCipherSpec
  · exact ⟨_, rfl, rfl, rfl, _, _, _, rfl⟩
  · exact ⟨_, rfl, rfl, rfl, _, _, _, rfl⟩

theorem setServerName_new (env : Environment) (serverName : Option Bytes) (h : s.IsNewClient ctx) :
    (setServerName serverName env s).2.IsNewClient ctx := by
  have hquiet : Within [.io] (whenSome serverName fun _ => allocate) := inferInstance
  have hkeeps {x : Except Fault Unit} {t : Session}
      (hrun : whenSome serverName (fun _ => allocate) env s = (x, t)) :
      t.trace = s.trace ∧ t.tx = s.tx ∧ t.tls = s.tls := by
    have hsame := hquiet.keeps (f := fun t => (t.trace, t.tx, t.tls)) hrun
      fun e he t t' hstep => by cases hstep <;> first | rfl | simp at he
    simpa using hsame
  obtain ⟨htrace, htx, random, sessionId, name, htls⟩ := h
  refine bind_cases (Q := fun p => Session.IsNewClient ctx p.2) (fun fault t hrun => ?_)
    fun _ t hrun => ?_ <;>
    obtain ⟨htrace', htx', htls'⟩ := hkeeps hrun
  · exact ⟨htrace'.trans htrace, htx'.trans htx, random, sessionId, name, htls'.trans htls⟩
  · refine ⟨htrace'.trans htrace, htx'.trans htx, random, sessionId, serverName.map cString, ?_⟩
    simp [htls', htls]

variable [Crypto]

/-- Every run of a client keeps an invariant that holds at its start. -/
theorem IsInvariant.clientRun_inv {Inv : Bool → Session → Prop} (h : IsInvariant Inv env)
    (hinit : ∀ s : Session, s.IsNewClient ctx → Inv true s) (serverName : Option Bytes)
    (operations : List Operation) : Inv false (clientRun env ctx serverName operations) := by
  obtain ⟨s, hnew, hs⟩ := ptlsClientNew_run ctx env
  unfold clientRun
  rw [bind_of_ok hnew]
  have hs' := setServerName_new env serverName hs
  refine bind_cases (Q := fun p => Inv false p.2) (fun fault s' hrun => ?_) fun _ s' hrun => ?_ <;>
    rw [hrun] at hs'
  · exact h.weaken _ (hinit s' hs')
  · exact h.performAll_inv operations true (hinit s' hs')

/-- The conditions on an invariant that concern the hellos and the steps around the handlers. -/
structure IsHelloInvariant (Inv : Bool → Session → Prop) (env : Environment) : Prop where
  weaken : ∀ s, Inv true s → Inv false s
  steps : ∀ live s s', Via clientEffects s s' → Inv live s → Inv live s'
  start : ∀ properties s, s.IsClient → s.tls.state = .clientHandshakeStart → Inv true s →
    Settled Inv (sendClientHello .record properties none env s)
  hello : ∀ properties message s, s.IsClient →
    s.tls.state = .clientExpectServerHello ∨ s.tls.state = .clientExpectSecondServerHello →
    message.head? = some HandshakeType.serverHello → Inv true s →
    Settled Inv (clientHandleHello .record message properties env s)

/-- The conditions under which an invariant holds throughout the runs of a client, one for each of
its handlers. -/
structure IsClientHandlerInvariant (Inv : Bool → Session → Prop) (env : Environment) : Prop
    extends IsHelloInvariant Inv env where
  encryptedExtensions : ∀ properties message s, s.tls.state = .clientExpectEncryptedExtensions →
    message.head? = some HandshakeType.encryptedExtensions → Inv true s →
    Settled Inv (clientHandleEncryptedExtensions message properties env s)
  certificateRequest : ∀ message s, s.tls.state = .clientExpectCertificateRequestOrCertificate →
    message.head? = some HandshakeType.certificateRequest → Inv true s →
    Settled Inv (clientHandleCertificateRequest message env s)
  certificate : ∀ type message s,
    s.tls.state = .clientExpectCertificateRequestOrCertificate ∨
      s.tls.state = .clientExpectCertificate →
    message.head? = some type → Inv true s →
    Settled Inv (clientHandleAnyCertificate type message env s)
  certificateVerify : ∀ message s, s.tls.state = .clientExpectCertificateVerify →
    message.head? = some HandshakeType.certificateVerify → Inv true s →
    Settled Inv (clientHandleCertificateVerify message env s)
  finished : ∀ message s, s.IsClient → s.tls.state = .clientExpectFinished →
    message.head? = some HandshakeType.finished → Inv true s →
    Settled Inv (clientHandleFinished .record message env s)

namespace IsClientHandlerInvariant

variable {Inv : Bool → Session → Prop} (h : IsClientHandlerInvariant Inv env)

include h

/-- The handlers of the client settle the invariant. -/
theorem message_settled (message : Bytes) (isEndOfRecord : Bool)
    (properties : Option HandshakeProperties) (hclient : s.IsClient) (hs : Inv true s) :
    Settled Inv (handleClientHandshakeMessage .record message isEndOfRecord properties env s) := by
  have hsteps {α : Type} {m : Proc α} (hm : Within clientEffects m) {t : Session}
      (ht : Inv true t) : Settled Inv (m env t) := by
    have ht' := h.steps true _ _ (hm.relates env t) ht
    exact ⟨h.weaken _ ht', fun _ => ht'⟩
  unfold handleClientHandshakeMessage
  rw [getTls_bind]
  refine (hsteps inferInstance hs).bind fun type s₁ hrun hs₁ => ?_
  obtain ⟨htype, rfl⟩ := deref_eq_ok.mp hrun
  have hstates := hclient.2
  cases hstate : s₁.tls.state with
  | clientHandshakeStart => exact hsteps (m := Procedure.fail .assertion) inferInstance hs
  | clientExpectServerHello =>
    dsimp only
    split_ifs with hhello
    · exact h.hello _ _ _ hclient (.inl hstate) (hhello.1 ▸ htype) hs
    · exact hsteps inferInstance hs
  | clientExpectSecondServerHello =>
    dsimp only
    split_ifs with hhello
    · exact h.hello _ _ _ hclient (.inr hstate) (hhello.1 ▸ htype) hs
    · exact hsteps inferInstance hs
  | clientExpectEncryptedExtensions =>
    dsimp only
    split_ifs with hextensions
    · exact h.encryptedExtensions _ _ _ hstate (hextensions ▸ htype) hs
    · exact hsteps inferInstance hs
  | clientExpectCertificateRequestOrCertificate =>
    dsimp only
    split_ifs with hrequest
    · exact h.certificateRequest _ _ hstate (hrequest ▸ htype) hs
    · exact h.certificate _ _ _ (.inl hstate) htype hs
  | clientExpectCertificate => exact h.certificate _ _ _ (.inr hstate) htype hs
  | clientExpectCertificateVerify =>
    dsimp only
    split_ifs with hverify
    · exact h.certificateVerify _ _ hstate (hverify ▸ htype) hs
    · exact hsteps inferInstance hs
  | clientExpectFinished =>
    dsimp only
    split_ifs with hfinished
    · exact h.finished _ _ hclient hstate (hfinished.1 ▸ htype) hs
    · exact hsteps inferInstance hs
  | clientPostHandshake => exact hsteps inferInstance hs
  | _ => rw [hstate] at hstates; exact absurd hstates (by decide)

/-- That the endpoint is a client is part of every invariant. -/
theorem and_client :
    IsClientHandlerInvariant (fun live s => Inv live s ∧ s.IsClient) env where
  weaken s hs := ⟨h.weaken s hs.1, hs.2⟩
  steps live s s' hsteps hs :=
    ⟨h.steps live s s' hsteps hs.1, Steps.client hsteps (by simp) hs.2⟩
  start _ _ hclient hstate hs :=
    (h.start _ _ hclient hstate hs.1).and (client_of_does (by simp; decide) hs.2)
  hello _ _ _ hclient hstate htype hs :=
    (h.hello _ _ _ hclient hstate htype hs.1).and (client_of_does (by simp; decide) hs.2)
  encryptedExtensions _ _ _ hstate htype hs :=
    (h.encryptedExtensions _ _ _ hstate htype hs.1).and (client_of_does (by simp; decide) hs.2)
  certificateRequest _ _ hstate htype hs :=
    (h.certificateRequest _ _ hstate htype hs.1).and (client_of_does (by simp; decide) hs.2)
  certificate _ _ _ hstate htype hs :=
    (h.certificate _ _ _ hstate htype hs.1).and (client_of_does (by simp; decide) hs.2)
  certificateVerify _ _ hstate htype hs :=
    (h.certificateVerify _ _ hstate htype hs.1).and (client_of_does (by simp; decide) hs.2)
  finished _ _ hclient hstate htype hs :=
    (h.finished _ _ hclient hstate htype hs.1).and (client_of_does (by simp; decide) hs.2)

/-- The conditions suffice for all calls. -/
theorem isInvariant : IsInvariant (fun live s => Inv live s ∧ s.IsClient) env where
  weaken := h.and_client.weaken
  input live s s' hsteps := h.and_client.steps live s s' (hsteps.mono (by decide))
  message properties message isEndOfRecord s hs := by
    unfold handleHandshakeMessage
    rw [emitEvent_bind, getTls_bind, if_neg (by simpa using hs.2.1)]
    have hs' := h.and_client.steps true s _
      (.single ⟨.note .received, by simp, .note s (.received message)⟩) hs
    exact h.and_client.message_settled message isEndOfRecord properties hs'.2 hs'
  start properties s hs hstate := h.and_client.start properties s hs.2 hstate hs
  resume s hs hstate := absurd (hstate ▸ hs.2.2) (by decide)
  lateMessage live properties message isEndOfRecord s hs hlate := by
    unfold handleHandshakeMessage
    rw [emitEvent_bind, getTls_bind, if_neg (by simpa using hs.2.1)]
    have hs' := h.and_client.steps live s _
      (.single ⟨.note .received, by simp, .note s (.received message)⟩) hs
    refine h.and_client.steps live _ _
      (Steps.mono (handleClientHandshakeMessage_late ?_) (by decide)) hs'
    exact hlate
  sending live operation s hsending hs :=
    h.and_client.steps live s _
      (Steps.mono ((perform_within operation hsending).relates env s) (by decide)) hs

/-- Every run of a client keeps the invariant. -/
theorem clientRun_inv (hinit : ∀ s : Session, s.IsNewClient ctx → Inv true s)
    (serverName : Option Bytes) (operations : List Operation) :
    Inv false (clientRun env ctx serverName operations) :=
  (h.isInvariant.clientRun_inv (fun s hs => ⟨hinit s hs, hs.client⟩) serverName operations).1

end IsClientHandlerInvariant

/-- Conditions under which an invariant holds throughout the runs of a client. The steps of the
encrypted part of the server's flight are taken together. -/
structure IsClientInvariant (Inv : Bool → Session → Prop) (env : Environment) : Prop
    extends IsHelloInvariant Inv env where
  flight : ∀ s s', Via flightEffects s s' → s.tls.state.IsFlight → Inv true s →
    Inv true s'

namespace IsClientInvariant

variable {Inv : Bool → Session → Prop} (h : IsClientInvariant Inv env)

include h

theorem settled_of_flight [hm : Within flightEffects m] (hstate : s.tls.state.IsFlight)
    (hs : Inv true s) : Settled Inv (m env s) := by
  have hs' := h.flight _ _ (hm.relates env s) hstate hs
  exact ⟨h.weaken _ hs', fun _ => hs'⟩

/-- The steps of the encrypted part of the flight are those of its handlers. -/
theorem handlers : IsClientHandlerInvariant Inv env where
  toIsHelloInvariant := h.toIsHelloInvariant
  encryptedExtensions _ _ _ hstate _ := h.settled_of_flight (by rw [hstate]; decide)
  certificateRequest _ _ hstate _ := h.settled_of_flight (by rw [hstate]; decide)
  certificate _ _ _ hstate _ :=
    h.settled_of_flight (by rcases hstate with h | h <;> rw [h] <;> decide)
  certificateVerify _ _ hstate _ := h.settled_of_flight (by rw [hstate]; decide)
  finished _ _ _ hstate _ := h.settled_of_flight (by rw [hstate]; decide)

/-- Every run of a client keeps the invariant. -/
theorem clientRun_inv (hinit : ∀ s : Session, s.IsNewClient ctx → Inv true s)
    (serverName : Option Bytes) (operations : List Operation) :
    Inv false (clientRun env ctx serverName operations) :=
  h.handlers.clientRun_inv hinit serverName operations

end IsClientInvariant

end Picotls
