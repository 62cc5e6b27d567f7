import Picotls.Client.Schedule
import Picotls.ClientInvariants
import Picotls.ServerInvariants

/-!
# Completed handshakes

A handshake is completed, and plaintext is handed over after it, only once the messages that
authenticate the peer were accepted, in their order. A table says what each state requires of the
history, and the history meets it in all runs.
-/

namespace Picotls

open Foundation Procedure

variable {α β : Type} {E : List Effect} {m : Proc α} {f : α → Proc β} {s t : Session}
  {env : Environment} {message : Bytes}

/-- What authenticates the peer: a chain with a certificate in it, a signature, the Finished. -/
inductive Evidence where
  | chain
  | signature
  | finished
  deriving DecidableEq

/-- The evidence that a step of the history gives. -/
def Event.evidence : Event → Option Evidence
  | .acceptChain _ certs => if certs = [] then none else some .chain
  | .acceptSignature .. => some .signature
  | .acceptFinished .. => some .finished
  | _ => none

/-- The evidence in the history, in order. -/
def Session.evidence (s : Session) : List Evidence := s.trace.filterMap Event.evidence

/-- The evidence that a state requires, in a handshake with or without a pre-shared key. -/
def State.required : State → Bool → List Evidence
  | .clientExpectCertificateVerify, _ => [.chain]
  | .clientExpectFinished, false => [.chain, .signature]
  | .clientPostHandshake, false => [.chain, .signature, .finished]
  | .clientPostHandshake, true | .serverPostHandshake, _ => [.finished]
  | _, _ => []

/-- The history has what the state requires. Where plaintext was handed over, the history before had
what that state requires, with or without a pre-shared key. -/
structure Session.Authenticated (s : Session) : Prop where
  state : (s.tls.state.required s.tls.isPskHandshake).Sublist s.evidence
  deliveries : ∀ before state aead octets, before ++ [.deliver state aead octets] <+: s.trace →
    ∃ psk, (state.required psk).Sublist (before.filterMap Event.evidence)

/-! ## Steps -/

theorem Steps.evidence_sublist (h : Via E s t) : s.evidence.Sublist t.evidence :=
  (Steps.trace_prefix h).sublist.filterMap _

/-- Steps enter no other states than those of their effects. -/
theorem Steps.state_or_mem (h : Via E s t) :
    t.tls.state = s.tls.state ∨ .state t.tls.state ∈ E :=
  Steps.state_inv (P := fun state => state = s.tls.state ∨ .state state ∈ E) h (fun _ => .inr)
    (.inl rfl)

/-- Plaintext is handed over by the steps of one effect, in the present state. -/
theorem Steps.deliveries (h : Via E s t) (hE : .note .deliver ∉ E)
    (hdeliver : .deliver ∈ E → ∀ u, Via E s u →
      (u.tls.state.required u.tls.isPskHandshake).Sublist u.evidence)
    (hs : s.Authenticated) (before : List Event) (state : State) (aead : Option AeadContext)
    (octets : Bytes) (hbefore : before ++ [.deliver state aead octets] <+: t.trace) :
    ∃ psk, (state.required psk).Sublist (before.filterMap Event.evidence) := by
  induction h with
  | refl => exact hs.deliveries _ _ _ _ hbefore
  | @tail u t hsteps hlast ih =>
    obtain ⟨e, he, hstep⟩ := hlast
    have hadd (event : Event) (hnew : ∀ aead octets, event = .deliver state aead octets →
        ∃ psk, (state.required psk).Sublist u.evidence)
        (h : before ++ [.deliver state aead octets] <+: u.trace ++ [event]) :
        ∃ psk, (state.required psk).Sublist (before.filterMap Event.evidence) := by
      rcases List.prefix_concat_iff.mp h with heq | hold
      · obtain ⟨rfl, hlast⟩ := List.append_inj' heq rfl
        exact hnew _ _ (List.singleton_inj.mp hlast).symm
      · exact ih hold
    cases hstep with
    | encInstall | encrypt | verify | startSkip | skip | changeKey | handled =>
      exact hadd _ (fun _ _ h => by cases h) hbefore
    | note _ event => exact hadd event (fun _ _ h => by subst h; exact absurd he hE) hbefore
    | deliver =>
      exact hadd _ (fun _ _ h => by cases h; exact ⟨_, hdeliver he u hsteps⟩) hbefore
    | _ => exact ih hbefore

/-- Evidence is not lost, so states that require none may be entered at any time. -/
theorem Steps.authenticated (h : Via E s t) (hnote : .note .deliver ∉ E)
    (hE : ∀ state, .state state ∈ E → ∀ psk, state.required psk = [])
    (hpsk : .psk ∉ E ∨ ∀ psk, s.tls.state.required psk = []) (hs : s.Authenticated) :
    t.Authenticated := by
  have hstate (u : Session) (h : Via E s u) :
      (u.tls.state.required u.tls.isPskHandshake).Sublist u.evidence := by
    rcases Steps.state_or_mem h with hstate | hentered
    · rcases hpsk with hpsk | hnone
      · rw [hstate, (Steps.psk_eq h hpsk).1]
        exact hs.state.trans (Steps.evidence_sublist h)
      · rw [hstate, hnone]
        exact List.nil_sublist _
    · rw [hE _ hentered]
      exact List.nil_sublist _
  exact ⟨hstate t h, Steps.deliveries h hnote (fun _ => hstate) hs⟩

theorem settled_of_does [hm : Does E m] (hnote : .note .deliver ∉ E)
    (hE : ∀ state, .state state ∈ E → ∀ psk, state.required psk = [])
    (hpsk : .psk ∉ E ∨ ∀ psk, s.tls.state.required psk = []) (hs : s.Authenticated) :
    Settled (fun _ => Session.Authenticated) (m env s) :=
  have ht := Steps.authenticated (hm.steps.relates env s) hnote hE hpsk hs
  ⟨ht, fun _ => ht⟩

/-- The effects of handling a message that enters no state. -/
abbrev quietEffects : List Effect :=
  [.io, .transcript, .advance, .dec, .encSecret, .encClear, .encInstall, .encrypt, .names,
    .earlyData, .misc, .verify, .refuse, .note .derive, .note .finishedMac, .note .sent,
    .note .absorb, .note .authenticate]

theorem settled_of_quiet [hm : Within quietEffects m] (hs : s.Authenticated) :
    Settled (fun _ => Session.Authenticated) (m env s) :=
  have ht := Steps.authenticated (hm.relates env s) (by simp) (by simp) (.inl (by simp)) hs
  ⟨ht, fun _ => ht⟩

/-- Successful runs give evidence, which depends on the result. -/
def Gives (evidence : α → List Evidence) (m : Proc α) : Prop :=
  ∀ env s a t, m env s = (.ok a, t) → (s.evidence ++ evidence a).Sublist t.evidence

theorem Gives.after [hm : Within quietEffects m] {evidence : β → List Evidence}
    (hf : ∀ a, Gives evidence (f a)) : Gives evidence (m >>= f) := by
  intro env s b u hrun
  obtain ⟨a, t, hfirst, hrest⟩ := bind_eq_ok.mp hrun
  have hsteps := hm.steps hfirst
  exact ((Steps.evidence_sublist hsteps).append_right _).trans (hf a env t b u hrest)

/-- A state is entered once the evidence was given that it requires beyond the present state. -/
theorem settled_of_gives {e : Evidence} (target : State) [hm : Within quietEffects m]
    [hf : ∀ a, Within (.state target :: quietEffects) (f a)] (hgives : Gives (fun _ => [e]) m)
    (htarget : ∀ psk, (target.required psk).Sublist (s.tls.state.required psk ++ [e]))
    (hs : s.Authenticated) : Settled (fun _ => Session.Authenticated) ((m >>= f) env s) := by
  refine (settled_of_quiet hs).bind fun a t hrun ht => ?_
  have hfirst := hm.steps hrun
  have hrest := (hf a).relates env t
  have hgiven := ((hs.state.append_right [e]).trans (hgives env s a t hrun)).trans
    (Steps.evidence_sublist hrest)
  have hu : (f a env t).2.Authenticated := by
    refine ⟨?_, Steps.deliveries hrest (by simp) (by simp) ht⟩
    rw [(Steps.psk_eq hrest (by simp)).1, (Steps.psk_eq hfirst (by simp)).1]
    rcases Steps.state_or_mem hrest with hstate | hentered
    · rw [hstate, Steps.state_eq hfirst (by simp)]
      exact (List.sublist_append_left _ _).trans hgiven
    · obtain hstate : (f a env t).2.tls.state = target := by simpa using hentered
      exact hstate ▸ (htarget _).trans hgiven
  exact ⟨hu, fun _ => hu⟩

/-! ## Messages of the peer -/

/-- A chain without a certificate is no evidence, and the client refuses it. -/
theorem clientDoHandleCertificate_gives {src : Src} :
    Gives (fun _ => [.chain]) (clientDoHandleCertificate src) := by
  have hchain : Gives (fun got => if got then [.chain] else []) (handleCertificate src) := by
    unfold handleCertificate
    iterate 7 refine .after fun _ => ?_
    rintro env s a t ⟨⟩
    simp only [Session.evidence, List.filterMap_append]
    split <;> simp_all [Event.evidence]
  intro env s a t hrun
  obtain ⟨got, u, hfirst, hthrow⟩ := bind_eq_ok.mp hrun
  obtain ⟨hgot, rfl⟩ := throwIf_eq_ok.mp hthrow
  obtain rfl : got = true := by simpa using hgot
  exact hchain env s _ _ hfirst

theorem clientHandleAnyCertificate_settled {type : UInt8} (hs : s.Authenticated) :
    Settled (fun _ => Session.Authenticated) (clientHandleAnyCertificate type message env s) := by
  have hchain (s : Session) (psk : Bool) :
      (State.required .clientExpectCertificateVerify psk).Sublist
        (s.tls.state.required psk ++ [.chain]) := by
    cases psk <;> simp [State.required]
  unfold clientHandleAnyCertificate
  split_ifs
  · exact settled_of_gives _ clientDoHandleCertificate_gives (hchain _) hs
  · unfold clientHandleCompressedCertificate
    iterate 10 refine (settled_of_quiet hs).bind fun _ _ _ hs => ?_
    exact settled_of_gives _ clientDoHandleCertificate_gives (hchain _) hs
  · exact settled_of_quiet hs

/-- Without certificates the Finished is expected only in a handshake with a pre-shared key. -/
theorem clientHandleEncryptedExtensions_settled {properties : Option HandshakeProperties}
    (hs : s.Authenticated) : Settled (fun _ => Session.Authenticated)
      (clientHandleEncryptedExtensions message properties env s) := by
  unfold clientHandleEncryptedExtensions
  iterate 6 refine (settled_of_quiet hs).bind fun _ t _ hs => ?_
  have ht := hs.deliveries
  rw [modifyTls_bind]
  refine ⟨⟨?_, ht⟩, fun _ => ⟨?_, ht⟩⟩ <;> cases t.tls.isPskHandshake <;> simp [State.required]

variable [Crypto]

theorem handleCertificateVerify_gives {contextString : Bytes} :
    Gives (fun _ => [.signature]) (handleCertificateVerify message contextString) := by
  unfold handleCertificateVerify
  iterate 5 refine .after fun _ => ?_
  intro env s a t hrun
  have hsteps := (inferInstance : Within quietEffects (absorbMessage message)).steps hrun
  refine List.Sublist.trans ?_ (Steps.evidence_sublist hsteps)
  simp [Session.evidence, Event.evidence]

theorem verifyFinished_gives : Gives (fun _ => [.finished]) (verifyFinished message) := by
  unfold verifyFinished
  iterate 5 refine .after fun _ => ?_
  rintro env s a t ⟨⟩
  simp [Session.evidence, Event.evidence]

/-! ## Runs -/

set_option synthInstance.maxSize 512 in
theorem authenticated_isClientHandlerInvariant :
    IsClientHandlerInvariant (fun _ => Session.Authenticated) env where
  weaken _ := id
  steps _ _ _ hsteps := Steps.authenticated hsteps (by simp) (by simp) (.inl (by simp))
  start _ _ _ hstate :=
    settled_of_does (by simp) (by simp; decide) (.inr (by rw [hstate]; decide))
  hello _ _ _ _ hstate _ := settled_of_does (by simp) (by simp; decide)
    (.inr (by rcases hstate with h | h <;> rw [h] <;> decide))
  encryptedExtensions _ _ _ _ _ := clientHandleEncryptedExtensions_settled
  certificateRequest _ _ _ _ := settled_of_does (by simp) (by simp; decide) (.inl (by simp))
  certificate _ _ _ _ _ := clientHandleAnyCertificate_settled
  certificateVerify _ _ hstate _ := settled_of_gives .clientExpectFinished
    handleCertificateVerify_gives (by rw [hstate]; decide)
  finished _ _ _ hstate _ hs := by
    unfold clientHandleFinished
    rw [getTls_bind]
    exact settled_of_gives .clientPostHandshake verifyFinished_gives (by rw [hstate]; decide) hs

/-- In every run of a client the handshake is completed only after a chain with a certificate, a
signature and a Finished of the server were accepted in this order, or the Finished alone where a
pre-shared key is used; after the handshake plaintext is handed over only behind a Finished. -/
theorem client_authenticated (env : Environment) (ctx : Context) (serverName : Option Bytes)
    (operations : List Operation) : (clientRun env ctx serverName operations).Authenticated := by
  refine authenticated_isClientHandlerInvariant.clientRun_inv (fun s hs => ?_) serverName operations
  obtain ⟨htrace, -, _, _, _, htls⟩ := hs
  exact ⟨by rw [htls]; exact List.nil_sublist _, by simp [htrace]⟩

set_option synthInstance.maxSize 512 in
theorem authenticated_isServerInvariant :
    IsServerInvariant (fun _ => Session.Authenticated) env where
  weaken _ := id
  steps _ _ _ hsteps := Steps.authenticated hsteps (by simp) (by simp) (.inl (by simp))
  hello _ _ _ _ hstate := settled_of_does (by simp) (by simp; decide)
    (.inr (by rcases hstate with h | h <;> rw [h] <;> decide))
  resume _ _ _ := settled_of_does (by simp) (by simp; decide) (.inl (by simp))
  certificate _ _ _ _ := settled_of_does (by simp) (by simp; decide) (.inl (by simp))
  certificateVerify _ _ _ _ := settled_of_does (by simp) (by simp; decide) (.inl (by simp))
  endOfEarlyData _ _ _ _ _ hs :=
    (settled_of_does (by simp) (by simp; decide) (.inl (by simp)) hs).1
  finished _ _ _ _ hstate hs := (settled_of_gives .serverPostHandshake verifyFinished_gives
    (by rw [hstate]; decide) hs).1

/-- In every run of a server the handshake is completed, and plaintext is handed over after it, only
once a Finished of the client was accepted. -/
theorem server_authenticated (env : Environment) (ctx : Context) (operations : List Operation) :
    (serverRun env ctx operations).Authenticated := by
  refine authenticated_isServerInvariant.serverRun_inv ⟨List.nil_sublist _, ?_⟩ operations
  simp [Session.newServer, Session.initial]

end Picotls
