import Picotls.Client.HelloMessage
import Picotls.ClientInvariants
import Picotls.Sample

/-!
# How many ClientHellos a client sends

A client answers every HelloRetryRequest with another ClientHello: it does not tell the state in
which it has answered one from the state in which it has not. The number of ClientHellos is bounded
by the number of HelloRetryRequests that the server sends.
-/

namespace Picotls

open Foundation Procedure

variable {α : Type} {message : Bytes} {properties : Option HandshakeProperties} {m : Proc α}

/-! ## Counting hellos -/

/-- The number of ClientHellos in a history. -/
def clientHelloCount (trace : List Event) : ℕ := trace.countP (·.kind = .clientHello)

/-- The step hands a HelloRetryRequest to the client. -/
def Event.isRetry : Event → Bool
  | .hello message => helloIsRetry message
  | _ => false

/-- The number of HelloRetryRequests that were handed to the client. -/
def retryCount (trace : List Event) : ℕ := trace.countP Event.isRetry

section Steps

variable {E : List Effect} {s s' : Session}

/-- Steps that add no hello of the client leave their number alone. -/
theorem Steps.clientHelloCount_eq (h : Via E s s')
    (hE : ∀ e ∈ E, e.emits .clientHello = false) :
    clientHelloCount s'.trace = clientHelloCount s.trace := by
  have hfilter := Steps.filter_kind .clientHello h hE
  simpa [clientHelloCount, List.countP_eq_length_filter] using congrArg List.length hfilter

/-- Steps that add no hello of the server leave the number of HelloRetryRequests alone. -/
theorem Steps.retryCount_eq (h : Via E s s')
    (hE : ∀ e ∈ E, e.emits .hello = false) : retryCount s'.trace = retryCount s.trace := by
  have hfilter := Steps.filter_kind .hello h hE
  have hcount (trace : List Event) :
      retryCount trace = retryCount (trace.filter (·.kind = .hello)) := by
    rw [retryCount, retryCount, List.countP_filter]
    refine List.countP_congr fun event _ => ?_
    cases event <;> simp [Event.isRetry, Event.kind]
  rw [hcount s'.trace, hcount s.trace, hfilter]

/-- Steps that never enter the start do not return to it. -/
theorem Steps.start_of_start (h : Via E s s')
    (hE : .state .clientHandshakeStart ∉ E) (hstart : s'.tls.state = .clientHandshakeStart) :
    s.tls.state = .clientHandshakeStart := by
  refine h.preserves (P := fun t => t.tls.state = .clientHandshakeStart →
    s.tls.state = .clientHandshakeStart) (fun e he t t' hstep ht hstart => ?_) id hstart
  cases hstep with
  | state _ target =>
    obtain rfl : target = .clientHandshakeStart := hstart
    exact absurd he hE
  | _ => exact ht hstart

/-- The effect sends no hello and does not return to the start. -/
def Effect.KeepsHellos (e : Effect) : Bool :=
  !e.emits .clientHello && !e.emits .hello && e ≠ .state .clientHandshakeStart

/-- No hello is sent or received between two states. -/
structure SameHellos (s s' : Session) : Prop where
  sent : clientHelloCount s'.trace = clientHelloCount s.trace
  received : retryCount s'.trace = retryCount s.trace
  start : s'.tls.state = .clientHandshakeStart → s.tls.state = .clientHandshakeStart

theorem Steps.sameHellos (h : Via E s s') (hE : ∀ e ∈ E, e.KeepsHellos) :
    SameHellos s s' := by
  have hkeeps (e : Effect) (he : e ∈ E) : e.emits .clientHello = false ∧ e.emits .hello = false ∧
      e ≠ .state .clientHandshakeStart := by
    simpa [Effect.KeepsHellos, and_assoc] using hE e he
  exact ⟨Steps.clientHelloCount_eq h fun e he => (hkeeps e he).1,
    Steps.retryCount_eq h fun e he => (hkeeps e he).2.1,
    Steps.start_of_start h fun he => (hkeeps _ he).2.2 rfl⟩

theorem sameHellos_of_does [hm : Does E m] (hE : ∀ e ∈ E, e.KeepsHellos) (env : Environment)
    (s : Session) : SameHellos s (m env s).2 :=
  Steps.sameHellos (hm.steps.relates env s) hE

/-- The number of ClientHellos is bounded, and none has been sent before the start. -/
structure RetryInv (live : Bool) (s : Session) : Prop where
  bounded : clientHelloCount s.trace ≤ 1 + retryCount s.trace
  start : live → s.tls.state = .clientHandshakeStart → clientHelloCount s.trace = 0

theorem RetryInv.weaken (hs : RetryInv true s) : RetryInv false s := ⟨hs.bounded, nofun⟩

theorem SameHellos.inv {live : Bool} (h : SameHellos s s') (hs : RetryInv live s) :
    RetryInv live s' := by
  refine ⟨?_, fun hlive hstart => ?_⟩
  · rw [h.sent, h.received]
    exact hs.bounded
  · rw [h.sent]
    exact hs.start hlive (h.start hstart)

/-- Every ClientHello sent so far was followed by a HelloRetryRequest. -/
structure OwesHello (s : Session) : Prop where
  bounded : clientHelloCount s.trace ≤ retryCount s.trace
  start : s.tls.state = .clientHandshakeStart → clientHelloCount s.trace = 0

theorem OwesHello.inv (hs : OwesHello s) (live : Bool) : RetryInv live s := by
  have hbounded := hs.bounded
  exact ⟨by omega, fun _ => hs.start⟩

theorem SameHellos.owes (h : SameHellos s s') (hs : OwesHello s) : OwesHello s' := by
  refine ⟨?_, fun hstart => ?_⟩
  · rw [h.sent, h.received]
    exact hs.bounded
  · rw [h.sent]
    exact hs.start (h.start hstart)

end Steps

/-! ## Hellos -/

variable [Crypto] {env : Environment} {s : Session}

/-- One more ClientHello is sent. -/
theorem sendClientHello_settled {cookie : Option (Option Bytes)} (hconforms : env.Conforms)
    (hs : OwesHello s) : Settled RetryInv (sendClientHello .record properties cookie env s) := by
  unfold sendClientHello
  have hcompose := (sameHellos_of_does (m := composeClientHello .record properties
    (cookie.getD none)) (by decide) env s).owes hs
  refine bind_post (P := OwesHello) (Q := Settled RetryInv) hcompose (fun _ t ht => ?_)
    fun (isSecondFlight, psk, message) s₁ _ hs₁ => ?_
  · exact ⟨ht.inv false, fun _ => ht.inv true⟩
  dsimp only
  rw [getTls_bind, emitEvent_bind, emitEvent_bind]
  set s₂ : Session := { s₁ with trace := s₁.trace ++ [.clientHello s₁.tls.ech.state
    (psk.map fun psk => (psk.hash, psk.secret)) message] ++ [.sent message] } with hs₂
  have hbounded : clientHelloCount s₂.trace ≤ 1 + retryCount s₂.trace := by
    have hsent : clientHelloCount s₂.trace = clientHelloCount s₁.trace + 1 := by
      simp [hs₂, clientHelloCount, Event.kind]
    have hreceived : retryCount s₂.trace = retryCount s₁.trace := by
      simp [hs₂, retryCount, Event.isRetry]
    have howes := hs₁.bounded
    omega
  have hbegin : RetryInv false (beginEarlyData .record isSecondFlight psk env s₂).2 :=
    (sameHellos_of_does (by decide) env s₂).inv ⟨hbounded, nofun⟩
  refine bind_cases (Q := Settled RetryInv) (fun fault t hrun => ?_) fun _ t hrun => ?_ <;>
    rw [hrun] at hbegin
  · refine ⟨hbegin, fun hcont => ?_⟩
    exact absurd hcont (FailsWith.failure (F := Stops) _ _ _ _ hrun hconforms)
  · have hstate : (if cookie.isNone then State.clientExpectServerHello
        else .clientExpectSecondServerHello) ≠ .clientHandshakeStart := by split_ifs <;> decide
    exact ⟨⟨hbegin.bounded, nofun⟩, fun _ => ⟨hbegin.bounded, fun _ hstart => absurd hstart hstate⟩⟩

/-- The effects of the handlers of hellos outside of sending one. -/
abbrev answerlessEffects : List Effect :=
  [.io, .transcript, .advance, .schedule, .dec, .encSecret, .encClear, .encInstall, .negotiation,
    .suite, .psk, .ech, .earlyData, .refuse, .state .clientExpectEncryptedExtensions, .note .derive,
    .note .selectCipher, .note .acceptServerHello, .note .absorb, .note .decideEch,
    .note .exchange, .note .handshakeSecret]

omit [Crypto] in
/-- A part of a handler that precedes the answer. -/
theorem OwesHello.bind {β : Type} {f : α → Proc β} [hm : Within answerlessEffects m]
    (hs : OwesHello s) (hf : ∀ a t, OwesHello t → Settled RetryInv (f a env t)) :
    Settled RetryInv ((m >>= f) env s) := by
  have howes : OwesHello (m env s).2 :=
    (Steps.sameHellos (hm.relates env s) (by decide)).owes hs
  exact bind_post (P := OwesHello) (Q := Settled RetryInv) howes
    (fun _ t ht => ⟨ht.inv false, fun _ => ht.inv true⟩) fun a t _ => hf a t

/-- Answering a HelloRetryRequest. -/
theorem clientHandleRetry_settled {sh : ServerHello} (hconforms : env.Conforms) (hs : OwesHello s) :
    Settled RetryInv (clientHandleRetry .record message sh properties env s) := by
  unfold clientHandleRetry handleHelloRetryRequest
  refine hs.bind fun _ s₁ hs₁ => hs₁.bind fun _ s₂ hs₂ => hs₂.bind fun _ s₃ hs₃ => ?_
  refine hs₃.bind fun _ s₄ hs₄ => (sendClientHello_settled hconforms hs₄).bind fun _ s₅ _ hs₅ => ?_
  exact ⟨hs₅.weaken, fun _ => hs₅⟩

/-- A hello of the server, answered if it is a HelloRetryRequest. -/
theorem clientHandleHello_settled (hconforms : env.Conforms)
    (hstate : s.tls.state ≠ .clientHandshakeStart) (hs : RetryInv true s) :
    Settled RetryInv (clientHandleHello .record message properties env s) := by
  unfold clientHandleHello
  rw [emitEvent_bind]
  set s₁ : Session := { s with trace := s.trace ++ [.hello message] } with hs₁
  have hsent : clientHelloCount s₁.trace = clientHelloCount s.trace := by
    simp [hs₁, clientHelloCount, Event.kind]
  have hreceived : retryCount s₁.trace = retryCount s.trace + (helloIsRetry message).toNat := by
    cases hretry : helloIsRetry message <;> simp [hs₁, retryCount, Event.isRetry, hretry]
  have hinv₁ : RetryInv true s₁ := by
    have hbounded := hs.bounded
    exact ⟨by omega, fun _ hstart => absurd hstart hstate⟩
  have hdecode := sameHellos_of_does (m := clientReadHello message) (by decide) env s₁
  refine bind_cases (Q := Settled RetryInv) (fun fault t hrun => ?_) fun sh t hrun => ?_ <;>
    rw [hrun] at hdecode
  · exact ⟨(hdecode.inv hinv₁).weaken, fun _ => hdecode.inv hinv₁⟩
  have hinv : RetryInv true t := hdecode.inv hinv₁
  split_ifs with hretry
  · -- the request makes up for the hello that is sent in answer to it
    have hisRetry : helloIsRetry message = true := (clientReadHello_eq_ok hrun).1.symm.trans hretry
    refine clientHandleRetry_settled hconforms ⟨?_, fun hstart => ?_⟩
    · have hbounded := hs.bounded
      rw [hdecode.sent, hdecode.received, hsent, hreceived, hisRetry, Bool.toNat_true]
      omega
    · exact absurd (hdecode.start hstart) hstate
  · have hproper : RetryInv true (clientHandleServerHello message sh env t).2 :=
      (sameHellos_of_does (by decide) env t).inv hinv
    exact ⟨hproper.weaken, fun _ => hproper⟩

/-! ## Runs -/

/-- The bound holds throughout the runs of a client. -/
theorem retryInv_isClientInvariant (hconforms : env.Conforms) : IsClientInvariant RetryInv env where
  weaken _ := RetryInv.weaken
  steps _ s s' hsteps hs := (Steps.sameHellos hsteps (by decide)).inv hs
  flight s s' hsteps _ hs := (Steps.sameHellos hsteps (by decide)).inv hs
  start properties s _ hstate hs := by
    have hnone := hs.start rfl hstate
    exact sendClientHello_settled hconforms ⟨by omega, fun _ => hnone⟩
  hello properties message s _ hstate _ hs := by
    refine clientHandleHello_settled hconforms ?_ hs
    rcases hstate with h | h <;> rw [h] <;> decide

/-- In every run of a client to which the server sends at most one HelloRetryRequest, the client
sends at most two ClientHellos. -/
theorem clientHelloCount_le_two (env : Environment) (hconforms : env.Conforms) (ctx : Context)
    (serverName : Option Bytes) (operations : List Operation)
    (hretry : retryCount (clientRun env ctx serverName operations).trace ≤ 1) :
    clientHelloCount (clientRun env ctx serverName operations).trace ≤ 2 := by
  have hinit (s : Session) (hs : s.IsNewClient ctx) : RetryInv true s := by
    have hnone : clientHelloCount s.trace = 0 := by rw [hs.1]; rfl
    exact ⟨by omega, fun _ _ => hnone⟩
  have hbounded := ((retryInv_isClientInvariant hconforms).clientRun_inv hinit serverName
    operations).bounded
  omega

open Sample

omit [Crypto] in
/-- A second HelloRetryRequest is answered like the first: the client goes on, and has sent three
ClientHellos. -/
theorem second_retry_answered :
    let run := @clientRun crypto environment context none
      [.handshake none [], .handshake none (record (retryRequest 0x1301)),
        .handshake none (record (retryRequest 0x1301))]
    run.tls.state = .clientExpectSecondServerHello ∧ clientHelloCount run.trace = 3 := by
  decide +kernel

omit [Crypto] in
/-- The theorem at a run with one HelloRetryRequest, in which two ClientHellos are sent. -/
theorem clientHelloCount_le_two_sample :
    let run := @clientRun crypto environment context none
      [.handshake none [], .handshake none (record (retryRequest 0x1301))]
    retryCount run.trace = 1 ∧ clientHelloCount run.trace = 2 ∧ clientHelloCount run.trace ≤ 2 := by
  refine ⟨by decide +kernel, by decide +kernel, ?_⟩
  exact @clientHelloCount_le_two crypto _ environment_conforms _ _ _
    (by decide +kernel)

end Picotls
