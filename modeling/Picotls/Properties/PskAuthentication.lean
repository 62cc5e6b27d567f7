import Picotls.Client.Schedule
import Picotls.ClientInvariants
import Picotls.Effects.ClientFailures
import Picotls.Sample

/-!
# The early secret of a handshake with a pre-shared key

A client that accepts a pre-shared key relies on the early secret for the authentication of the
server. The early secret is that of the offered key as long as the server names suites with the
hash of the key, and as long as the key was offered from the first ClientHello on. Otherwise the
selection of a suite replaces the early secret by one that everybody can compute.
-/

namespace Picotls

open Foundation Procedure

variable {live : Bool} {message : Bytes} {cs : CipherSuite} {echState : EchState}
  {env : Environment} {trace : List Event} {properties : Option HandshakeProperties}
  {sh : ServerHello} {α β : Type} {x : Except Fault α} {m : Proc α} {f : α → Proc β}

/-- The pre-shared keys that the ClientHellos of a history offer. -/
def offeredPsks (trace : List Event) : List (Option (HashAlgorithm × Bytes)) :=
  trace.filterMap fun event => match event with
    | .clientHello _ psk _ => some psk
    | _ => none

/-- A hello that keeps an offered pre-shared key: a HelloRetryRequest, or a ServerHello that selects
it. -/
def helloKeepsPsk (message : Bytes) : Prop :=
  helloIsRetry message = true ∨ ExtensionType.preSharedKey ∈ helloExtensionTypes message

/-- Every offered pre-shared key is offered by the first ClientHello and is not all zeros, and the
hellos of the server that keep it name suites with its hash. -/
structure PskKept (ctx : Context) (trace : List Event) : Prop where
  first : ∀ psk, some psk ∈ offeredPsks trace → (offeredPsks trace).head? = some (some psk)
  secret : ∀ algo secret, some (algo, secret) ∈ offeredPsks trace → ∃ octet ∈ secret, octet ≠ 0
  hash : ∀ algo secret message cs, some (algo, secret) ∈ offeredPsks trace →
    .hello message ∈ trace → helloKeepsPsk message → helloSuite ctx message = some cs →
    cs.hash = algo

/-- Whenever the client accepts a ServerHello with a pre-shared key, the early secret is that of an
offered key that is not all zeros, under the hash of the key. -/
def PskUsed [Crypto] (trace : List Event) : Prop :=
  ∀ algo early, .acceptServerHello true algo early ∈ trace →
    ∃ secret, some (algo, secret) ∈ offeredPsks trace ∧ early = earlySecret algo secret ∧
      ∃ octet ∈ secret, octet ≠ 0

/-! ## Steps that leave the hellos alone -/

/-- No hello is sent, received or accepted between two states. -/
structure SameHistory (s t : Session) : Prop where
  ctx_eq : t.tls.ctx = s.tls.ctx
  offers : offeredPsks t.trace = offeredPsks s.trace
  hello : ∀ message, .hello message ∈ t.trace ↔ .hello message ∈ s.trace
  accept : ∀ isPsk algo early, .acceptServerHello isPsk algo early ∈ t.trace ↔
    .acceptServerHello isPsk algo early ∈ s.trace

section Steps

variable {E : List Effect} {s t : Session} {ctx : Context}

theorem Steps.offeredPsks_eq (h : Via E s t)
    (hE : ∀ e ∈ E, e.emits .clientHello = false) :
    offeredPsks t.trace = offeredPsks s.trace := by
  have hfilter (trace : List Event) :
      offeredPsks trace = offeredPsks (trace.filter (·.kind = .clientHello)) := by
    rw [offeredPsks, offeredPsks, List.filterMap_filter]
    refine List.filterMap_congr fun event _ => ?_
    cases event <;> rfl
  rw [hfilter t.trace, hfilter s.trace, Steps.filter_kind .clientHello h hE]

/-- The effect adds no hello to the history and leaves the context alone. -/
def Effect.KeepsHistory (e : Effect) : Bool :=
  !e.emits .clientHello && !e.emits .hello && !e.emits .acceptServerHello && e ≠ .context

theorem Steps.sameHistory (h : Via E s t) (hE : ∀ e ∈ E, e.KeepsHistory) :
    SameHistory s t := by
  have hkeeps (e : Effect) (he : e ∈ E) : e.emits .clientHello = false ∧ e.emits .hello = false ∧
      e.emits .acceptServerHello = false ∧ e ≠ .context := by
    simpa [Effect.KeepsHistory, and_assoc] using hE e he
  refine ⟨Steps.ctx_eq h fun he => (hkeeps _ he).2.2.2 rfl,
    Steps.offeredPsks_eq h fun e he => (hkeeps e he).1, fun message => ?_,
    fun isPsk algo early => ?_⟩
  · exact Steps.mem_trace _ h fun e he => (hkeeps e he).2.1
  · exact Steps.mem_trace _ h fun e he => (hkeeps e he).2.2.1

theorem sameHistory_of_run {α : Type} {m : Proc α} {x : Except Fault α} [hm : Does E m]
    (hrun : m env s = (x, t)) (hE : ∀ e ∈ E, e.KeepsHistory) : SameHistory s t :=
  Steps.sameHistory (Within.steps hm.steps hrun) hE

theorem SameHistory.kept (h : SameHistory s t) (ht : PskKept ctx t.trace) :
    PskKept ctx s.trace := by
  refine ⟨?_, ?_, fun algo secret message cs hoffer hhello => ?_⟩
  · rw [← h.offers]
    exact ht.first
  · rw [← h.offers]
    exact ht.secret
  · exact ht.hash algo secret message cs (h.offers ▸ hoffer) ((h.hello message).mpr hhello)

theorem SameHistory.used [Crypto] (h : SameHistory s t) (hs : PskUsed s.trace) :
    PskUsed t.trace := by
  intro algo early haccept
  rw [h.offers]
  exact hs algo early ((h.accept true algo early).mp haccept)

/-! ## The invariant -/

/-- The client has not sent anything. -/
structure NotStarted (s : Session) : Prop where
  algos : s.algos = none
  suite : s.tls.cipherSuite = none
  offers : offeredPsks s.trace = []
  isPskHandshake : s.tls.isPskHandshake = false
  offeredPsk : s.tls.offeredPsk = false

/-- A ClientHello is answered or to be answered: the schedule has the early secret of the
pre-shared key that was offered first, and the slot of its hash comes first. -/
structure Waiting [Crypto] (ctx : Context) (s : Session) : Prop where
  isPskHandshake : s.tls.isPskHandshake = false
  offeredPsk : s.tls.offeredPsk = true → ∃ psk, some psk ∈ offeredPsks s.trace
  offers : offeredPsks s.trace ≠ []
  started : s.algos.isSome
  schedule : PskKept ctx s.trace → ∀ algo secret,
    (offeredPsks s.trace).head? = some (some (algo, secret)) →
    (∃ rest, s.algos = some (algo :: rest)) ∧ s.secret = some (1, earlySecret algo secret)

/-- The client waits for a hello. -/
def State.AwaitsHello (state : State) : Prop :=
  state = .clientExpectServerHello ∨ state = .clientExpectSecondServerHello

instance (state : State) : Decidable state.AwaitsHello := inferInstanceAs (Decidable (_ ∨ _))

structure PskInv [Crypto] (ctx : Context) (live : Bool) (s : Session) : Prop where
  ctx_eq : s.tls.ctx = ctx
  used : PskKept ctx s.trace → PskUsed s.trace
  start : live → s.tls.state = .clientHandshakeStart → NotStarted s
  waiting : live → s.tls.state.AwaitsHello → Waiting ctx s

variable [Crypto]

theorem PskInv.weaken (hs : PskInv ctx true s) : PskInv ctx false s :=
  ⟨hs.ctx_eq, hs.used, nofun, nofun⟩

/-- Without a live handshake only the history matters. -/
theorem SameHistory.dead (h : SameHistory s t) (hs : PskInv ctx live s) : PskInv ctx false t :=
  ⟨h.ctx_eq.trans hs.ctx_eq, fun hkept => h.used (hs.used (h.kept hkept)), nofun, nofun⟩

/-- Steps that leave the schedule and the use of a pre-shared key alone. -/
def Effect.KeepsWaiting (e : Effect) : Bool :=
  e.KeepsHistory && e ≠ .schedule && e ≠ .advance && e ≠ .psk

omit [Crypto] in
theorem Steps.sameWaiting (h : Via E s t) (hE : ∀ e ∈ E, e.KeepsWaiting) :
    SameHistory s t ∧ (t.tls.isPskHandshake = s.tls.isPskHandshake ∧
      t.tls.offeredPsk = s.tls.offeredPsk) ∧ t.algos = s.algos ∧ t.secret = s.secret := by
  have hkeeps (e : Effect) (he : e ∈ E) :
      e.KeepsHistory ∧ e ≠ .schedule ∧ e ≠ .advance ∧ e ≠ .psk := by
    simpa [Effect.KeepsWaiting, and_assoc] using hE e he
  have hschedule : .schedule ∉ E := fun he => (hkeeps _ he).2.1 rfl
  exact ⟨Steps.sameHistory h fun e he => (hkeeps e he).1,
    Steps.psk_eq h fun he => (hkeeps _ he).2.2.2 rfl, Steps.algos_eq h hschedule,
    Steps.secret_eq h hschedule fun he => (hkeeps _ he).2.2.1 rfl⟩

theorem Waiting.of_steps (h : Via E s t) (hE : ∀ e ∈ E, e.KeepsWaiting)
    (hs : Waiting ctx s) : Waiting ctx t := by
  obtain ⟨hsame, hpsk, halgos, hsecret⟩ := Steps.sameWaiting h hE
  refine ⟨hpsk.1.trans hs.isPskHandshake, ?_, ?_, halgos ▸ hs.started, fun hkept => ?_⟩
  · rw [hpsk.2, hsame.offers]
    exact hs.offeredPsk
  · rw [hsame.offers]
    exact hs.offers
  · rw [hsame.offers, halgos, hsecret]
    exact hs.schedule (hsame.kept hkept)

theorem Waiting.of_run [hm : Does E m] (hrun : m env s = (x, t)) (hE : ∀ e ∈ E, e.KeepsWaiting)
    (hs : Waiting ctx s) : Waiting ctx t :=
  hs.of_steps (Within.steps hm.steps hrun) hE

omit [Crypto] in
theorem NotStarted.of_steps (h : Via E s t) (hE : ∀ e ∈ E, e.KeepsWaiting)
    (hsuite : .suite ∉ E) (hs : NotStarted s) : NotStarted t := by
  obtain ⟨hsame, hpsk, halgos, -⟩ := Steps.sameWaiting h hE
  exact ⟨halgos.trans hs.algos, (Steps.suite_eq h hsuite).trans hs.suite,
    hsame.offers.trans hs.offers, hpsk.1.trans hs.isPskHandshake, hpsk.2.trans hs.offeredPsk⟩

/-- Steps that do not concern hellos keep the invariant. -/
theorem PskInv.of_steps (h : Via E s t) (hE : ∀ e ∈ E, e.KeepsWaiting)
    (hsuite : .suite ∉ E) (hstates : ∀ target, .state target ∉ E) (hs : PskInv ctx live s) :
    PskInv ctx live t := by
  have hsame := (Steps.sameWaiting h hE).1
  have hstate := Steps.state_eq h hstates
  refine ⟨hsame.ctx_eq.trans hs.ctx_eq, fun hkept => hsame.used (hs.used (hsame.kept hkept)),
    fun hlive hstart => ?_, fun hlive hwaits => ?_⟩
  · exact (hs.start hlive (hstate ▸ hstart)).of_steps h hE hsuite
  · exact (hs.waiting hlive (hstate ▸ hwaits)).of_steps h hE

/-- In the server's flight only the history matters. -/
theorem PskInv.of_flight (h : Via E s t) (hE : ∀ e ∈ E, e.KeepsHistory)
    (hstates : ∀ target, .state target ∈ E → target ≠ .clientHandshakeStart ∧ ¬ target.AwaitsHello)
    (hstate : s.tls.state.IsFlight) (hs : PskInv ctx true s) : PskInv ctx true t := by
  have hsame := Steps.sameHistory h hE
  have hlate : t.tls.state ≠ .clientHandshakeStart ∧ ¬ t.tls.state.AwaitsHello := by
    refine h.preserves (P := fun t => t.tls.state ≠ .clientHandshakeStart ∧
      ¬ t.tls.state.AwaitsHello) (fun e he u u' hstep hu => ?_) ?_
    · cases hstep <;> first | exact hu | exact hstates _ he
    · revert hstate
      cases s.tls.state <;> decide
  exact ⟨hsame.ctx_eq.trans hs.ctx_eq, fun hkept => hsame.used (hs.used (hsame.kept hkept)),
    fun _ h => absurd h hlate.1, fun _ h => absurd h hlate.2⟩

end Steps

/-! ## Hellos of the client -/

variable [Crypto] {s t : Session} {ctx : Context}

omit [Crypto] in
theorem offeredPsks_append_clientHello (trace : List Event) (echState : EchState)
    (psk : Option (HashAlgorithm × Bytes)) (message : Bytes) :
    offeredPsks (trace ++ [.clientHello echState psk message] ++ [.sent message]) =
      offeredPsks trace ++ [psk] := by
  simp [offeredPsks]

omit [Crypto] in
/-- What is kept with one more ClientHello was kept before. -/
theorem PskKept.before_clientHello {psk : Option (HashAlgorithm × Bytes)}
    (h : PskKept ctx (trace ++ [.clientHello echState psk message] ++ [.sent message])) :
    PskKept ctx trace := by
  have hoffers := offeredPsks_append_clientHello trace echState psk message
  refine ⟨fun p hp => ?_, fun algo secret hp => ?_, fun algo secret message' cs hp hhello => ?_⟩
  · have hfirst := h.first p (by rw [hoffers]; exact List.mem_append_left _ hp)
    rw [hoffers, List.head?_append_of_ne_nil _ (List.ne_nil_of_mem hp)] at hfirst
    exact hfirst
  · exact h.secret algo secret (by rw [hoffers]; exact List.mem_append_left _ hp)
  · exact h.hash algo secret message' cs (by rw [hoffers]; exact List.mem_append_left _ hp)
      (by simp [hhello])

theorem PskUsed.clientHello {psk : Option (HashAlgorithm × Bytes)} (h : PskUsed trace) :
    PskUsed (trace ++ [.clientHello echState psk message] ++ [.sent message]) := by
  intro algo early haccept
  obtain ⟨secret, hoffer, huse⟩ := h algo early (by simpa using haccept)
  refine ⟨secret, ?_, huse⟩
  rw [offeredPsks_append_clientHello]
  exact List.mem_append_left _ hoffer

/-- The state after a ClientHello entered the history. -/
abbrev Session.afterHello (s : Session) (psk : Option OfferedPsk) (message : Bytes) : Session :=
  { s with trace := s.trace ++ [.clientHello s.tls.ech.state
    (psk.map fun psk => (psk.hash, psk.secret)) message] ++ [.sent message] }

/-- A first ClientHello starts the schedule with the pre-shared key it offers, and a later one keeps
the schedule. -/
theorem waiting_afterHello {psk : Option OfferedPsk} (message : Bytes)
    (h : ComposesHello psk s t) (hsame : SameHistory s t)
    (hs : NotStarted s ∨ Waiting ctx s) : Waiting ctx (t.afterHello psk message) := by
  have hoffers : offeredPsks (t.afterHello psk message).trace =
      offeredPsks s.trace ++ [psk.map fun psk => (psk.hash, psk.secret)] := by
    rw [offeredPsks_append_clientHello, hsame.offers]
  have hisPsk : s.tls.isPskHandshake = false := by
    rcases hs with hs | hs <;> exact hs.isPskHandshake
  have hoffered : t.tls.offeredPsk = true →
      ∃ p, some p ∈ offeredPsks (t.afterHello psk message).trace := by
    intro htrue
    rw [hoffers]
    cases psk with
    | some p => exact ⟨_, List.mem_append_right _ (List.mem_singleton_self _)⟩
    | none =>
      rw [h.offeredPsk rfl] at htrue
      rcases hs with hs | hs
      · simp [hs.offeredPsk] at htrue
      · obtain ⟨p, hp⟩ := hs.offeredPsk htrue
        exact ⟨p, List.mem_append_left _ hp⟩
  have hhistory : PskKept ctx (t.afterHello psk message).trace → PskKept ctx s.trace :=
    fun hkept => hsame.kept hkept.before_clientHello
  rcases hs with hs | hs
  · have hnone : s.tls.keySchedule = none := by simpa [Session.algos] using hs.algos
    obtain ⟨algos, algo, ikm, halgos, hhead, hsecret, hpsk⟩ := h.first hnone hs.suite
    refine ⟨h.isPskHandshake.trans hisPsk, hoffered, by rw [hoffers]; simp,
      by simpa [Session.algos] using congrArg Option.isSome halgos,
        fun hkept algo' secret hfirst => ?_⟩
    rw [hoffers, hs.offers] at hfirst
    obtain ⟨p, rfl, hp⟩ := Option.map_eq_some_iff.mp (Option.some.inj hfirst)
    obtain ⟨rfl, rfl⟩ := hpsk p rfl
    obtain ⟨rfl, rfl⟩ := Prod.mk.inj hp
    obtain ⟨rest, rfl⟩ : ∃ rest, algos = p.hash :: rest := by
      cases algos with
      | nil => cases hhead
      | cons head rest =>
        cases hhead
        exact ⟨rest, rfl⟩
    exact ⟨⟨rest, halgos⟩, hsecret⟩
  · have hsome : s.tls.keySchedule.isSome := by simpa [Session.algos] using hs.started
    obtain ⟨halgos, hsecret⟩ := h.second hsome
    have halgos' : (t.afterHello psk message).algos = s.algos := halgos
    have hsecret' : (t.afterHello psk message).secret = s.secret := hsecret
    refine ⟨h.isPskHandshake.trans hisPsk, hoffered, by rw [hoffers]; simp,
      halgos' ▸ hs.started, fun hkept algo secret hfirst => ?_⟩
    rw [hoffers, List.head?_append_of_ne_nil _ hs.offers] at hfirst
    rw [halgos', hsecret']
    exact hs.schedule (hhistory hkept) algo secret hfirst

/-- A ClientHello that was sent is waited upon. -/
theorem sendClientHello_pskSettled {cookie : Option (Option Bytes)} (hconforms : env.Conforms)
    (hcreates : env.CreatesKeys)
    (hstate : s.tls.state = .clientHandshakeStart ∨ s.tls.state.AwaitsHello)
    (hs : PskInv ctx true s) :
    Settled (PskInv ctx) (sendClientHello .record properties cookie env s) := by
  have hready : NotStarted s ∨ Waiting ctx s :=
    hstate.imp (hs.start rfl) (hs.waiting rfl)
  unfold sendClientHello
  refine bind_cases (Q := Settled (PskInv ctx)) (fun fault t hrun => ?_)
    fun (isSecondFlight, psk, message) t hrun => ?_
  · have hsame : SameHistory s t := sameHistory_of_run hrun (by decide)
    refine ⟨hsame.dead hs, fun hcont => ?_⟩
    rcases composeClientHello_error hrun with hstops | ⟨-, hsteps⟩
    · exact absurd hcont (hstops hconforms hcreates)
    · exact hs.of_steps hsteps (by decide) (by decide) (by simp)
  · have hsame : SameHistory s t := sameHistory_of_run hrun (by decide)
    have hwaiting : Waiting ctx (t.afterHello psk message) :=
      waiting_afterHello message (composeClientHello_eq_ok hrun) hsame hready
    have hdead : PskInv ctx false (t.afterHello psk message) := by
      refine ⟨hsame.ctx_eq.trans hs.ctx_eq, fun hkept => ?_, nofun, nofun⟩
      exact (hsame.used (hs.used (hsame.kept hkept.before_clientHello))).clientHello
    dsimp only
    rw [getTls_bind, emitEvent_bind, emitEvent_bind]
    refine bind_cases (Q := Settled (PskInv ctx)) (fun fault u hrun => ?_) fun _ u hrun => ?_ <;>
      have hsame' : SameHistory _ u := sameHistory_of_run hrun (by decide)
    · refine ⟨hsame'.dead hdead, fun hcont => ?_⟩
      exact absurd hcont (FailsWith.failure (F := Stops) _ _ _ _ hrun hconforms)
    · have hwaiting' : Waiting ctx u := hwaiting.of_run hrun (by decide)
      have hstart : (if cookie.isNone then State.clientExpectServerHello
          else .clientExpectSecondServerHello) ≠ .clientHandshakeStart := by split_ifs <;> decide
      refine ⟨⟨(hsame'.dead hdead).ctx_eq, (hsame'.dead hdead).used, nofun, nofun⟩, fun _ => ?_⟩
      exact ⟨(hsame'.dead hdead).ctx_eq, (hsame'.dead hdead).used, fun _ h => absurd h hstart,
        fun _ _ => ⟨hwaiting'.1, hwaiting'.2, hwaiting'.3, hwaiting'.4, hwaiting'.5⟩⟩

/-! ## Hellos of the server -/

/-- The effects of answering a HelloRetryRequest, apart from selecting a suite and from sending the
answer. -/
abbrev retryEffects : List Effect :=
  [.io, .transcript, .encClear, .negotiation, .ech, .earlyData, .note .derive, .note .absorb,
    .note .decideEch]

/-- A part of a handler that does not concern the schedule. -/
theorem PskInv.bind [hm : Within retryEffects m] (hstate : s.tls.state.AwaitsHello)
    (hs : PskInv ctx true s)
    (hf : ∀ a t, t.tls.state.AwaitsHello → PskInv ctx true t → Settled (PskInv ctx) (f a env t)) :
    Settled (PskInv ctx) ((m >>= f) env s) := by
  have hsteps := hm.relates env s
  refine bind_post (P := fun t => t.tls.state.AwaitsHello ∧ PskInv ctx true t)
    (Q := Settled (PskInv ctx)) ⟨?_, ?_⟩ (fun _ t ht => ⟨ht.2.weaken, fun _ => ht.2⟩)
    fun a t _ ht => hf a t ht.1 ht.2
  · rw [Steps.state_eq hsteps (by simp)]
    exact hstate
  · exact hs.of_steps hsteps (by decide) (by decide) (by simp)

/-- The suite of a HelloRetryRequest has the hash of the offered pre-shared key, so selecting it
keeps the early secret. -/
theorem keyScheduleSelectCipher_waiting {resetIkm : Option Bytes}
    (hrun : keyScheduleSelectCipher cs false resetIkm env s = (.ok (), t))
    (hhello : .hello message ∈ s.trace) (hretry : helloIsRetry message = true)
    (hcs : helloSuite ctx message = some cs) (hs : Waiting ctx s) : Waiting ctx t := by
  have hsteps : Via [.io, .advance, .schedule, .note .derive, .note .selectCipher]
      s t := Within.steps inferInstance hrun
  have hsame := Steps.sameHistory hsteps (by decide)
  have hpsk := Steps.psk_eq hsteps (by decide)
  have halgos' := keyScheduleSelectCipher_algos hrun
  refine ⟨hpsk.1.trans hs.isPskHandshake, ?_, ?_, by rw [halgos']; rfl,
    fun hkept algo secret hfirst => ?_⟩
  · rw [hpsk.2, hsame.offers]
    exact hs.offeredPsk
  · rw [hsame.offers]
    exact hs.offers
  · rw [hsame.offers] at hfirst
    obtain ⟨⟨rest, halgos⟩, hsecret⟩ := hs.schedule (hsame.kept hkept) algo secret hfirst
    have hoffer : some (algo, secret) ∈ offeredPsks s.trace := List.mem_of_head? hfirst
    have hhash : cs.hash = algo :=
      (hsame.kept hkept).hash algo secret message cs hoffer hhello (.inl hretry) hcs
    have hsecret' := keyScheduleSelectCipher_secret hrun (hhash ▸ halgos)
    exact ⟨⟨[], hhash ▸ halgos'⟩, hsecret'.trans hsecret⟩

/-- A HelloRetryRequest is answered with a ClientHello of the same schedule. -/
theorem clientHandleRetry_pskSettled (hconforms : env.Conforms) (hcreates : env.CreatesKeys)
    (hhello : .hello message ∈ s.trace) (hretry : helloIsRetry message = true)
    (hcs : helloSuite ctx message = some cs) (hsuite : s.tls.cipherSuite = some cs)
    (hstate : s.tls.state.AwaitsHello) (hs : PskInv ctx true s) :
    Settled (PskInv ctx) (clientHandleRetry .record message sh properties env s) := by
  unfold clientHandleRetry clientAbsorbRetry
  simp only [Procedure.bind_assoc]
  rw [getTls_bind, bind_of_ok (deref_eq_ok.mpr ⟨hsuite, rfl⟩)]
  refine bind_cases (Q := Settled (PskInv ctx)) (fun fault t hrun => ?_) fun _ t hrun => ?_ <;>
    have hsame : SameHistory s t := sameHistory_of_run hrun (by decide)
  · refine ⟨hsame.dead hs, fun hcont => ?_⟩
    exact absurd hcont (FailsWith.failure (F := Stops) _ _ _ _ hrun hconforms)
  have hsteps : Via [.io, .advance, .schedule, .note .derive, .note .selectCipher]
      s t := Within.steps inferInstance hrun
  have hstate' : t.tls.state.AwaitsHello := by
    rw [Steps.state_eq hsteps (by simp)]
    exact hstate
  have hinv : PskInv ctx true t := by
    have hdead := hsame.dead hs
    refine ⟨hdead.ctx_eq, hdead.used, fun _ hstart => ?_, fun _ _ => ?_⟩
    · rw [hstart] at hstate'
      exact absurd hstate' (by decide)
    · exact keyScheduleSelectCipher_waiting hrun hhello hretry hcs (hs.waiting rfl hstate)
  refine hinv.bind hstate' fun _ s₁ hstate₁ hs₁ => hs₁.bind hstate₁ fun _ s₂ hstate₂ hs₂ =>
    hs₂.bind hstate₂ fun _ s₃ hstate₃ hs₃ => ?_
  unfold handleHelloRetryRequest
  refine hs₃.bind hstate₃ fun _ s₄ hstate₄ hs₄ => hs₄.bind hstate₄ fun _ s₅ hstate₅ hs₅ =>
    hs₅.bind hstate₅ fun _ s₆ hstate₆ hs₆ => ?_
  exact (sendClientHello_pskSettled hconforms hcreates (.inr hstate₆) hs₆).bind fun _ _ _ h =>
    ⟨h.weaken, fun _ => h⟩

/-- A ServerHello is about to be accepted: if it selects a pre-shared key, the schedule has the
early secret of an offered one. -/
structure Accepting (ctx : Context) (s : Session) : Prop where
  ctx_eq : s.tls.ctx = ctx
  used : PskKept ctx s.trace → PskUsed s.trace
  early : PskKept ctx s.trace → s.tls.isPskHandshake = true → ∃ algo secret rest,
    some (algo, secret) ∈ offeredPsks s.trace ∧ s.algos = some (algo :: rest) ∧
    s.secret = some (1, earlySecret algo secret)

theorem Accepting.dead (hs : Accepting ctx s) : PskInv ctx false s :=
  ⟨hs.ctx_eq, hs.used, nofun, nofun⟩

theorem Accepting.of_steps {E : List Effect} (h : Via E s t)
    (hE : ∀ e ∈ E, e.KeepsWaiting) (hs : Accepting ctx s) : Accepting ctx t := by
  obtain ⟨hsame, hpsk, halgos, hsecret⟩ := Steps.sameWaiting h hE
  have hdead := hsame.dead hs.dead
  refine ⟨hdead.ctx_eq, hdead.used, fun hkept hused => ?_⟩
  rw [hsame.offers, halgos, hsecret]
  exact hs.early (hsame.kept hkept) (hpsk.1 ▸ hused)

/-- The outcome of handling a ServerHello: the server's flight is awaited, unless the handler
fails. -/
def Accepts (ctx : Context) {α : Type} (outcome : Except Fault α × Session) : Prop :=
  PskInv ctx false outcome.2 ∧
    ∀ a, outcome.1 = .ok a → outcome.2.tls.state = .clientExpectEncryptedExtensions

/-- The effects of the steps between the selection of a suite and the derivation of keys. -/
abbrev acceptingEffects : List Effect :=
  [.io, .transcript, .negotiation, .ech, .note .derive, .note .absorb, .note .decideEch,
    .note .exchange]

theorem Accepting.bind [hm : Within acceptingEffects m] (hs : Accepting ctx s)
    (hf : ∀ a t, Accepting ctx t → Accepts ctx (f a env t)) : Accepts ctx ((m >>= f) env s) :=
  bind_post (P := Accepting ctx) (Q := Accepts ctx) (hs.of_steps (hm.relates env s) (by decide))
    (fun _ _ ht => ⟨ht.dead, nofun⟩) fun a t _ ht => hf a t ht

set_option synthInstance.maxSize 256 in
/-- The early secret enters the history before the handshake secret is derived from it. -/
theorem clientDeriveHandshakeKeys_accepts {ecdhSecret : Option Bytes} (hs : Accepting ctx s) :
    PskInv ctx false (clientDeriveHandshakeKeys ecdhSecret env s).2 := by
  unfold clientDeriveHandshakeKeys
  rw [getTls_bind]
  refine bind_cases (Q := fun p => PskInv ctx false p.2) (fun fault t hrun => ?_)
    fun slot t hrun => ?_
  · exact (sameHistory_of_run hrun (by decide)).dead hs.dead
  obtain ⟨sched, hsched, hslot, ht⟩ := firstHash_eq_ok.mp hrun
  rw [ht, bind_of_ok (getKeySchedule_eq_ok.mpr ⟨hsched, rfl⟩), emitEvent_bind]
  set s₁ : Session := { s with trace := s.trace ++
    [.acceptServerHello s.tls.isPskHandshake slot.algo sched.secret] } with hs₁
  have hoffers : offeredPsks s₁.trace = offeredPsks s.trace := by simp [hs₁, offeredPsks]
  have hkept (h : PskKept ctx s₁.trace) : PskKept ctx s.trace := by
    refine ⟨hoffers ▸ h.first, hoffers ▸ h.secret, fun algo secret message cs hoffer hhello => ?_⟩
    exact h.hash algo secret message cs (hoffers ▸ hoffer) (List.mem_append_left _ hhello)
  have hinv : PskInv ctx false s₁ := by
    refine ⟨hs.ctx_eq, fun h algo early haccept => ?_, nofun, nofun⟩
    rw [hoffers]
    rcases List.mem_append.mp haccept with hold | hnew
    · exact hs.used (hkept h) algo early hold
    · obtain ⟨hpsk, rfl, rfl⟩ : true = s.tls.isPskHandshake ∧ algo = slot.algo ∧
        early = sched.secret := by simpa using hnew
      obtain ⟨algo, secret, rest, hoffer, halgos, hsecret⟩ := hs.early (hkept h) hpsk.symm
      have hfirst : slot.algo = algo := by
        have hmap : sched.hashes.map HashSlot.algo = algo :: rest := by
          simpa [Session.algos, hsched] using halgos
        simpa [hslot] using congrArg List.head? hmap
      have hearly : sched.secret = earlySecret algo secret := by
        simpa [Session.secret, hsched] using congrArg (Option.map Prod.snd) hsecret
      exact ⟨secret, hfirst ▸ hoffer, hfirst ▸ hearly, (hkept h).secret algo secret hoffer⟩
  exact SameHistory.dead (Steps.sameHistory (E := [.io, .advance, .dec, .encSecret, .encClear,
    .encInstall, .earlyData, .note .derive, .note .handshakeSecret]) (Respects.relates env s₁)
    (by decide)) hinv

/-- A ServerHello that selects a pre-shared key names a suite with the hash of the key, so selecting
the suite keeps the early secret. -/
theorem clientHandleServerHello_accepts (hsuite : s.tls.cipherSuite = some cs)
    (hhash : PskKept ctx s.trace → s.tls.isPskHandshake = true → ∀ algo secret,
      some (algo, secret) ∈ offeredPsks s.trace → cs.hash = algo)
    (hs : Accepting ctx s) : Accepts ctx (clientHandleServerHello message sh env s) := by
  unfold clientHandleServerHello
  dsimp only
  rw [getTls_bind, bind_of_ok (deref_eq_ok.mpr ⟨hsuite, rfl⟩)]
  refine bind_cases (Q := Accepts ctx) (fun fault t hrun => ?_) fun _ t hrun => ?_ <;>
    have hsame : SameHistory s t := sameHistory_of_run hrun (by decide)
  · exact ⟨hsame.dead hs.dead, nofun⟩
  have hsteps : Via [.io, .advance, .schedule, .note .derive, .note .selectCipher]
      s t := Within.steps inferInstance hrun
  have haccepting : Accepting ctx t := by
    have hdead := hsame.dead hs.dead
    refine ⟨hdead.ctx_eq, hdead.used, fun hkept hpsk => ?_⟩
    rw [(Steps.psk_eq hsteps (by decide)).1] at hpsk
    rw [hpsk, Bool.not_true, Bool.and_false] at hrun
    obtain ⟨algo, secret, rest, hoffer, halgos, hsecret⟩ := hs.early (hsame.kept hkept) hpsk
    have heq : cs.hash = algo := hhash (hsame.kept hkept) hpsk algo secret hoffer
    refine ⟨algo, secret, [], hsame.offers ▸ hoffer, ?_, ?_⟩
    · rw [keyScheduleSelectCipher_algos hrun, heq]
    · rw [keyScheduleSelectCipher_secret hrun (heq ▸ halgos), hsecret]
  refine haccepting.bind fun _ s₁ hs₁ => hs₁.bind fun _ s₂ hs₂ => hs₂.bind fun _ s₃ hs₃ =>
    hs₃.bind fun _ s₄ hs₄ => hs₄.bind fun _ s₅ hs₅ => hs₅.bind fun ecdhSecret s₆ hs₆ => ?_
  refine bind_post (P := PskInv ctx false) (Q := Accepts ctx)
    (clientDeriveHandshakeKeys_accepts hs₆)
    (fun _ _ h => ⟨h, nofun⟩) fun _ u _ hu => ⟨⟨hu.ctx_eq, hu.used, nofun, nofun⟩, fun _ _ => rfl⟩

/-- A hello of the server enters the history. -/
theorem PskInv.hello (message : Bytes) (hs : PskInv ctx true s) :
    PskInv ctx true { s with trace := s.trace ++ [.hello message] } := by
  have hoffers : offeredPsks (s.trace ++ [.hello message]) = offeredPsks s.trace := by
    simp [offeredPsks]
  have hkept (h : PskKept ctx (s.trace ++ [.hello message])) : PskKept ctx s.trace := by
    refine ⟨hoffers ▸ h.first, hoffers ▸ h.secret, fun algo secret message' cs hoffer hhello => ?_⟩
    exact h.hash algo secret message' cs (hoffers ▸ hoffer) (List.mem_append_left _ hhello)
  refine ⟨hs.ctx_eq, fun h algo early haccept => ?_, fun hlive hstart => ?_, fun hlive hwaits => ?_⟩
  · rw [hoffers]
    exact hs.used (hkept h) algo early (by simpa using haccept)
  · obtain ⟨halgos, hsuite, hnone, hisPsk, hoffered⟩ := hs.start hlive hstart
    exact ⟨halgos, hsuite, hoffers.trans hnone, hisPsk, hoffered⟩
  · obtain ⟨hisPsk, hoffered, hsome, hstarted, hschedule⟩ := hs.waiting hlive hwaits
    exact ⟨hisPsk, hoffers.symm ▸ hoffered, hoffers.symm ▸ hsome, hstarted,
      fun h => hoffers.symm ▸ hschedule (hkept h)⟩

/-- Handling a hello settles the invariant. -/
theorem clientHandleHello_pskSettled (hconforms : env.Conforms) (hcreates : env.CreatesKeys)
    (hstate : s.tls.state.AwaitsHello) (hs : PskInv ctx true s) :
    Settled (PskInv ctx) (clientHandleHello .record message properties env s) := by
  unfold clientHandleHello
  rw [emitEvent_bind]
  have hinv₁ := hs.hello message
  have hhello₁ : .hello message ∈ s.trace ++ [.hello message] :=
    List.mem_append_right _ (List.mem_singleton_self _)
  have hpauses := clientReadHello_pauses hconforms message
    { s with trace := s.trace ++ [.hello message] }
  refine bind_cases (Q := Settled (PskInv ctx)) (fun fault t hrun => ?_) fun sh t hrun => ?_ <;>
    rw [hrun] at hpauses <;> have hsame : SameHistory _ t := sameHistory_of_run hrun (by decide)
  · refine ⟨hsame.dead hinv₁, fun hcont => ?_⟩
    have hsteps := hpauses fault rfl hcont
    have hstate' := Steps.state_eq hsteps (by simp)
    have hdead := hsame.dead hinv₁
    refine ⟨hdead.ctx_eq, hdead.used, fun _ hstart => ?_, fun _ _ => ?_⟩
    · rw [hstate'] at hstart
      rw [hstart] at hstate
      exact absurd hstate (by decide)
    · exact (hinv₁.waiting rfl hstate).of_steps hsteps (by decide)
  obtain ⟨hisRetry, -, -, cs, psk, hfind, htls, hpsk, hretryPsk, -⟩ := clientReadHello_eq_ok hrun
  have hcs : helloSuite ctx message = some cs := by rw [← hs.ctx_eq]; exact hfind
  have hsuite : t.tls.cipherSuite = some cs := by rw [htls]
  have hhello : .hello message ∈ t.trace := (hsame.hello message).mpr hhello₁
  have hwaits : t.tls.state.AwaitsHello := by rw [htls]; exact hstate
  have hwaiting := hinv₁.waiting rfl hstate
  have hdead := hsame.dead hinv₁
  have hisPsk : t.tls.isPskHandshake = psk := by rw [htls]
  have halgos : t.algos = s.algos := by rw [Session.algos, Session.algos, htls]
  have hsecret : t.secret = s.secret := by rw [Session.secret, Session.secret, htls]
  split_ifs with hretry
  · have hretry' : helloIsRetry message = true := hisRetry.symm.trans hretry
    refine clientHandleRetry_pskSettled hconforms hcreates hhello hretry' hcs hsuite hwaits
      ⟨hdead.ctx_eq, hdead.used, fun _ hstart => ?_, fun _ _ => ?_⟩
    · rw [hstart] at hwaits
      exact absurd hwaits (by decide)
    · refine ⟨hisPsk.trans ((hretryPsk hretry').trans hwaiting.isPskHandshake), fun hoffered => ?_,
        hsame.offers.symm ▸ hwaiting.offers, halgos ▸ hwaiting.started, fun hkept => ?_⟩
      · rw [htls] at hoffered
        rw [hsame.offers]
        exact hwaiting.offeredPsk hoffered
      · rw [hsame.offers, halgos, hsecret]
        exact hwaiting.schedule (hsame.kept hkept)
  · -- a pre-shared key that is selected here was offered, and first of all in the first hello
    have hselects (htrue : t.tls.isPskHandshake = true) : s.tls.offeredPsk = true ∧
        ExtensionType.preSharedKey ∈ helloExtensionTypes message := by
      rcases hpsk (hisPsk.symm.trans htrue) with hwas | ⟨-, hoffered, htype⟩
      · exact absurd (hwaiting.isPskHandshake.symm.trans hwas) Bool.false_ne_true
      · exact ⟨hoffered, htype⟩
    have haccepting : Accepting ctx t := by
      refine ⟨hdead.ctx_eq, hdead.used, fun hkept htrue => ?_⟩
      obtain ⟨⟨algo, secret⟩, hoffer⟩ := hwaiting.offeredPsk (hselects htrue).1
      have hkept₁ := hsame.kept hkept
      obtain ⟨⟨rest, halgos₁⟩, hsecret₁⟩ :=
        hwaiting.schedule hkept₁ algo secret (hkept₁.first _ hoffer)
      exact ⟨algo, secret, rest, hsame.offers.symm ▸ hoffer, halgos.trans halgos₁,
        hsecret.trans hsecret₁⟩
    have haccepts : Accepts ctx (clientHandleServerHello message sh env t) :=
      clientHandleServerHello_accepts hsuite (fun hkept htrue algo secret hoffer =>
        hkept.hash algo secret message cs hoffer hhello (.inr (hselects htrue).2) hcs) haccepting
    refine ⟨haccepts.1, fun hcont => ?_⟩
    rcases hrun' : clientHandleServerHello message sh env t with ⟨fault | progress, u⟩ <;>
      rw [hrun'] at haccepts hcont
    · exact absurd hcont (FailsWith.failure (F := Stops) _ _ _ _ hrun' hconforms)
    · have hflight : u.tls.state = .clientExpectEncryptedExtensions := haccepts.2 progress rfl
      refine ⟨haccepts.1.ctx_eq, haccepts.1.used, fun _ hstart => ?_, fun _ hawaits => ?_⟩
      · rw [hflight] at hstart
        cases hstart
      · rw [hflight] at hawaits
        exact absurd hawaits (by decide)

/-! ## Runs -/

theorem pskInv_isClientInvariant (hconforms : env.Conforms) (hcreates : env.CreatesKeys) :
    IsClientInvariant (PskInv ctx) env where
  weaken _ := PskInv.weaken
  steps _ s s' hsteps hs := hs.of_steps hsteps (by decide) (by decide) (by simp)
  flight s s' hsteps hstate hs := hs.of_flight hsteps (by decide) (by simp; decide) hstate
  start properties s _ hstate hs :=
    sendClientHello_pskSettled hconforms hcreates (.inl hstate) hs
  hello properties message s _ hstate _ hs :=
    clientHandleHello_pskSettled hconforms hcreates hstate hs

/-- In every run of a client in which offered pre-shared keys are kept, a ServerHello that is
accepted with a pre-shared key leaves the early secret of an offered key that is not all zeros,
under the hash of that key. -/
theorem psk_early_secret (env : Environment) (hconforms : env.Conforms)
    (hcreates : env.CreatesKeys) (ctx : Context) (serverName : Option Bytes)
    (operations : List Operation)
    (hkept : PskKept ctx (clientRun env ctx serverName operations).trace) :
    PskUsed (clientRun env ctx serverName operations).trace := by
  have hinit (s : Session) (hs : s.IsNewClient ctx) : PskInv ctx true s := by
    obtain ⟨htrace, -, _, _, _, htls⟩ := hs
    refine ⟨by rw [htls]; rfl, fun _ algo early haccept => ?_, fun _ _ => ?_, fun _ hwaits => ?_⟩
    · rw [htrace] at haccept
      cases haccept
    · exact ⟨by rw [Session.algos, htls]; rfl, by rw [htls]; rfl, by rw [htrace]; rfl,
        by rw [htls]; rfl, by rw [htls]; rfl⟩
    · rw [htls] at hwaits
      rcases hwaits with h | h <;> cases h
  exact ((pskInv_isClientInvariant hconforms hcreates).clientRun_inv hinit serverName
    operations).used hkept

namespace Sample

/-- A ServerHello that selects the pre-shared key and names a suite. -/
def pskHello (suite : ℕ) : List Operation :=
  [.handshake none [], .handshake none (record (hello (zeros 32) suite
    (helloExtensions ++ [0, 41] ++ block 2 [0, 0])))]

end Sample

open Sample

omit [Crypto] in
/-- The client accepts the pre-shared key with a suite of another hash, and the early secret is that
of zeros. -/
theorem psk_accepted_with_zeros :
    let run := @clientRun crypto environment pskContext none
      (pskHello 0x1302)
    run.tls.state = .clientExpectEncryptedExtensions ∧
      offeredPsks run.trace = [some (Sample.hash 0, [2, 3])] ∧
      .acceptServerHello true (Sample.hash 1)
        (@earlySecret crypto (Sample.hash 1) (zeros 2)) ∈ run.trace ∧
      ¬ @PskUsed crypto run.trace := by
  have hoffers : offeredPsks (@clientRun crypto environment pskContext none
      (pskHello 0x1302)).trace = [some (Sample.hash 0, [2, 3])] := by decide +kernel
  have haccepts : .acceptServerHello true (Sample.hash 1)
      (@earlySecret crypto (Sample.hash 1) (zeros 2)) ∈
      (@clientRun crypto environment pskContext none
        (pskHello 0x1302)).trace := by decide +kernel
  refine ⟨by decide +kernel, hoffers, haccepts, fun hused => ?_⟩
  obtain ⟨secret, hoffer, -⟩ := hused _ _ haccepts
  rw [hoffers] at hoffer
  simp [Sample.hash] at hoffer

omit [Crypto] in
theorem pskKept_of_offer {algo : HashAlgorithm} {secret : Bytes}
    (hoffers : offeredPsks trace = [some (algo, secret)]) (hsecret : ∃ octet ∈ secret, octet ≠ 0)
    (hhashes : ∀ algo' ∈ helloHashes ctx trace, algo' = algo) : PskKept ctx trace := by
  refine ⟨fun psk hpsk => ?_, fun algo' secret' hpsk => ?_,
    fun algo' secret' message cs hpsk hhello _ hcs => ?_⟩
  · simp_all
  · simp_all
  · rw [hhashes _ (hash_mem_helloHashes hhello hcs)]
    simp_all

omit [Crypto] in
/-- The theorem at a run in which the client accepts the pre-shared key with a suite of its hash. -/
theorem psk_early_secret_sample :
    let run := @clientRun crypto environment pskContext none
      (pskHello 0x1301)
    run.trace.any (·.kind = .acceptServerHello) = true ∧ @PskUsed crypto run.trace := by
  refine ⟨by decide +kernel, ?_⟩
  refine @psk_early_secret crypto _ environment_conforms (fun _ _ _ h => by cases h) _
    _ _ (@pskKept_of_offer _ _ (Sample.hash 0) [2, 3] ?_ ?_ ?_) <;> decide +kernel

end Picotls
