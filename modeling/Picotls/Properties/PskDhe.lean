import Picotls.Client.Schedule
import Picotls.ClientInvariants
import Picotls.Sample
import Picotls.ServerInvariants

/-!
# Key exchange under a pre-shared key

A context may require that a handshake with a pre-shared key also exchanges keys. A server keeps to
this, as the hello it answers is stripped of the mode without a key exchange; but it goes on when
memory is short for the extraction of the handshake secret. A client does not look at the option
when it accepts a ServerHello, and keeps to it only as long as the server sends a key share.
-/

namespace Picotls

open Foundation Procedure

variable [Crypto]

variable {isSecondFlight : Bool} {message : Bytes} {ch : ClientHello} {mode : HandshakeMode}
  {early : KeySchedule} {E : List Effect} {trace trace' : List Event}
  {keyShare : Option (KeyExchangeAlgorithm × Bytes)} {ikm peerkey shared : Option Bytes}
  {properties : Option HandshakeProperties} {α β : Type} {m : Proc α} {f : α → Proc β}

/-! ## Histories -/

/-- The handshake secret was extracted from a shared secret, and that was computed from a key share
of the peer. -/
def FromKeyShare (trace : List Event) (early : KeySchedule) (shared secret : Option Bytes) : Prop :=
  ∃ peerkey octets slot, .exchangeKeys peerkey octets ∈ trace ∧ shared = some octets ∧
    early.hashes.head? = some slot ∧ secret = some (early.extract slot.algo shared).secret

/-- Every handshake secret under a pre-shared key comes from a key share. -/
def PskUsesDhe (trace : List Event) : Prop :=
  ∀ early shared secret, .deriveHandshake true early shared secret ∈ trace →
    FromKeyShare trace early shared secret

/-- The handshake secret of the connection was extracted. -/
def Session.HasDerived (s : Session) : Prop :=
  ∃ early shared secret, .deriveHandshake s.tls.isPskHandshake early shared secret ∈ s.trace

/-- A handshake that is complete and used a pre-shared key has a handshake secret, and every such
secret comes from a key share. -/
def Session.PskCompletesWithDhe (s : Session) : Prop :=
  PskUsesDhe s.trace ∧ (s.tls.state.IsPostHandshake → s.tls.isPskHandshake →
    ∃ early shared secret, .deriveHandshake true early shared secret ∈ s.trace)

/-- Every ServerHello in a history carries a key share. -/
def HellosShareKeys (trace : List Event) : Prop :=
  ∀ message, .hello message ∈ trace → helloIsRetry message = false →
    ExtensionType.keyShare ∈ helloExtensionTypes message

theorem FromKeyShare.mono {secret : Option Bytes} (h : FromKeyShare trace early shared secret)
    (hgrows : trace <+: trace') : FromKeyShare trace' early shared secret := by
  obtain ⟨peerkey, octets, slot, hmem, hsecret⟩ := h
  exact ⟨peerkey, octets, slot, hgrows.mem hmem, hsecret⟩

omit [Crypto] in
theorem HellosShareKeys.of_prefix (h : HellosShareKeys trace') (hgrows : trace <+: trace') :
    HellosShareKeys trace :=
  fun message hmem => h message (hgrows.mem hmem)

section Steps

variable {s s' : Session}

/-- Steps that extract no handshake secret keep what is known of those in the history. -/
theorem PskUsesDhe.of_steps (h : Via E s s')
    (hE : ∀ e ∈ E, e.emits .handshakeSecret = false) (hs : PskUsesDhe s.trace) :
    PskUsesDhe s'.trace := by
  intro early shared secret hmem
  have hold := (Steps.mem_trace (.deriveHandshake true early shared secret) h hE).mp hmem
  exact (hs early shared secret hold).mono (Steps.trace_prefix h)

omit [Crypto] in
theorem Session.HasDerived.of_steps (h : Via E s s') (hE : .psk ∉ E)
    (hs : s.HasDerived) : s'.HasDerived := by
  obtain ⟨early, shared, secret, hmem⟩ := hs
  refine ⟨early, shared, secret, ?_⟩
  rw [(Steps.psk_eq h hE).1]
  exact (Steps.trace_prefix h).mem hmem

end Steps

/-- What deriving the handshake keys leaves behind: an invariant, and after a success the handshake
secret. -/
def DerivesOrFails {α : Type} (Pending : Session → Prop) (outcome : Except Fault α × Session) :
    Prop :=
  Pending outcome.2 ∧ ∀ a, outcome.1 = .ok a → outcome.2.HasDerived

/-! ## Clients -/

/-- The client has not accepted a ServerHello yet. -/
def State.HelloPending (state : State) : Prop :=
  state.rank < State.rank .clientExpectEncryptedExtensions

instance (state : State) : Decidable state.HelloPending := inferInstanceAs (Decidable (_ < _))

/-- What holds throughout the runs of a client. -/
structure ClientDheInv (s : Session) : Prop where
  uses : HellosShareKeys s.trace → PskUsesDhe s.trace
  derived : ¬ s.tls.state.HelloPending → s.HasDerived

section Steps

variable {s s' : Session}

theorem ClientDheInv.of_steps (h : Via E s s')
    (hE : ∀ e ∈ E, e.emits .handshakeSecret = false) (hs : ClientDheInv s)
    (hderived : ¬ s'.tls.state.HelloPending → s'.HasDerived) : ClientDheInv s' where
  uses hshare := (hs.uses (hshare.of_prefix (Steps.trace_prefix h))).of_steps h hE
  derived := hderived

omit [Crypto] in
/-- Steps that enter only states before the ServerHello stay there. -/
theorem Steps.helloPending (h : Via E s s')
    (hE : ∀ state, .state state ∈ E → state.HelloPending) (hs : s.tls.state.HelloPending) :
    s'.tls.state.HelloPending :=
  Steps.state_inv h hE hs

/-- The client awaits a ServerHello, and the invariant holds. -/
def ClientDhePending (s : Session) : Prop := s.tls.state.HelloPending ∧ ClientDheInv s

theorem ClientDhePending.of_steps (h : Via E s s')
    (hE : ∀ e ∈ E, e.emits .handshakeSecret = false)
    (hstates : ∀ state, .state state ∈ E → state.HelloPending) (hs : ClientDhePending s) :
    ClientDhePending s' := by
  have hpending := Steps.helloPending h hstates hs.1
  exact ⟨hpending, hs.2.of_steps h hE fun hnot => absurd hpending hnot⟩

end Steps

variable {env : Environment} {s t : Session}

theorem ClientDhePending.of_does [hm : Does E m] (hs : ClientDhePending s)
    (hE : ∀ e ∈ E, e.emits .handshakeSecret = false)
    (hstates : ∀ state, .state state ∈ E → state.HelloPending) : ClientDhePending (m env s).2 :=
  hs.of_steps (hm.steps.relates env s) hE hstates

/-- The effects of the parts of the handler of a ServerHello that precede the key exchange. -/
abbrev acceptEffects : List Effect :=
  [.io, .transcript, .advance, .schedule, .suite, .psk, .ech, .negotiation, .refuse, .note .derive,
    .note .hello, .note .selectCipher, .note .absorb, .note .decideEch, .note .exchange]

/-- The client awaits a ServerHello, and handles one with a key share. -/
def ClientDheKeyed (peerkey : Option Bytes) (s : Session) : Prop :=
  ClientDhePending s ∧ (HellosShareKeys s.trace → peerkey.isSome)

theorem ClientDheKeyed.of_steps (h : Via E s t)
    (hE : ∀ e ∈ E, e.emits .handshakeSecret = false) (hstates : ∀ state, .state state ∉ E)
    (hs : ClientDheKeyed peerkey s) : ClientDheKeyed peerkey t :=
  ⟨hs.1.of_steps h hE fun state hmem => absurd hmem (hstates state),
    fun hshare => hs.2 (hshare.of_prefix (Steps.trace_prefix h))⟩

theorem ClientDheKeyed.bind [hm : Within acceptEffects m] (hs : ClientDheKeyed peerkey s)
    (hf : ∀ a t, m env s = (.ok a, t) → ClientDheKeyed peerkey t → ClientDheInv (f a env t).2) :
    ClientDheInv ((m >>= f) env s).2 :=
  bind_post (P := ClientDheKeyed peerkey) (Q := fun p => ClientDheInv p.2)
    (hs.of_steps (hm.relates env s) (by decide) (by simp)) (fun _ _ ht => ht.1.2) hf

omit [Crypto] in
/-- The shared secret comes from the key share of the hello. -/
theorem clientExchangeKeys_eq_ok (h : clientExchangeKeys peerkey env s = (.ok shared, t)) :
    (shared.isSome ↔ peerkey.isSome) ∧
      ∀ octets, shared = some octets → ∃ key, .exchangeKeys key octets ∈ t.trace := by
  cases peerkey with
  | none =>
    cases h
    exact ⟨Iff.rfl, nofun⟩
  | some key =>
    unfold clientExchangeKeys at h
    obtain ⟨tls, s₁, -, h⟩ := bind_eq_ok.mp h
    obtain ⟨ctx, s₂, -, h⟩ := bind_eq_ok.mp h
    obtain ⟨answer, s₃, -, h⟩ := bind_eq_ok.mp h
    obtain ⟨_, s₄, -, h⟩ := bind_eq_ok.mp h
    obtain ⟨secret, s₅, -, h⟩ := bind_eq_ok.mp h
    rw [emitEvent_bind] at h
    cases h
    refine ⟨Iff.rfl, fun octets heq => ⟨key, ?_⟩⟩
    obtain rfl := Option.some.inj heq
    simp

/-- The secret of the schedule after an extraction. -/
theorem keyScheduleExtract_secret (h : keyScheduleExtract ikm env s = (.ok (), t))
    (hearly : s.tls.keySchedule = some early) :
    ∃ slot, early.hashes.head? = some slot ∧
      t.tls.keySchedule.map KeySchedule.secret = some (early.extract slot.algo ikm).secret := by
  obtain ⟨sched, slot, hsched, hslot, htls⟩ := keyScheduleExtract_eq_ok h
  obtain rfl : early = sched := Option.some.inj (hearly.symm.trans hsched)
  exact ⟨slot, hslot, by rw [htls]; rfl⟩

omit [Crypto] in
theorem noteHandshakeSecret_bind (early : KeySchedule) (shared : Option Bytes) (f : Unit → Proc β) :
    (noteHandshakeSecret early shared >>= f) env s =
      f () env (noteHandshakeSecret early shared env s).2 := rfl

/-- An extraction of the handshake secret from the shared secret of a key share, if the history is
one in which there has to be a key share. -/
theorem PskUsesDhe.noteHandshakeSecret (hs : PskUsesDhe s.trace)
    (hshared : s.tls.isPskHandshake = true → ∃ octets, shared = some octets)
    (hexchanged : ∀ octets, shared = some octets → ∃ key, .exchangeKeys key octets ∈ s.trace)
    (hsecret : ∃ slot, early.hashes.head? = some slot ∧
      s.tls.keySchedule.map KeySchedule.secret = some (early.extract slot.algo shared).secret) :
    PskUsesDhe (noteHandshakeSecret early shared env s).2.trace := by
  have hgrows : s.trace <+: (Picotls.noteHandshakeSecret early shared env s).2.trace :=
    List.prefix_append _ _
  intro early' shared' secret' hmem
  rcases List.mem_append.mp hmem with hold | hnew
  · exact (hs _ _ _ hold).mono hgrows
  · obtain ⟨hpsk, rfl, rfl, rfl⟩ : true = s.tls.isPskHandshake ∧ early' = early ∧ shared' = shared ∧
        secret' = s.tls.keySchedule.map KeySchedule.secret := by simpa using hnew
    obtain ⟨octets, rfl⟩ := hshared hpsk.symm
    obtain ⟨key, hkey⟩ := hexchanged octets rfl
    obtain ⟨slot, hslot, hextract⟩ := hsecret
    exact ⟨key, octets, slot, hgrows.mem hkey, rfl, hslot, hextract⟩

/-- The keys have been exchanged, if the hello carries a key share. -/
structure ClientDheExchanged (shared : Option Bytes) (s : Session) : Prop where
  pending : ClientDhePending s
  keyed : HellosShareKeys s.trace → ∃ octets, shared = some octets
  exchanged : ∀ octets, shared = some octets → ∃ key, .exchangeKeys key octets ∈ s.trace

theorem ClientDheExchanged.of_steps (h : Via E s t)
    (hE : ∀ e ∈ E, e.emits .handshakeSecret = false) (hstates : ∀ state, .state state ∉ E)
    (hs : ClientDheExchanged shared s) :
    ClientDheExchanged shared t where
  pending := hs.pending.of_steps h hE fun state hmem => absurd hmem (hstates state)
  keyed hshare := hs.keyed (hshare.of_prefix (Steps.trace_prefix h))
  exchanged octets heq := by
    obtain ⟨key, hmem⟩ := hs.exchanged octets heq
    exact ⟨key, (Steps.trace_prefix h).mem hmem⟩

theorem ClientDheExchanged.bind
    [hm : Within [.io, .advance, .note .derive, .note .acceptServerHello] m]
    (hs : ClientDheExchanged shared s)
    (hf : ∀ a t, m env s = (.ok a, t) → ClientDheExchanged shared t →
      DerivesOrFails ClientDhePending (f a env t)) :
    DerivesOrFails ClientDhePending ((m >>= f) env s) :=
  bind_post (P := ClientDheExchanged shared)
    (hs.of_steps (hm.relates env s) (by decide) (by simp)) (fun _ _ ht => ⟨ht.pending, nofun⟩) hf

set_option synthInstance.maxSize 256 in
/-- Deriving the handshake keys leaves a handshake secret behind if it succeeds. -/
theorem clientDeriveHandshakeKeys_dhe (hs : ClientDheExchanged shared s) :
    DerivesOrFails ClientDhePending (clientDeriveHandshakeKeys shared env s) := by
  refine hs.bind fun tls s₁ _ hs₁ => hs₁.bind fun slot s₂ _ hs₂ => ?_
  refine hs₂.bind fun early s₃ hearly hs₃ => hs₃.bind fun _ s₄ hemit hs₄ => ?_
  refine hs₄.bind fun _ s₅ hextract hs₅ => ?_
  have hearly₄ : s₄.tls.keySchedule = some early := by
    obtain ⟨hearly, rfl⟩ := getKeySchedule_eq_ok.mp hearly
    rw [tls_eq_of_run hemit (by simp [Effect.IsQuiet])]
    exact hearly
  -- from here on the handshake secret is in the history
  obtain ⟨⟨hpending, hinv⟩, hshared, hexchanged⟩ := hs₅
  set s₆ := (noteHandshakeSecret early shared env s₅).2 with hs₆
  have hderived : s₆.HasDerived :=
    ⟨early, shared, s₅.tls.keySchedule.map KeySchedule.secret, by simp [hs₆,
    noteHandshakeSecret, getTls_bind, emitEvent]⟩
  have hpending₆ : ClientDhePending s₆ := by
    refine ⟨hpending, fun hshare => ?_, fun hnot => absurd hpending hnot⟩
    have hshare₅ := hshare.of_prefix (List.prefix_append _ _ : s₅.trace <+: s₆.trace)
    exact (hinv.uses hshare₅).noteHandshakeSecret (fun _ => hshared hshare₅) hexchanged
      (keyScheduleExtract_secret hextract hearly₄)
  have hrest (E : List Effect) {m : Proc Unit} [hm : Within E m]
      (hE : ∀ e ∈ E, e.emits .handshakeSecret = false) (hpsk : .psk ∉ E)
      (hstates : ∀ state, .state state ∉ E) : DerivesOrFails ClientDhePending (m env s₆) := by
    have hsteps := hm.relates env s₆
    exact ⟨hpending₆.of_steps hsteps hE fun state hmem => absurd hmem (hstates state),
      fun _ _ => hderived.of_steps hsteps hpsk⟩
  rw [noteHandshakeSecret_bind]
  exact hrest [.io, .advance, .dec, .encSecret, .encClear, .encInstall, .earlyData, .note .derive]
    (by decide) (by decide) (by simp)

/-- Handling a ServerHello keeps the invariant. -/
theorem clientHandleServerHello_dhe {sh : ServerHello} (hs : ClientDheKeyed sh.peerkey s) :
    ClientDheInv (clientHandleServerHello message sh env s).2 := by
  refine hs.bind fun tls s₁ _ hs₁ => hs₁.bind fun suite s₂ _ hs₂ => ?_
  refine hs₂.bind fun _ s₃ _ hs₃ => hs₃.bind fun _ s₄ _ hs₄ => hs₄.bind fun _ s₅ _ hs₅ => ?_
  refine hs₅.bind fun _ s₆ _ hs₆ => hs₆.bind fun _ s₇ _ hs₇ => hs₇.bind fun _ s₈ _ hs₈ => ?_
  refine hs₈.bind fun shared s₉ hexchange hs₉ => ?_
  obtain ⟨hsome, hexchanged⟩ := clientExchangeKeys_eq_ok hexchange
  have hderives : DerivesOrFails ClientDhePending (clientDeriveHandshakeKeys shared env s₉) :=
    clientDeriveHandshakeKeys_dhe ⟨hs₉.1, fun hshare =>
      Option.isSome_iff_exists.mp (hsome.mpr (hs₉.2 hshare)), hexchanged⟩
  refine bind_cases (Q := fun p => ClientDheInv p.2) (fun fault t hrun => ?_) fun u t hrun => ?_ <;>
    rw [hrun] at hderives
  · exact hderives.1.2
  · exact ⟨hderives.1.2.uses, fun _ => hderives.2 u rfl⟩

theorem clientHandleHello_dhe (hs : ClientDhePending s) :
    ClientDheInv (clientHandleHello .record message properties env s).2 := by
  unfold clientHandleHello
  rw [emitEvent_bind]
  set s₁ : Session := { s with trace := s.trace ++ [.hello message] } with hs₁
  have hpending₁ : ClientDhePending s₁ := hs.of_steps
    (.single ⟨.note .hello, List.mem_singleton_self _, .note s (.hello message)⟩) (by decide)
      (by simp)
  have hmem₁ : .hello message ∈ s₁.trace := by simp [hs₁]
  have hread : Within [.io, .suite, .psk, .refuse] (clientReadHello message) := inferInstance
  refine bind_cases (Q := fun p => ClientDheInv p.2) (fun fault t hrun => ?_)
    fun sh t hrun => ?_ <;>
    have hsteps := hread.steps hrun <;>
    have hpending := hpending₁.of_steps hsteps (by decide) (by simp)
  · exact hpending.2
  obtain ⟨hretry, hpeerkey, -⟩ := clientReadHello_eq_ok hrun
  have hmem := (Steps.trace_prefix hsteps).mem hmem₁
  split_ifs with hflag
  · exact (hpending.of_does (m := clientHandleRetry .record message sh properties) (by decide)
      (by simp; decide)).2
  · refine clientHandleServerHello_dhe ⟨hpending, fun hshare => hpeerkey.mpr ?_⟩
    have hproper : helloIsRetry message = false := by simpa [hretry] using hflag
    exact ⟨hproper, hshare message hmem hproper⟩

theorem clientDheInv_isClientInvariant : IsClientInvariant (fun _ => ClientDheInv) env where
  weaken _ := id
  steps _ s s' hsteps hs := by
    refine hs.of_steps hsteps (by decide) fun hnot => ?_
    rw [Steps.state_eq hsteps (by simp)] at hnot
    exact (hs.derived hnot).of_steps hsteps (by decide)
  flight s s' hsteps hstate hs := by
    have hderived := hs.derived (by rw [State.HelloPending, not_lt]; exact hstate.1)
    exact hs.of_steps hsteps (by decide) fun _ => hderived.of_steps hsteps (by decide)
  start properties s _ hstate hs := by
    have hs' : ClientDhePending (sendClientHello .record properties none env s).2 :=
      ClientDhePending.of_does ⟨by rw [hstate]; decide, hs⟩ (by decide) (by simp; decide)
    exact ⟨hs'.2, fun _ => hs'.2⟩
  hello properties message s _ hstate _ hs := by
    have hs' : ClientDheInv (clientHandleHello .record message properties env s).2 :=
      clientHandleHello_dhe ⟨by rcases hstate with h | h <;> rw [h] <;> decide, hs⟩
    exact ⟨hs', fun _ => hs'⟩

/-! ## Servers -/

/-- The context of the connection requires a key exchange. -/
def Session.RequiresDhe (s : Session) : Prop := s.tls.ctx.requireDheOnPsk = true

/-- The contexts that the application puts in place require a key exchange. -/
def Environment.KeepsRequirement (env : Environment) : Prop :=
  ∀ tick params ctx, (env.onClientHello tick params).context = some ctx → ctx.requireDheOnPsk = true

omit [Crypto] in
theorem Session.RequiresDhe.of_steps (h : Via E s t) (hE : .context ∉ E)
    (hs : s.RequiresDhe) : t.RequiresDhe := by
  rw [Session.RequiresDhe, Steps.ctx_eq h hE]
  exact hs

omit [Crypto] in
theorem Session.RequiresDhe.bind [hm : Within [.io, .ech, .refuse] m] (hs : s.RequiresDhe)
    (hf : ∀ a t, t.RequiresDhe → (f a env t).2.RequiresDhe) : ((m >>= f) env s).2.RequiresDhe :=
  bind_post (P := Session.RequiresDhe) (Q := fun p => p.2.RequiresDhe)
    (hs.of_steps (hm.relates env s) (by decide)) (fun _ _ => id) fun a t _ => hf a t

omit [Crypto] in
theorem Session.RequiresDhe.after (hm : (m env s).2.RequiresDhe)
    (hf : ∀ a t, t.RequiresDhe → (f a env t).2.RequiresDhe) : ((m >>= f) env s).2.RequiresDhe :=
  bind_post (P := Session.RequiresDhe) (Q := fun p => p.2.RequiresDhe) hm (fun _ _ => id)
    fun a t _ => hf a t

section Requirement

variable (henv : env.KeepsRequirement)

include henv

omit [Crypto] in
theorem callOnClientHello_requires (params : OnClientHelloParameters) (hs : s.RequiresDhe) :
    (callOnClientHello params env s).2.RequiresDhe := by
  unfold callOnClientHello runIf
  rw [getTls_bind]
  split_ifs
  · rw [ask_bind, modifyTls_bind]
    have hctx :
        ((env.onClientHello s.tick params).context.getD s.tls.ctx).requireDheOnPsk = true := by
      cases hnew : (env.onClientHello s.tick params).context with
      | none => exact hs
      | some ctx => exact henv _ _ ctx hnew
    exact Session.RequiresDhe.of_steps (E := []) (Respects.relates env _) (by simp) hctx
  · exact hs

omit [Crypto] in
theorem refuseVersion_requires (ch : ClientHello) (prevRandom : Option Bytes) (echIsInnerCh : Bool)
    (rawMessage : Bytes) (hs : s.RequiresDhe) :
    (refuseVersion ch prevRandom echIsInnerCh rawMessage env s).2.RequiresDhe := by
  unfold refuseVersion runIf
  refine hs.bind fun _ s₁ hs₁ => ?_
  split_ifs
  · exact Session.RequiresDhe.after (callOnClientHello_requires henv _ hs₁) fun _ _ ht => ht
  · exact hs₁

omit [Crypto] in
theorem checkClientHelloConstraints_requires (ch : ClientHello) (prevRandom : Option Bytes)
    (echIsInnerCh : Bool) (rawMessage : Bytes) (hs : s.RequiresDhe) :
    (checkClientHelloConstraints ch prevRandom echIsInnerCh rawMessage env s).2.RequiresDhe := by
  unfold checkClientHelloConstraints
  refine hs.bind fun _ s₁ hs₁ => .after ?_ fun _ s₂ hs₂ => ?_
  · unfold runIf
    split_ifs
    · exact refuseVersion_requires henv _ _ _ _ hs₁
    · exact hs₁
  · exact hs₂.of_steps (E := []) (Respects.relates env s₂) (by decide)

omit [Crypto] in
theorem serverAdoptInnerHello_requires (encoded message : Bytes) (outerCh : ClientHello)
    (isSecondFlight : Bool) (properties : Option HandshakeProperties) (hs : s.RequiresDhe) :
    (serverAdoptInnerHello encoded message outerCh isSecondFlight properties env
      s).2.RequiresDhe := by
  refine hs.bind fun _ s₁ hs₁ => hs₁.bind fun inner s₂ hs₂ => hs₂.bind fun ch s₃ hs₃ => ?_
  refine hs₃.bind fun tls s₄ hs₄ => ?_
  refine .after (checkClientHelloConstraints_requires henv _ _ _ _ hs₄) fun _ s₅ hs₅ => ?_
  exact hs₅.of_steps (E := [.ech]) (Respects.relates env s₅) (by decide)

theorem serverHandleEch_requires (message : Bytes) (ch : ClientHello) (isSecondFlight : Bool)
    (properties : Option HandshakeProperties) (hs : s.RequiresDhe) :
    (serverHandleEch message ch isSecondFlight properties env s).2.RequiresDhe := by
  unfold serverHandleEch
  generalize ch.ech = ech
  rcases ech with _ | ⟨kdf, aeadId, configId, enc, payload, payloadOff⟩ | _
  · exact hs.of_steps (E := []) (Respects.relates env s) (by decide)
  · refine hs.bind fun _ s₁ hs₁ => hs₁.bind fun tls s₂ hs₂ => ?_
    cases tls.ech.aead with
    | none => exact hs₂
    | some aead =>
      unfold serverOpenEch
      refine hs₂.bind fun _ s₃ hs₃ => hs₃.bind fun _ s₄ hs₄ => hs₄.bind fun _ s₅ hs₅ => ?_
      generalize aead.decrypt payload _ _ = opened
      cases opened with
      | some encoded => exact serverAdoptInnerHello_requires henv _ _ _ _ _ hs₅
      | none => exact hs₅.of_steps (E := [.ech]) (Respects.relates env s₅) (by decide)
  · exact hs

omit [Crypto] in
theorem serverAdmitHello_requires (message : Bytes) (ch : ClientHello) (isSecondFlight : Bool)
    (hs : s.RequiresDhe) : (serverAdmitHello message ch isSecondFlight env s).2.RequiresDhe := by
  unfold serverAdmitHello
  split_ifs
  · refine .after (hs.of_steps (E := [.misc]) (Respects.relates env s) (by decide))
      fun _ s₁ hs₁ => ?_
    refine .after (callOnClientHello_requires henv _ hs₁) fun _ s₂ hs₂ => ?_
    exact hs₂.of_steps (E := []) (Respects.relates env s₂) (by decide)
  · exact hs.of_steps (E := []) (Respects.relates env s) (by decide)

end Requirement

/-- What holds throughout the runs of a server. -/
structure ServerDheInv (s : Session) : Prop where
  requires : s.RequiresDhe
  uses : PskUsesDhe s.trace
  derived : s.tls.state.HasAnswered → s.HasDerived

/-- The server has not answered a hello yet, and the invariant holds. -/
structure ServerDhePending (s : Session) : Prop where
  pending : ¬ s.tls.state.HasAnswered
  requires : s.RequiresDhe
  uses : PskUsesDhe s.trace

theorem ServerDhePending.inv (hs : ServerDhePending s) : ServerDheInv s :=
  ⟨hs.requires, hs.uses, fun hanswered => absurd hanswered hs.pending⟩

theorem ServerDhePending.of_steps (h : Via E s t)
    (hE : ∀ e ∈ E, e.emits .handshakeSecret = false) (hstates : ∀ state, .state state ∉ E)
    (hrequires : t.RequiresDhe) (hs : ServerDhePending s) : ServerDhePending t where
  pending := by rw [Steps.state_eq h hstates]; exact hs.pending
  requires := hrequires
  uses := hs.uses.of_steps h hE

omit [Crypto] in
/-- Steps that enter only states before the answer stay before it. -/
theorem Steps.notAnswered (h : Via E s t)
    (hE : ∀ state, .state state ∈ E → ¬ state.HasAnswered) (hs : ¬ s.tls.state.HasAnswered) :
    ¬ t.tls.state.HasAnswered :=
  Steps.state_inv (P := (¬ State.HasAnswered ·)) h hE hs

/-- The effects of the parts of the answer that precede the handshake secret. -/
abbrev beforeSecretEffects : List Effect :=
  [.io, .draw, .transcript, .advance, .schedule, .dec, .encrypt, .negotiation, .suite, .psk, .ech,
    .earlyData, .misc, .refuse, .note .derive, .note .finishedMac, .note .sent, .note .absorb,
    .note .exchange, .note .acceptEarly]

theorem ServerDhePending.bind [hm : Within beforeSecretEffects m] (hs : ServerDhePending s)
    (hf : ∀ a t, m env s = (.ok a, t) → ServerDhePending t → ServerDheInv (f a env t).2) :
    ServerDheInv ((m >>= f) env s).2 := by
  have hsteps := hm.relates env s
  have hafter := hs.of_steps hsteps (by decide) (by simp) (hs.requires.of_steps hsteps (by decide))
  exact bind_post (P := ServerDhePending) (Q := fun p => ServerDheInv p.2) hafter
    (fun _ _ ht => ht.inv) hf

/-- A part that may replace the context. -/
theorem ServerDhePending.bind_context [hm : Does E m]
    (hE : ∀ e ∈ E, e.emits .handshakeSecret = false) (hstates : ∀ state, .state state ∉ E)
    (hrequires : (m env s).2.RequiresDhe) (hs : ServerDhePending s)
    (hf : ∀ a t, m env s = (.ok a, t) → ServerDhePending t → ServerDheInv (f a env t).2) :
    ServerDheInv ((m >>= f) env s).2 :=
  bind_post (P := ServerDhePending) (Q := fun p => ServerDheInv p.2)
    (hs.of_steps (hm.steps.relates env s) hE hstates hrequires) (fun _ _ ht => ht.inv) hf

/-- Without the mode that has no key exchange in the hello, the server exchanges keys. -/
theorem serverSettleMode_ne_psk {psk : Option SelectedPsk}
    (h : serverSettleMode message ch psk isSecondFlight properties env s = (.ok mode, t))
    (hmodes : pskKeModePsk ∉ ch.pskKeModes) : mode ≠ .psk := by
  unfold serverSettleMode at h
  rw [getTls_bind] at h
  generalize psk.filter _ = selected at h
  cases selected with
  | none =>
    obtain ⟨_, s₁, -, h⟩ := bind_eq_ok.mp h
    obtain ⟨_, s₂, -, h⟩ := bind_eq_ok.mp h
    obtain ⟨_, s₃, -, h⟩ := bind_eq_ok.mp h
    obtain ⟨_, s₄, -, h⟩ := bind_eq_ok.mp h
    cases h
    decide
  | some psk =>
    obtain ⟨_, s₁, -, h⟩ := bind_eq_ok.mp h
    obtain ⟨_, s₂, -, h⟩ := bind_eq_ok.mp h
    obtain ⟨_, s₃, -, h⟩ := bind_eq_ok.mp h
    obtain ⟨_, s₄, -, h⟩ := bind_eq_ok.mp h
    obtain ⟨_, s₅, -, h⟩ := bind_eq_ok.mp h
    rw [if_neg hmodes] at h
    cases h
    decide

omit [Crypto] in
/-- The shared secret comes from the key share of the hello. -/
theorem serverExchangeKeys_eq_ok {exchanged : Option (KeyExchangeAlgorithm × Bytes × Bytes)}
    (hmode : mode ≠ .psk) (h : serverExchangeKeys ch mode keyShare env s = (.ok exchanged, t)) :
    ∃ algo pubkey secret key, exchanged = some (algo, pubkey, secret) ∧
      .exchangeKeys key secret ∈ t.trace := by
  unfold serverExchangeKeys at h
  rw [if_neg hmode] at h
  rcases keyShare with _ | ⟨algo, key⟩
  · cases h
  · obtain ⟨answer, s₁, -, h⟩ := bind_eq_ok.mp h
    obtain ⟨⟨pubkey, secret⟩, s₂, -, h⟩ := bind_eq_ok.mp h
    obtain ⟨_, s₃, -, h⟩ := bind_eq_ok.mp h
    rw [emitEvent_bind] at h
    cases h
    exact ⟨algo, pubkey, secret, key, rfl, by simp⟩

/-- The effects of the parts of the answer that follow the handshake secret. -/
abbrev afterSecretEffects : List Effect := .startSkip :: finishEffects

/-- The rest of the answer, once the handshake secret is extracted. -/
theorem ServerDheInv.of_within [hm : Within afterSecretEffects m] (hrequires : s.RequiresDhe)
    (huses : PskUsesDhe s.trace) (hderived : s.HasDerived) : ServerDheInv (m env s).2 := by
  have hsteps := hm.relates env s
  exact ⟨hrequires.of_steps hsteps (by decide), huses.of_steps hsteps (by decide),
    fun _ => hderived.of_steps hsteps (by decide)⟩

/-- With memory at hand, an extraction whose failure is ignored does not fail. -/
theorem keyScheduleExtract_of_attempt {result : Except Code Unit}
    (halloc : ∀ tick, env.alloc tick = true)
    (h : attemptCode (keyScheduleExtract ikm) env s = (.ok result, t)) :
    keyScheduleExtract ikm env s = (.ok (), t) := by
  rw [attemptCode_run] at h
  rcases hfirst : firstHash env s with ⟨fault | slot, s₁⟩
  · obtain ⟨rfl, -⟩ := firstHash_error hfirst
    have hrun : keyScheduleExtract ikm env s = (.error .undefined, s₁) := bind_of_error hfirst
    rw [hrun] at h
    cases h
  · obtain ⟨sched, hsched, hslot, -⟩ := firstHash_eq_ok.mp hfirst
    obtain ⟨t', hrun⟩ := keyScheduleExtract_ok halloc ikm hsched hslot
    rw [hrun] at h ⊢
    cases h
    rfl

set_option synthInstance.maxSize 256 in
/-- Deriving the handshake keys leaves a handshake secret behind if it succeeds. -/
theorem serverDeriveHandshakeKeys_dhe (ch : ClientHello) {key secret : Bytes}
    (halloc : ∀ tick, env.alloc tick = true) (hs : ServerDhePending s)
    (hkey : .exchangeKeys key secret ∈ s.trace) :
    DerivesOrFails ServerDhePending (serverDeriveHandshakeKeys ch (some secret) env s) := by
  refine bind_cases (Q := DerivesOrFails ServerDhePending) (fun fault s₁ hrun => ?_)
    fun early s₁ hrun => ?_
  · have hsteps : Via [] s s₁ := Within.steps inferInstance hrun
    refine ⟨hs.of_steps hsteps (by decide) (by simp) (hs.requires.of_steps hsteps (by decide)), ?_⟩
    intro _ h
    cases h
  obtain ⟨hearly, rfl⟩ := getKeySchedule_eq_ok.mp hrun
  rw [assert_bind]
  split_ifs
  swap
  · refine ⟨hs, ?_⟩
    intro _ h
    cases h
  refine bind_cases (Q := DerivesOrFails ServerDhePending) (fun fault s₂ hrun => ?_)
    fun result s₂ hrun => ?_ <;>
    have hsteps : Via [.io, .advance, .note .derive] s₁ s₂ :=
      Within.steps inferInstance hrun <;>
    have hs₂ := hs.of_steps hsteps (by decide) (by simp) (hs.requires.of_steps hsteps (by decide))
  · refine ⟨hs₂, ?_⟩
    intro _ h
    cases h
  have hextract := keyScheduleExtract_of_attempt halloc hrun
  have hkey₂ := (Steps.trace_prefix hsteps).mem hkey
  rw [noteHandshakeSecret_bind]
  set s₃ := (noteHandshakeSecret early (some secret) env s₂).2 with hs₃
  have huses : PskUsesDhe s₃.trace :=
    hs₂.uses.noteHandshakeSecret (fun _ => ⟨secret, rfl⟩)
      (fun octets heq => ⟨key, Option.some.inj heq ▸ hkey₂⟩)
        (keyScheduleExtract_secret hextract hearly)
  have hderived : s₃.HasDerived :=
    ⟨early, some secret, s₂.tls.keySchedule.map KeySchedule.secret, by
    simp [hs₃, noteHandshakeSecret, getTls_bind, emitEvent]⟩
  have hrest {m : Proc Unit} [hm : Within [.io, .dec, .encSecret, .encClear, .encInstall,
      .earlyData, .startSkip, .note .derive] m] :
      DerivesOrFails ServerDhePending (m env s₃) := by
    have hsteps := hm.relates env s₃
    have hs₃ : ServerDhePending s₃ := ⟨hs₂.pending, hs₂.requires, huses⟩
    exact ⟨hs₃.of_steps hsteps (by decide) (by simp) (hs₃.requires.of_steps hsteps (by decide)),
      fun _ _ => hderived.of_steps hsteps (by decide)⟩
  exact hrest

section

variable (halloc : ∀ tick, env.alloc tick = true)

include halloc

set_option synthInstance.maxSize 256 in
theorem serverAnswerHello_dhe (hmodes : pskKeModePsk ∉ ch.pskKeModes) (hs : ServerDhePending s) :
    ServerDheInv
      (serverAnswerHello .record message ch keyShare isSecondFlight properties env s).2 := by
  unfold serverAnswerHello
  refine hs.bind fun _ s₁ _ hs₁ => hs₁.bind fun psk s₂ _ hs₂ => hs₂.bind fun tls s₃ _ hs₃ => ?_
  refine hs₃.bind fun _ s₄ _ hs₄ => hs₄.bind fun mode s₅ hmode hs₅ => hs₅.bind fun _ s₆ _ hs₆ => ?_
  refine hs₆.bind fun _ s₇ _ hs₇ => hs₇.bind fun exchanged s₈ hexchange hs₈ => ?_
  obtain ⟨algo, pubkey, secret, key, rfl, hkey⟩ :=
    serverExchangeKeys_eq_ok (serverSettleMode_ne_psk hmode hmodes) hexchange
  refine hs₈.bind fun _ s₉ hrun₉ hs₉ => hs₉.bind fun _ s₁₀ hrun₁₀ hs₁₀ => ?_
  refine hs₁₀.bind fun _ s₁₁ hrun₁₁ hs₁₁ => ?_
  have hsent : Via beforeSecretEffects s₈ s₁₁ :=
    (Within.steps inferInstance hrun₉).trans <| (Within.steps inferInstance hrun₁₀).trans <|
      Within.steps inferInstance hrun₁₁
  have hkey₁₁ := (Steps.trace_prefix hsent).mem hkey
  have hderives := serverDeriveHandshakeKeys_dhe ch halloc hs₁₁ hkey₁₁
  refine bind_cases (Q := fun p => ServerDheInv p.2) (fun fault t hrun => ?_) fun u t hrun => ?_ <;>
    change serverDeriveHandshakeKeys ch (some secret) env s₁₁ = _ at hrun <;>
    rw [hrun] at hderives
  · exact hderives.1.inv
  · exact .of_within hderives.1.requires hderives.1.uses (hderives.2 u rfl)

theorem serverDecideRetry_dhe (hmodes : pskKeModePsk ∉ ch.pskKeModes) (hs : ServerDhePending s) :
    ServerDheInv
      (serverDecideRetry .record message ch keyShare isSecondFlight properties env s).2 := by
  refine serverDecideRetry_cases (Q := fun p => ServerDheInv p.2) (fun _ => ?_) (fun _ => ?_)
    fun _ _ _ _ => ?_
  · exact serverAnswerHello_dhe halloc hmodes hs
  · have hretry (E : List Effect) {m : Proc Progress} [hm : Within E m] (hcontext : .context ∉ E)
        (hE : ∀ e ∈ E, e.emits .handshakeSecret = false)
        (hstates : ∀ state, .state state ∈ E → ¬ state.HasAnswered) : ServerDheInv (m env s).2 := by
      have hsteps := hm.relates env s
      refine ⟨hs.requires.of_steps hsteps hcontext, hs.uses.of_steps hsteps hE, fun hanswered => ?_⟩
      exact absurd hanswered (Steps.notAnswered hsteps hstates hs.pending)
    exact hretry sendRetryEffects (by decide) (by decide) (by simp; decide)
  · exact hs.bind fun _ s₁ _ hs₁ => serverAnswerHello_dhe halloc hmodes hs₁

/-- A server that requires a key exchange drops the mode without one from every hello. -/
theorem serverHandleHello_dhe (henv : env.KeepsRequirement) (hs : ServerDhePending s) :
    ServerDheInv (serverHandleHello .record message properties env s).2 := by
  unfold serverHandleHello serverReadHello
  simp only [Procedure.bind_assoc]
  refine hs.bind fun _ s₀ _ hs₀ => hs₀.bind fun tls s₁ _ hs₁ => hs₁.bind fun _ s₂ _ hs₂ =>
    hs₂.bind fun ch s₃ _ hs₃ => ?_
  refine hs₃.bind_context (by decide) (by simp)
    (checkClientHelloConstraints_requires henv _ _ _ _ hs₃.requires) fun _ s₄ _ hs₄ => ?_
  refine hs₄.bind fun _ s₅ _ hs₅ => ?_
  refine hs₅.bind_context (by decide) (by simp) (serverHandleEch_requires henv _ _ _ _ hs₅.requires)
    fun opened s₆ _ hs₆ => ?_
  refine bind_cases (Q := fun p => ServerDheInv p.2) (fun fault s₇ hrun => ?_) fun tls s₇ hrun => ?_
  · cases hrun
  obtain ⟨rfl, rfl⟩ : s₆.tls = tls ∧ s₆ = s₇ := by cases hrun; exact ⟨rfl, rfl⟩
  have hmodes : pskKeModePsk ∉ (allowedPskKeModes s₆.tls.ctx opened.2).pskKeModes := by
    have hrequires : s₆.tls.ctx.requireDheOnPsk = true := hs₆.requires
    simp [allowedPskKeModes, hrequires]
  refine hs₆.bind_context (by decide) (by simp) (serverAdmitHello_requires henv _ _ _ hs₆.requires)
    fun _ s₈ _ hs₈ => ?_
  refine hs₈.bind fun _ s₉ _ hs₉ => hs₉.bind fun keyShare s₁₀ _ hs₁₀ => ?_
  exact serverDecideRetry_dhe halloc hmodes hs₁₀

end

/-- The parts of the handshake that follow the answer. -/
theorem ServerDheInv.of_does [hm : Does E m] (hE : .context ∉ E ∧ .psk ∉ E)
    (hE' : ∀ e ∈ E, e.emits .handshakeSecret = false) (hanswered : s.tls.state.HasAnswered)
    (hs : ServerDheInv s) : ServerDheInv (m env s).2 := by
  have hsteps := hm.steps.relates env s
  exact ⟨hs.requires.of_steps hsteps hE.1, hs.uses.of_steps hsteps hE',
    fun _ => (hs.derived hanswered).of_steps hsteps hE.2⟩

theorem ServerDheInv.settled (hs : ServerDheInv (m env s).2) :
    Settled (fun _ => ServerDheInv) (m env s) := ⟨hs, fun _ => hs⟩

theorem serverDheInv_isServerInvariant (halloc : ∀ tick, env.alloc tick = true)
    (henv : env.KeepsRequirement) : IsServerInvariant (fun _ => ServerDheInv) env where
  weaken _ := id
  steps _ s s' hsteps hs := by
    refine ⟨hs.requires.of_steps hsteps (by decide), hs.uses.of_steps hsteps (by decide), ?_⟩
    intro hanswered
    rw [Steps.state_eq hsteps (by simp)] at hanswered
    exact (hs.derived hanswered).of_steps hsteps (by decide)
  hello properties message s _ hstate hs := by
    refine ServerDheInv.settled (serverHandleHello_dhe halloc henv ⟨?_, hs.requires, hs.uses⟩)
    rcases hstate with h | h <;> rw [h] <;> decide
  resume s _ hstate hs := (hs.of_does (by decide) (by decide) (by rw [hstate]; decide)).settled
  certificate message s _ hstate hs :=
    (hs.of_does (by decide) (by decide) (by rw [hstate]; decide)).settled
  certificateVerify message s _ hstate hs :=
    (hs.of_does (by decide) (by decide) (by rw [hstate]; decide)).settled
  endOfEarlyData _ message s _ hstate hs :=
    hs.of_does (by decide) (by decide) (by rw [hstate]; decide)
  finished _ message s _ hstate hs := hs.of_does (by decide) (by decide) (by rw [hstate]; decide)

/-! ## Runs -/

/-- In every run under a context that requires a key exchange: a client whose ServerHellos carry a
key share, and a server that does not run out of memory, extract the handshake secret from a key
share of the peer whenever they complete a handshake with a pre-shared key. -/
theorem psk_handshakes_use_dhe (env : Environment) (ctx : Context)
    (hrequire : ctx.requireDheOnPsk = true) (operations : List Operation) :
    (∀ serverName, HellosShareKeys (clientRun env ctx serverName operations).trace →
      (clientRun env ctx serverName operations).PskCompletesWithDhe) ∧
    ((∀ tick, env.alloc tick = true) → env.KeepsRequirement →
      (serverRun env ctx operations).PskCompletesWithDhe) := by
  constructor
  · intro serverName hshare
    have hinit (s : Session) (hs : s.IsNewClient ctx) : ClientDheInv s := by
      obtain ⟨htrace, -, _, _, _, htls⟩ := hs
      refine ⟨fun _ early shared secret hmem => ?_, fun hnot => absurd ?_ hnot⟩
      · rw [htrace] at hmem
        cases hmem
      · rw [htls]
        exact (by decide : State.HelloPending .clientHandshakeStart)
    have hinv : ClientDheInv (clientRun env ctx serverName operations) :=
      clientDheInv_isClientInvariant.clientRun_inv hinit serverName operations
    refine ⟨hinv.uses hshare, fun hpost hpsk => ?_⟩
    have hnot : ¬ State.HelloPending (clientRun env ctx serverName operations).tls.state := by
      rw [State.HelloPending, not_lt]
      exact le_trans (by decide) hpost
    have hderived := hinv.derived hnot
    rwa [Session.HasDerived, hpsk] at hderived
  · intro halloc henv
    have hstart : ¬ State.HasAnswered .serverExpectClientHello := by decide
    have hinit : ServerDheInv (.newServer ctx) :=
      ⟨hrequire, (fun _ _ _ hmem => nomatch hmem), fun hanswered => absurd hanswered hstart⟩
    have hinv := (serverDheInv_isServerInvariant halloc henv).serverRun_inv hinit operations
    refine ⟨hinv.uses, fun hpost hpsk => ?_⟩
    have hderived := hinv.derived (le_trans (by decide) hpost)
    rwa [Session.HasDerived, hpsk] at hderived

/-- A handshake secret under a pre-shared key that does not come from a shared secret. -/
def Event.lacksDhe : Event → Bool
  | .deriveHandshake true early shared secret => shared.isNone ||
      early.hashes.head?.all fun slot => secret ≠ some (early.extract slot.algo shared).secret
  | _ => false

theorem not_pskUsesDhe_of_any (h : trace.any Event.lacksDhe = true) : ¬ PskUsesDhe trace := by
  intro huses
  obtain ⟨event, hmem, hlacks⟩ := List.any_eq_true.mp h
  unfold Event.lacksDhe at hlacks
  split at hlacks
  · obtain ⟨peerkey, octets, slot, -, hshared, hslot, hsecret⟩ := huses _ _ _ hmem
    subst hshared
    simp [hslot, hsecret] at hlacks
  · cases hlacks

omit [Crypto] in
theorem hellosShareKeys_of_all
    (h : trace.all (fun event => match event with
    | .hello message => helloIsRetry message || ExtensionType.keyShare ∈ helloExtensionTypes message
    | _ => true) = true) : HellosShareKeys trace := by
  intro message hmem hproper
  have hmessage := List.all_eq_true.mp h _ hmem
  simpa [hproper] using hmessage

open Sample

omit [Crypto] in
/-- A client completes a handshake with the pre-shared key and no key share. A server completes one
after memory was short in the extraction, and its handshake secret does not depend on the key
share. -/
theorem psk_handshakes_without_dhe :
    dheContext.requireDheOnPsk = true ∧
    (let run := @clientRun crypto environment dheContext none
      (pskHandshake ([0, 43] ++ block 2 [3, 4]) [236, 236])
    run.tls.state = .clientPostHandshake ∧ run.tls.isPskHandshake = true ∧
      run.trace.any (·.kind = .exchange) = false ∧
      ¬ @Session.PskCompletesWithDhe crypto run) ∧
    (let run := @serverRun crypto (failingAt 29) dheContext
      (pskClient [140, 140])
    run.tls.state = .serverPostHandshake ∧ run.tls.isPskHandshake = true ∧
      ¬ @Session.PskCompletesWithDhe crypto run) := by
  refine ⟨rfl, ⟨by decide +kernel, by decide +kernel, by decide +kernel, fun hdhe => ?_⟩,
    ⟨by decide +kernel, by decide +kernel, fun hdhe => ?_⟩⟩
  · exact @not_pskUsesDhe_of_any crypto _ (by decide +kernel) hdhe.1
  · exact @not_pskUsesDhe_of_any crypto _ (by decide +kernel) hdhe.1

omit [Crypto] in
/-- The theorem at runs of a client and of a server that complete a handshake with the pre-shared
key. -/
theorem psk_handshakes_use_dhe_sample :
    (let run := @clientRun crypto environment dheContext none
      (pskHandshake helloExtensions [140, 140])
    run.tls.state = .clientPostHandshake ∧ run.tls.isPskHandshake = true ∧
      @Session.PskCompletesWithDhe crypto run) ∧
    (let run := @serverRun crypto environment dheContext
      (pskClient [140, 140])
    run.tls.state = .serverPostHandshake ∧ run.tls.isPskHandshake = true ∧
      @Session.PskCompletesWithDhe crypto run) := by
  have hdhe (operations : List Operation) :=
    @psk_handshakes_use_dhe crypto environment dheContext rfl operations
  refine ⟨⟨by decide +kernel, by decide +kernel, (hdhe _).1 none (hellosShareKeys_of_all ?_)⟩,
    ⟨by decide +kernel, by decide +kernel, (hdhe _).2 (fun _ => rfl) fun _ _ _ h => nomatch h⟩⟩
  decide +kernel

end Picotls
