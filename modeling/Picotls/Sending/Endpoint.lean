import Picotls.Client.Schedule
import Picotls.ClientInvariants
import Picotls.Effects.Transfer
import Picotls.Server.FirstFlight
import Picotls.ServerInvariants

/-!
# Endpoints after the handshake

In every run, a client whose handshake is complete and whose sender was not detached derives its
keys with the hash of its cipher suite, or has the keys of an imported TLS 1.2 connection.
-/

namespace Picotls

open Foundation Procedure

variable [Crypto] {env : Environment} {s t : Session} {message : Bytes} {suite : CipherSuite}

/-! ## The hash of the keys -/

/-- The keys are derived with the hash of the cipher suite. -/
def Tls.HashFits (tls : Tls) : Prop :=
  ∃ suite, tls.cipherSuite = some suite ∧ tls.firstAlgo = some suite.hash

/-- The keys of the connection fit its suite, and so do those of a sender that was not detached. -/
def Session.KeysFit (s : Session) : Prop :=
  s.tls.HashFits ∧ (s.tls.txDetached = true ∨ s.tls.enc.tls12 = false)

/-- The cipher suite is settled upon in this state. -/
def State.SettlesSuite (state : State) : Prop :=
  state.rank ≤ State.rank .clientExpectSecondServerHello ∨ state = .serverExpectClientHello

instance (state : State) : Decidable state.SettlesSuite := inferInstanceAs (Decidable (_ ∨ _))

/-- The keys fit once the suite is settled upon. -/
structure Session.Keyed (s : Session) : Prop where
  plain : s.tls.state.SettlesSuite → s.tls.enc.tls12 = false
  fit : ¬ s.tls.state.SettlesSuite → s.KeysFit

section Steps

variable {E : List Effect}

omit [Crypto] in
/-- The keys fit as long as neither the suite nor the schedule is replaced. -/
theorem Steps.keysFit (h : Via E s t)
    (hE : .schedule ∉ E ∧ .suite ∉ E ∧ .importKeys ∉ E) (hs : s.KeysFit) : t.KeysFit := by
  refine h.preserves (P := Session.KeysFit) (fun e he u v hstep hu => ?_) hs
  obtain ⟨⟨suite, hsuite, hfirst⟩, hplain⟩ := hu
  cases hstep with
  | schedule => exact absurd he hE.1
  | suite => exact absurd he hE.2.1
  | importKeys => exact absurd he hE.2.2
  | detach => exact ⟨⟨suite, hsuite, hfirst⟩, .inl rfl⟩
  | transcript _ sched hashes hsched halgo =>
    refine ⟨⟨suite, hsuite, ?_⟩, hplain⟩
    rw [← hfirst, Tls.firstAlgo, Tls.firstAlgo, hsched]
    simp only [Option.bind_some, ← List.head?_map, halgo]
  | advance _ sched secret hsched =>
    refine ⟨⟨suite, hsuite, ?_⟩, hplain⟩
    rw [← hfirst, Tls.firstAlgo, Tls.firstAlgo, hsched]
    rfl
  | encrypt _ aead plaintext enc haead haead' hsecret htls12 =>
    exact ⟨⟨suite, hsuite, hfirst⟩, hplain.imp_right htls12.trans⟩
  | _ => exact ⟨⟨suite, hsuite, hfirst⟩, hplain⟩

omit [Crypto] in
/-- Only an import reads keys of TLS 1.2. -/
theorem Steps.plain (h : Via E s t) (hE : .importKeys ∉ E)
    (hs : s.tls.enc.tls12 = false) : t.tls.enc.tls12 = false := by
  refine h.preserves (P := fun u => u.tls.enc.tls12 = false) (fun e he u v hstep hu => ?_) hs
  cases hstep with
  | importKeys => exact absurd he hE
  | encrypt _ aead plaintext enc haead haead' hsecret htls12 => exact htls12.trans hu
  | detach => rfl
  | _ => exact hu

omit [Crypto] in
/-- Steps that only enter states in which the suite is settled upon. -/
theorem Steps.settlesSuite (h : Via E s t)
    (hE : ∀ state, .state state ∈ E → state.SettlesSuite) (hs : s.tls.state.SettlesSuite) :
    t.tls.state.SettlesSuite := by
  refine h.preserves (P := fun u => u.tls.state.SettlesSuite) (fun e he u v hstep hu => ?_) hs
  cases hstep <;> first | exact hu | exact hE _ he

omit [Crypto] in
/-- Steps outside of the handshake. -/
theorem Steps.keyed (h : Via E s t) (hstate : ∀ state, .state state ∉ E)
    (hE : .schedule ∉ E ∧ .suite ∉ E ∧ .importKeys ∉ E) (hs : s.Keyed) : t.Keyed := by
  have heq : t.tls.state = s.tls.state := Steps.state_eq h hstate
  refine ⟨fun hsettles => ?_, fun hsettled => ?_⟩
  · exact Steps.plain h hE.2.2 (hs.plain (heq ▸ hsettles))
  · exact Steps.keysFit h hE (hs.fit (heq ▸ hsettled))

omit [Crypto] in
/-- Steps behind the settlement of a suite. -/
theorem Steps.keyed_of_settled (h : Via E s t)
    (hstates : ∀ state, .state state ∈ E → ¬ state.SettlesSuite)
    (hE : .schedule ∉ E ∧ .suite ∉ E ∧ .importKeys ∉ E) (hsettled : ¬ s.tls.state.SettlesSuite)
    (hs : s.Keyed) : t.Keyed := by
  have hstate : ¬ t.tls.state.SettlesSuite := by
    refine h.preserves (P := fun u => ¬ u.tls.state.SettlesSuite) (fun e he u v hstep hu => ?_)
      hsettled
    cases hstep <;> first | exact hu | exact hstates _ he
  exact ⟨fun hsettles => absurd hsettles hstate, fun _ => Steps.keysFit h hE (hs.fit hsettled)⟩

end Steps

/-- The keys fit if the outcome has left the states in which the suite is settled upon. -/
def KeyedOnceSettled {α : Type} (outcome : Except Fault α × Session) : Prop :=
  ¬ outcome.2.tls.state.SettlesSuite → outcome.2.KeysFit

/-! ## Clients -/

/-- The hash of a selected suite is the one that keys are derived with. -/
theorem keyScheduleSelectCipher_keysFit {reset : Bool} {resetIkm : Option Bytes}
    (hplain : s.tls.enc.tls12 = false) (hsuite : s.tls.cipherSuite = some suite)
    (h : keyScheduleSelectCipher suite reset resetIkm env s = (.ok (), t)) : t.KeysFit := by
  have hsteps : Via [.io, .advance, .schedule, .note .derive, .note .selectCipher] s t :=
    Within.steps inferInstance h
  have hsuite' : t.tls.cipherSuite = some suite := by
    refine hsteps.preserves (P := fun u => u.tls.cipherSuite = some suite)
      (fun e he u v hstep hu => ?_) hsuite
    cases hstep <;> first | exact hu | simp at he
  obtain ⟨sched, hsched, halgos⟩ :=
    Option.map_eq_some_iff.mp (keyScheduleSelectCipher_algos h)
  refine ⟨⟨suite, hsuite', ?_⟩, .inr (Steps.plain hsteps (by decide) hplain)⟩
  rw [Tls.firstAlgo, hsched, Option.bind_some, ← List.head?_map, halgos, List.head?_cons]

set_option synthInstance.maxSize 256 in
/-- A client that has left the states in which a ServerHello is awaited has keys for its suite. -/
theorem clientHandleServerHello_keysFit {sh : ServerHello} (hplain : s.tls.enc.tls12 = false)
    (hsuite : s.tls.cipherSuite = some suite) (hsettles : s.tls.state.SettlesSuite) :
    KeyedOnceSettled (clientHandleServerHello message sh env s) := by
  unfold clientHandleServerHello
  dsimp only
  rw [getTls_bind, bind_of_ok (deref_eq_ok.mpr ⟨hsuite, rfl⟩)]
  refine bind_cases (Q := KeyedOnceSettled)
    (fun fault t hrun hleft => ?_) fun _ t hrun _ => ?_
  · have hsteps : Via [.io, .advance, .schedule, .note .derive, .note .selectCipher]
        s t := Within.steps inferInstance hrun
    exact absurd (Steps.settlesSuite hsteps (by simp) hsettles) hleft
  · have hrest {m : Proc Progress} (hm : Within [.io, .transcript, .advance, .dec, .encSecret,
        .encClear, .encInstall, .negotiation, .ech, .earlyData,
        .state .clientExpectEncryptedExtensions, .note .derive, .note .acceptServerHello,
        .note .absorb, .note .decideEch, .note .exchange, .note .handshakeSecret] m) :
        (m env t).2.KeysFit :=
      Steps.keysFit (hm.relates env t) (by decide)
        (keyScheduleSelectCipher_keysFit hplain hsuite hrun)
    exact hrest inferInstance

theorem clientHandleHello_keysFit {properties : Option HandshakeProperties}
    (hplain : s.tls.enc.tls12 = false) (hsettles : s.tls.state.SettlesSuite) :
    KeyedOnceSettled (clientHandleHello .record message properties env s) := by
  unfold clientHandleHello
  rw [emitEvent_bind]
  refine bind_cases (Q := KeyedOnceSettled)
    (fun fault t hrun hleft => ?_) fun sh t hrun => ?_
  · have hsteps : Via [.io, .suite, .psk, .refuse]
        { s with trace := s.trace ++ [.hello message] } t := Within.steps inferInstance hrun
    exact absurd (Steps.settlesSuite hsteps (by simp) hsettles) hleft
  obtain ⟨-, -, -, suite, psk, -, htls, -⟩ := clientReadHello_eq_ok hrun
  have hplain' : t.tls.enc.tls12 = false := by rw [htls]; exact hplain
  have hsettles' : t.tls.state.SettlesSuite := by rw [htls]; exact hsettles
  split_ifs
  · have hstays :
      (clientHandleRetry .record message sh properties env t).2.tls.state.SettlesSuite :=
      Steps.settlesSuite (Performs.steps.relates env t) (by simp; decide) hsettles'
    exact fun hleft => absurd hstays hleft
  · exact clientHandleServerHello_keysFit hplain' (by rw [htls]) hsettles'

theorem keyed_isClientInvariant : IsClientInvariant (fun _ => Session.Keyed) env where
  weaken _ := id
  steps _ s s' hsteps hs := Steps.keyed hsteps (by simp) (by decide) hs
  flight s s' hsteps hstate hs := by
    refine Steps.keyed_of_settled hsteps (by simp; decide) (by decide) ?_ hs
    revert hstate
    cases s.tls.state <;> decide
  start properties s _ hstate hs := by
    have hsettles : s.tls.state.SettlesSuite := by rw [hstate]; decide
    have hs' : (sendClientHello .record properties none env s).2.Keyed := by
      refine ⟨fun _ => ?_, fun hleft => absurd ?_ hleft⟩
      · exact Steps.plain (Performs.steps.relates env s) (by decide) (hs.plain hsettles)
      · exact Steps.settlesSuite (Performs.steps.relates env s) (by simp; decide) hsettles
    exact ⟨hs', fun _ => hs'⟩
  hello properties message s _ hstate _ hs := by
    have hsettles : s.tls.state.SettlesSuite := by rcases hstate with h | h <;> rw [h] <;> decide
    have hplain := hs.plain hsettles
    have hs' : (clientHandleHello .record message properties env s).2.Keyed :=
      ⟨fun _ => Steps.plain (Performs.steps.relates env s) (by decide) hplain,
        clientHandleHello_keysFit hplain hsettles⟩
    exact ⟨hs', fun _ => hs'⟩

end Picotls
