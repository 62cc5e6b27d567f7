import Picotls.Effects.Client
import Picotls.Effects.Failures

/-!
# Failures of the client's hellos

Sending a ClientHello and answering a ServerHello fail only with codes after which no handshake call
follows, as long as the callbacks that are asked on the way do.
-/

namespace Picotls

open Foundation Procedure

variable [Crypto] {F : Environment → Fault → Prop} [hF : AllowsRefusals F]

variable (isSecondFlight : Bool) (message : Bytes) (p : ClientHelloParams) (ctx : Context)
    (label : Label) (psk : OfferedPsk) (binderKey : Option Bytes)
    (properties : Option HandshakeProperties) {env : Environment} {s : Session}

instance : IsRefusal Alert.illegalParameter := ⟨rfl⟩
instance : IsRefusal Alert.handshakeFailure := ⟨rfl⟩

/-! ## Encoding a ClientHello -/

section Encoding

omit [Crypto]

instance : FailsWith F (emitServerNameExtension serverName) := by
  unfold emitServerNameExtension; infer_instance

instance : FailsWith F (pushOuterEchExtension p) := by
  unfold pushOuterEchExtension; infer_instance

instance : FailsWith F (pushInnerEchExtension p) := by
  unfold pushInnerEchExtension; infer_instance

instance : FailsWith F (pushEchExtension p) := by
  unfold pushEchExtension; infer_instance

instance : FailsWith F (pushKeyShareEntry group key) := by
  unfold pushKeyShareEntry; infer_instance

instance : FailsWith F (pushKeyShareExtension p) := by
  unfold pushKeyShareExtension; infer_instance

instance : FailsWith F (pushServerNameExtension p) := by
  unfold pushServerNameExtension; infer_instance

instance : FailsWith F (pushAlpnExtension p) := by
  unfold pushAlpnExtension; infer_instance

instance : FailsWith F (pushContextExtensions ctx p) := by
  unfold pushContextExtensions
  repeat' first | infer_instance | refine .seq ?_ fun _ => ?_

instance : FailsWith F (pushHiddenPskIdentity psk) := by
  unfold pushHiddenPskIdentity; infer_instance

instance : FailsWith F (pushPskIdentity p psk) := by
  unfold pushPskIdentity; infer_instance

instance : FailsWith F (pushPskExtension p psk) := by
  unfold pushPskExtension; infer_instance

instance : FailsWith F (pushClientHelloExtensions ctx p) := by
  unfold pushClientHelloExtensions; infer_instance

instance : FailsWith F (encodeClientHello ctx p) := by
  unfold encodeClientHello; infer_instance

instance : FailsWith F (buildEncodedChInner ctx p) := by
  unfold buildEncodedChInner; dsimp only; infer_instance

instance : FailsWith F (keepFirstEch payloadOff payloadSize encSize) := by
  unfold keepFirstEch modifyEch; dsimp only; infer_instance

instance (psk : PreSharedKey) : FailsWith F (checkExternalPskHash psk) := by
  unfold checkExternalPskHash; infer_instance

instance (psk : PreSharedKey) : FailsWith F (prepareExternalPsk properties psk) := by
  unfold prepareExternalPsk modifyReport; dsimp only; infer_instance

instance (psk : PreSharedKey) : FailsWith F (offerExternalPsk properties isSecondFlight psk) := by
  unfold offerExternalPsk; infer_instance

instance (properties : HandshakeProperties) :
    FailsWith F (offerTicket properties isSecondFlight ticket) := by
  unfold offerTicket modifyReport
  repeat' first | infer_instance | refine .seq ?_ fun _ => ?_ | split

instance : FailsWith F (offerPsk properties isSecondFlight) := by
  unfold offerPsk
  repeat' first | infer_instance | refine .seq ?_ fun _ => ?_ | split

instance (properties : HandshakeProperties) : FailsWith F (reportEarlyData properties) := by
  unfold reportEarlyData modifyReport; infer_instance

instance : FailsWith F (keyScheduleNew preferred offered useOuter) := by
  unfold keyScheduleNew; infer_instance

end Encoding

/-! ## The key schedule -/

instance (psk : Option OfferedPsk) : FailsWith F (startKeySchedule psk) := by
  unfold startKeySchedule; infer_instance

instance : FailsWith F (deriveSecretWithEmptyDigest label) := by
  unfold deriveSecretWithEmptyDigest; infer_instance

instance (psk : Option OfferedPsk) : FailsWith F (deriveBinderKey psk) := by
  cases psk <;> (unfold deriveBinderKey; infer_instance)

instance : FailsWith F (updateChHashAndBinder chStart binderKey) := by
  unfold updateChHashAndBinder
  split <;> infer_instance

instance : FailsWith F (wrapInOuterHello messStart p aead outerRandom binderKey) := by
  unfold wrapInOuterHello modifyEch; dsimp only
  repeat' first | infer_instance | refine .seq ?_ fun _ => ?_

instance (sniName : Option Bytes) (psk : Option OfferedPsk) (cookie : Option Bytes) :
    FailsWith F (buildClientHello properties isSecondFlight sniName psk cookie) := by
  unfold buildClientHello; dsimp only; infer_instance

instance : FailsWith F (keyScheduleSelectCipher cs reset resetIkm) := by
  unfold keyScheduleSelectCipher
  dsimp only
  repeat' first | infer_instance | refine .seq ?_ fun _ => ?_ | split

instance : FailsWith F keyScheduleSelectOuter := by unfold keyScheduleSelectOuter; infer_instance

instance : FailsWith F dropOuterTranscript := by unfold dropOuterTranscript; infer_instance

instance : FailsWith F (echCalcConfirmation innerRandom label message) := by
  unfold echCalcConfirmation; dsimp only; infer_instance

instance : FailsWith F (clientEchSelectHello message confirmHashOff label) := by
  unfold clientEchSelectHello echConfirmationMatches modifyEch; infer_instance

instance : FailsWith F (clientDeriveHandshakeKeys ecdhSecret) := by
  unfold clientDeriveHandshakeKeys; infer_instance

/-! ## Answering hellos -/

/-- The key exchange does not report a pause. -/
instance : FailsWith Stops (clientExchangeKeys peerkey) := by
  cases peerkey with
  | none => unfold clientExchangeKeys; infer_instance
  | some peerkey =>
    unfold clientExchangeKeys
    refine FailsWith.seq inferInstance fun tls => FailsWith.seq inferInstance fun keyShareCtx => ?_
    refine ⟨fun env s fault s' hrun => ?_⟩
    rw [ask_bind, modifyTls_bind] at hrun
    rcases hanswer : env.keyExchangeOnExchange s.tick keyShareCtx.algo keyShareCtx.privkey peerkey
      with code | secret <;> rw [hanswer] at hrun <;> cases hrun
    exact fun hconforms => hconforms.keyExchangeOnExchange _ _ _ _ _ hanswer

instance : FailsWith Stops (clientHandleServerHello message sh) := by
  unfold clientHandleServerHello modifyEch; dsimp only; infer_instance

/-- The codes of the key exchange for a fresh key are failures. -/
def Environment.CreatesKeys (env : Environment) : Prop :=
  ∀ tick algo code, env.keyExchangeCreate tick algo = .error code → ¬ continues code

/-- After this failure no handshake call follows, as long as the callbacks conform, the one that
creates keys included. -/
def HelloStops (env : Environment) (fault : Fault) : Prop :=
  env.Conforms → env.CreatesKeys → ¬ fault.Continues

instance : AllowsRefusals HelloStops where
  assertion _ _ _ h := h
  undefined _ _ _ h := h
  refusal env code hcode hconforms _ :=
    AllowsRefusals.refusal (F := Stops) env code hcode hconforms
  updateTrafficKey env tick isEnc epoch secret hne hconforms _ :=
    AllowsRefusals.updateTrafficKey (F := Stops) env tick isEnc epoch secret hne hconforms

instance : FailsWith HelloStops (createKeyShare properties) := by
  unfold createKeyShare
  dsimp only
  refine FailsWith.seq inferInstance fun tls => FailsWith.seq inferInstance fun _ =>
    FailsWith.seq inferInstance fun tls' => FailsWith.seq inferInstance fun _ => ?_
  cases tls'.keyShare with
  | none => unfold whenSome; infer_instance
  | some algo =>
    refine ⟨fun env s fault s' hrun => ?_⟩
    simp only [whenSome] at hrun
    rw [ask_bind] at hrun
    rcases hanswer : env.keyExchangeCreate s.tick algo with code | ⟨pubkey, privkey⟩ <;>
      rw [hanswer] at hrun <;> cases hrun
    exact fun _ hcreates => hcreates _ _ _ hanswer

/-- Composing a ClientHello fails for good, except that a first flight may fail before anything but
the offer of ECH was prepared. -/
theorem composeClientHello_error {properties : Option HandshakeProperties} {cookie : Option Bytes}
    {t : Session} {fault : Fault}
    (h : composeClientHello .record properties cookie env s = (.error fault, t)) :
    HelloStops env fault ∨
      s.tls.keySchedule = none ∧ Via [.io, .draw, .ech] s t := by
  unfold composeClientHello at h
  dsimp only at h
  rw [getTls_bind] at h
  generalize s.tls.serverName.filter (!serverNameIsIpaddr ·) = sniName at h
  rcases hech : (whenSome properties fun properties => whenSome sniName fun sniName =>
      runIf (!s.tls.keySchedule.isSome) (setupEchOffer properties sniName)) env s
    with ⟨fault' | _, s₁⟩
  · rw [bind_of_error hech] at h
    cases h
    refine .inr ⟨?_, Within.steps inferInstance hech⟩
    by_contra hsome
    rw [Option.ne_none_iff_isSome.mp hsome] at hech
    cases properties <;> cases sniName <;> cases hech
  · rw [bind_of_ok hech] at h
    exact .inl (FailsWith.failure (F := HelloStops) _ _ _ _ h)

/-! ## Decoding hellos -/

/-- Before a failure after which the handshake may go on, only steps of some effects were taken. -/
def PausesAfter {α : Type} (E : List Effect) (s : Session) (outcome : Except Fault α × Session) :
    Prop :=
  ∀ fault, outcome.1 = .error fault → fault.Continues → Via E s outcome.2

omit [Crypto] in
theorem PausesAfter.bind {α β : Type} {m : Proc α} {f : α → Proc β} {E : List Effect} {s₀ : Session}
    [hm : Within E m] (hs : Via E s₀ s)
    (hf : ∀ a t, Via E s₀ t → PausesAfter E s₀ (f a env t)) :
    PausesAfter E s₀ ((m >>= f) env s) :=
  bind_post (P := Via E s₀) (Q := PausesAfter E s₀) (hs.trans (hm.relates env s))
    (fun _ _ ht _ _ _ => ht) fun a t _ ht => hf a t ht

omit [Crypto] in
/-- Only the checks at the end of a ServerHello, which do not pause, take a pre-shared key into
use. -/
theorem clientReadHello_pauses (hconforms : env.Conforms) (message : Bytes) (s : Session) :
    PausesAfter [.io, .suite, .refuse] s (clientReadHello message env s) := by
  have hchecks {m : Proc ServerHello} (t : Session) (hstops : FailsWith Stops m) :
      PausesAfter [.io, .suite, .refuse] s (m env t) := by
    intro fault hfault hcont
    exact absurd hcont (hstops.failure env t fault _ (Prod.ext hfault rfl) hconforms)
  unfold clientReadHello decodeServerHello
  simp only [Procedure.bind_assoc]
  refine .bind .refl fun _ s₁ hs₁ => .bind hs₁ fun _ s₂ hs₂ => .bind hs₂ fun _ s₃ hs₃ => ?_
  refine .bind hs₃ fun _ s₄ hs₄ => .bind hs₄ fun _ s₅ hs₅ => .bind hs₅ fun _ s₆ hs₆ => ?_
  refine .bind hs₆ fun _ s₇ hs₇ => .bind hs₇ fun _ s₈ hs₈ => .bind hs₈ fun _ s₉ hs₉ => ?_
  refine .bind hs₉ fun _ s₁₀ hs₁₀ => .bind hs₁₀ fun _ s₁₁ hs₁₁ => .bind hs₁₁ fun _ s₁₂ _ => ?_
  refine hchecks s₁₂ ?_
  unfold checkServerSelection
  infer_instance

end Picotls
