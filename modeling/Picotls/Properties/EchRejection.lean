import Picotls.ClientInvariants
import Picotls.Sample

/-!
# The name that is verified after ECH was rejected

When the server rejects Encrypted ClientHello, the client has to authenticate it under the public
name of the configuration. The library forgets that name as soon as the ServerHello is handled, so
that the certificate verifier is never given it.
-/

namespace Picotls

open Foundation Procedure

/-- While an ECH offer was not accepted, the verifier was only called without a name. -/
def OfferedWithoutName (trace : List Event) : Prop :=
  ∀ name, .verifyCertificate .offered name ∈ trace → name = none

/-- The public name is forgotten before the encrypted part of the server's flight. -/
def NameForgotten (s : Session) : Prop :=
  OfferedWithoutName s.trace ∧ (s.tls.state.IsFlight → s.tls.ech.publicName = none)

section Steps

variable {E : List Effect} {s s' : Session} {env : Environment}

theorem OfferedWithoutName.of_steps (h : Via E s s')
    (hE : ∀ e ∈ E, e.emits .verifyCertificate = false) (hs : OfferedWithoutName s.trace) :
    OfferedWithoutName s'.trace :=
  fun name hname => hs name ((Steps.mem_trace (.verifyCertificate .offered name) h hE).mp hname)

/-- Once the public name is forgotten, the verifier is called without a name. -/
theorem OfferedWithoutName.of_forgotten (h : Via E s s') (hech : .ech ∉ E)
    (hnote : .note .verifyCertificate ∉ E) (hname : s.tls.ech.publicName = none)
    (hs : OfferedWithoutName s.trace) :
    OfferedWithoutName s'.trace ∧ s'.tls.ech.publicName = none := by
  refine h.preserves (P := fun t => OfferedWithoutName t.trace ∧ t.tls.ech.publicName = none)
    (fun e he t t' hstep ht => ?_) ⟨hs, hname⟩
  have hadd (event : Event)
      (hevent : ∀ name, event = .verifyCertificate .offered name → name = none) :
      OfferedWithoutName (t.trace ++ [event]) := by
    intro name hmem
    rcases List.mem_append.mp hmem with hmem | hmem
    · exact ht.1 name hmem
    · exact hevent name (List.mem_singleton.mp hmem).symm
  cases hstep with
  | verify =>
    refine ⟨hadd _ fun name heq => ?_, ht.2⟩
    injection heq with hstate hverified
    simp [← hverified, Tls.verifiedName, hstate, ht.2]
  | note event =>
    refine ⟨hadd _ ?_, ht.2⟩
    rintro name rfl
    exact absurd he hnote
  | encInstall | encrypt | startSkip | skip | deliver | changeKey | handled =>
    exact ⟨hadd _ (by rintro _ ⟨⟩), ht.2⟩
  | ech => exact absurd he hech
  | _ => exact ht

/-- A procedure that runs after the public name was forgotten. -/
theorem NameForgotten.of_within {α : Type} {m : Proc α} (E : List Effect) [hm : Within E m]
    (hech : .ech ∉ E) (hnote : .note .verifyCertificate ∉ E) (hname : s.tls.ech.publicName = none)
    (hs : OfferedWithoutName s.trace) : NameForgotten (m env s).2 := by
  have hsteps := OfferedWithoutName.of_forgotten (hm.relates env s) hech hnote hname hs
  exact ⟨hsteps.1, fun _ => hsteps.2⟩

/-- The client awaits a hello, or has not started. -/
def BeforeFlight (s : Session) : Prop := OfferedWithoutName s.trace ∧ ¬ s.tls.state.IsFlight

theorem BeforeFlight.forgotten (h : BeforeFlight s) : NameForgotten s :=
  ⟨h.1, fun hflight => absurd hflight h.2⟩

/-- Before the server's flight nothing is verified. -/
theorem BeforeFlight.of_within {α : Type} {m : Proc α} (E : List Effect) [hm : Within E m]
    (hE : ∀ e ∈ E, e.emits .verifyCertificate = false)
    (hstates : ∀ state, .state state ∈ E → ¬ state.IsFlight) (hs : BeforeFlight s) :
    BeforeFlight (m env s).2 :=
  have hsteps := hm.relates env s
  ⟨hs.1.of_steps hsteps hE, Steps.state_inv (P := (¬ State.IsFlight ·)) hsteps hstates hs.2⟩

theorem BeforeFlight.of_does {α : Type} {m : Proc α} {E : List Effect} [hm : Does E m]
    (hE : ∀ e ∈ E, e.emits .verifyCertificate = false)
    (hstates : ∀ state, .state state ∈ E → ¬ state.IsFlight) (hs : BeforeFlight s) :
    BeforeFlight (m env s).2 :=
  @BeforeFlight.of_within _ _ _ _ E hm.steps hE hstates hs

/-- The effects of the steps that precede the decision on a hello. -/
abbrev helloEffects : List Effect :=
  [.io, .transcript, .advance, .schedule, .suite, .psk, .ech, .refuse, .note .derive, .note .hello,
    .note .selectCipher, .note .absorb, .note .decideEch]

/-- The first steps of the handlers of hellos. -/
theorem BeforeFlight.bind {α β : Type} {m : Proc α} {f : α → Proc β} [Within helloEffects m]
    (hs : BeforeFlight s) (hf : ∀ a s', BeforeFlight s' → NameForgotten (f a env s').2) :
    NameForgotten ((m >>= f) env s).2 :=
  bind_post (P := BeforeFlight) (Q := fun p => NameForgotten p.2)
    (BeforeFlight.of_within helloEffects (by decide) (by simp) hs)
    (fun _ _ => BeforeFlight.forgotten) fun a s' _ => hf a s'

end Steps

variable [Crypto] {env : Environment} {s : Session}

/-- Handling a ServerHello forgets the public name before the server's flight is awaited. -/
theorem clientHandleServerHello_forgets {message : Bytes} {sh : ServerHello}
    (hs : BeforeFlight s) : NameForgotten (clientHandleServerHello message sh env s).2 := by
  unfold clientHandleServerHello
  rw [getTls_bind]
  refine hs.bind fun suite s₁ hs₁ => ?_
  refine hs₁.bind fun _ s₂ hs₂ => ?_
  refine hs₂.bind fun _ s₃ hs₃ => ?_
  -- the name is cleared here, and nothing after this point sets it again
  rw [modifyEch, modifyTls_bind]
  exact NameForgotten.of_within [.io, .transcript, .advance, .dec, .encSecret, .encClear,
    .encInstall, .negotiation, .earlyData, .state .clientExpectEncryptedExtensions, .note .derive,
    .note .acceptServerHello, .note .absorb, .note .exchange, .note .handshakeSecret] (by decide)
    (by decide) rfl hs₃.1

theorem clientHandleHello_forgets {message : Bytes} {properties : Option HandshakeProperties}
    (hs : BeforeFlight s) :
    NameForgotten (clientHandleHello .record message properties env s).2 := by
  unfold clientHandleHello
  refine hs.bind fun _ s₁ hs₁ => ?_
  refine hs₁.bind fun sh s₂ hs₂ => ?_
  split_ifs
  · exact (BeforeFlight.of_does (by decide) (by simp; decide) hs₂).forgotten
  · exact clientHandleServerHello_forgets hs₂

/-- The public name is forgotten in every run of a client. -/
theorem nameForgotten_isClientInvariant :
    IsClientInvariant (fun _ => NameForgotten) env where
  weaken _ := id
  steps _ s s' hsteps hs :=
    ⟨hs.1.of_steps hsteps (by decide), by
      rw [Steps.state_eq hsteps (by simp), Steps.ech_eq hsteps (by decide)]
      exact hs.2⟩
  flight s s' hsteps hstate hs := by
    have hs' := OfferedWithoutName.of_forgotten hsteps (by decide) (by decide) (hs.2 hstate) hs.1
    exact ⟨hs'.1, fun _ => hs'.2⟩
  start properties s _ hstate hs := by
    have hs' : BeforeFlight (sendClientHello .record properties none env s).2 :=
      BeforeFlight.of_does (by decide) (by simp; decide) ⟨hs.1, by rw [hstate]; decide⟩
    exact ⟨hs'.forgotten, fun _ => hs'.forgotten⟩
  hello properties message s _ hstate _ hs := by
    have hs' : NameForgotten (clientHandleHello .record message properties env s).2 :=
      clientHandleHello_forgets ⟨hs.1, by rcases hstate with h | h <;> rw [h] <;> decide⟩
    exact ⟨hs', fun _ => hs'⟩

/-- In every run of a client, whatever the server sends: if the certificate verifier is called while
an ECH offer was not accepted, it is given no name, and in particular not the public name. -/
theorem verified_name_after_ech_rejection (env : Environment) (ctx : Context)
    (serverName : Option Bytes) (operations : List Operation) :
    OfferedWithoutName (clientRun env ctx serverName operations).trace := by
  have hinit (s : Session) (hs : s.IsNewClient ctx) : NameForgotten s := by
    obtain ⟨htrace, -, _, _, _, htls⟩ := hs
    refine ⟨fun name hname => ?_, fun _ => ?_⟩
    · simp [htrace] at hname
    · simp [htls, newInstance]
  exact (nameForgotten_isClientInvariant.clientRun_inv hinit serverName operations).1

/-! ## A rejected offer -/

namespace Sample

/-- A client that supports ECH and verifies certificates. -/
def echContext : Context := { context with
  echClientCiphers := some [⟨1, 1, hash 0, aead⟩]
  echClientKems := [⟨32, ⟨29, 0⟩, hash 0⟩]
  verifyCertificate := some [] }

/-- A list with one ECH configuration, whose public name is `p`. -/
def echConfigs : Bytes :=
  block 2 ([0xfe, 0x0d] ++ block 2 ([7] ++ toBE 2 32 ++ block 2 [9] ++ block 2 [0, 1, 0, 1] ++
    [8] ++ block 1 (ascii "p") ++ block 2 []))

/-- The properties of a handshake that offers ECH. -/
def echProperties : HandshakeProperties := { echConfigs := some echConfigs }

/-- A client offers ECH to a server that ignores the offer and sends its certificate. -/
def echRejection : List Operation :=
  [.handshake (some echProperties) [],
    .handshake (some echProperties) (record (hello (zeros 32) 0x1301 helloExtensions) ++
      sealed (message HandshakeType.encryptedExtensions [0, 0]) ++
      sealed (message HandshakeType.certificate
        (block 1 [] ++ block 3 (block 3 [5] ++ block 2 []))))]

end Sample

omit [Crypto] in
/-- The verifier is called without a name although the offered configuration has a public name. -/
theorem ech_rejection_without_name : .verifyCertificate .offered none ∈
    (@clientRun Sample.crypto Sample.environment Sample.echContext (some (ascii "a"))
      Sample.echRejection).trace := by
  decide +kernel

end Picotls
