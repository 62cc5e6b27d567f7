import Picotls.Effects.Server
import Picotls.Transfer

/-!
# Effects of an import

An imported connection takes its keys from the parameters; everything else about it is as in a new
connection object until its state is set.
-/

namespace Picotls

open Foundation Procedure

variable [Crypto] {params : Bytes} {ctx : Context} {env : Environment} {s t : Session} {u : Unit}

instance (priority := low) : Does [.importKeys] (modifyProtection isEnc f) := by
  refine ⟨⟨fun env s => .single ⟨.importKeys, by simp, ?_⟩⟩⟩
  cases isEnc
  · exact .importKeys s s.tls.enc (f s.tls.dec)
  · exact .importKeys s (f s.tls.enc) s.tls.dec

instance : Does [.importKeys] (importRecordIv aead isEnc src) :=
  ⟨by unfold importRecordIv; infer_instance⟩

instance : Does [.io, .importKeys] (importTls12TrafficProtection suite isEnc src) :=
  ⟨by unfold importTls12TrafficProtection; dsimp only; infer_instance⟩

instance :
    Does [.io, .dec, .encSecret, .encClear, .encInstall, .importKeys, .note .derive]
      (importTls13TrafficProtection suite paramsLength isEnc src) := by
  refine ⟨?_⟩
  unfold importTls13TrafficProtection
  cases isEnc <;> dsimp only <;>
    repeat' first | infer_instance | refine .seq ?_ fun _ => ?_ | split

instance :
    Does [.io, .schedule, .dec, .encSecret, .encClear, .encInstall, .importKeys, .suite,
      .note .derive] (importVersionBlock ctx protocolVersion csid paramsLength src) := by
  refine ⟨?_⟩
  unfold importVersionBlock
  dsimp only
  repeat' first | infer_instance | refine .seq ?_ fun _ => ?_ | split

instance (set : Option Bytes → Proc Unit) [∀ name, Does [.io, .names] (set name)] (src : Src) :
    Does [.io, .names] (importName set src) :=
  ⟨by unfold importName; infer_instance⟩

/-- The effects of an import behind the creation of the object. -/
abbrev importEffects : List Effect :=
  [.io, .names, .negotiation, .schedule, .dec, .encSecret, .encClear, .encInstall, .importKeys,
    .suite, .note .derive]

/-- A successful import fills in a new connection object, reads the keys into it, and then sets its
state. -/
theorem ptlsImport_run (hrun : ptlsImport ctx params env s = (.ok u, t)) :
    ∃ (isServer isPskHandshake : Bool) (version csid : ℕ) (src rest : Src) (s₁ s₂ t₂ t₁ : Session),
      s₁.tls = { newInstance ctx isServer .clientHandshakeStart with
        isPskHandshake := isPskHandshake } ∧
      s₁.trace = s.trace ∧ s₁.tx = s.tx ∧ Via [.io, .names, .negotiation] s₁ s₂ ∧
      importVersionBlock ctx version csid params.length src env s₂ = (.ok rest, t₂) ∧
      Via [.io] t₂ t₁ ∧
      t = { t₁ with tls := { t₁.tls with
        state := if isServer then .serverPostHandshake else .clientPostHandshake } } := by
  have step {E : List Effect} {α β : Type} {m : Proc α} {f : α → Proc β} {s s' : Session} {b : β}
      (hm : Within E m) (hrun : (m >>= f) env s = (.ok b, s')) :
      ∃ a t, Via E s t ∧ f a env t = (.ok b, s') := by
    obtain ⟨a, t, hfirst, hrest⟩ := bind_eq_ok.mp hrun
    exact ⟨a, t, hm.steps hfirst, hrest⟩
  have quiet {α : Type} {m : Proc α} {s s' : Session} {x : Except Fault α} (hm : Within [.io] m)
      (hrun : m env s = (x, s')) : (s'.trace, s'.tx) = (s.trace, s.tx) := by
    refine hm.keeps (f := fun s => (s.trace, s.tx)) hrun fun e he t t' hstep => ?_
    cases List.mem_singleton.mp he
    cases hstep
    rfl
  unfold ptlsImport at hrun
  obtain ⟨⟨block, after⟩, s₁, hblock, hrun⟩ := bind_eq_ok.mp hrun
  obtain ⟨⟨flags, src⟩, s₂, hflags, hrun⟩ := bind_eq_ok.mp hrun
  obtain ⟨_, s₃, halloc, hrun⟩ := bind_eq_ok.mp hrun
  dsimp only at hrun
  rw [modifyTls_bind] at hrun
  have hold : (s₃.trace, s₃.tx) = (s.trace, s.tx) :=
    (quiet inferInstance halloc).trans <|
      (quiet inferInstance hflags).trans (quiet inferInstance hblock)
  obtain ⟨⟨version, src⟩, t₁, h₁, hrun⟩ :=
    step (E := [.io, .names, .negotiation]) inferInstance hrun
  obtain ⟨⟨csid, src⟩, t₂, h₂, hrun⟩ := step (E := [.io, .names, .negotiation]) inferInstance hrun
  obtain ⟨⟨random, src⟩, t₃, h₃, hrun⟩ := step (E := [.io, .names, .negotiation]) inferInstance hrun
  obtain ⟨_, t₄, h₄, hrun⟩ := step (E := [.io, .names, .negotiation]) inferInstance hrun
  obtain ⟨src, t₅, h₅, hrun⟩ := step (E := [.io, .names, .negotiation]) inferInstance hrun
  obtain ⟨src, t₆, h₆, hrun⟩ := step (E := [.io, .names, .negotiation]) inferInstance hrun
  obtain ⟨⟨verBlock, src⟩, t₇, h₇, hrun⟩ :=
    step (E := [.io, .names, .negotiation]) inferInstance hrun
  obtain ⟨verRest, t₈, hversion, hrun⟩ := bind_eq_ok.mp hrun
  obtain ⟨_, t₉, h₉, hrun⟩ := step (E := [.io]) inferInstance hrun
  obtain ⟨⟨_, src⟩, t₁₀, h₁₀, hrun⟩ := step (E := [.io]) inferInstance hrun
  obtain ⟨_, t₁₁, h₁₁, hrun⟩ := step (E := [.io]) inferInstance hrun
  obtain ⟨_, t₁₂, h₁₂, hrun⟩ := step (E := [.io]) inferInstance hrun
  cases hrun
  have hbefore := h₁.trans <| h₂.trans <| h₃.trans <| h₄.trans <| h₅.trans <| h₆.trans h₇
  have hafter := h₉.trans <| h₁₀.trans <| h₁₁.trans h₁₂
  refine ⟨(flags.headD 0).toNat % 2 = 1, (flags.getD 1 0).toNat % 2 = 1, version, csid, verBlock,
    verRest, _, t₇, t₈, t₁₂, ?_, ?_, ?_, hbefore, hversion, hafter, ?_⟩
  · rfl
  · exact congrArg Prod.fst hold
  · exact congrArg Prod.snd hold
  · simp

/-- What an import does behind the creation of the object. -/
theorem ptlsImport_eq_ok (hrun : ptlsImport ctx params env s = (.ok u, t)) :
    ∃ (isServer isPskHandshake : Bool) (s₁ t₁ : Session),
      s₁.tls = { newInstance ctx isServer .clientHandshakeStart with
        isPskHandshake := isPskHandshake } ∧
      s₁.trace = s.trace ∧ Via importEffects s₁ t₁ ∧
      t = { t₁ with tls := { t₁.tls with
        state := if isServer then .serverPostHandshake else .clientPostHandshake } } := by
  obtain ⟨isServer, isPskHandshake, version, csid, src, rest, s₁, s₂, t₂, t₁, hnew,
    htrace, -, hbefore, hversion, hafter, ht⟩ := ptlsImport_run hrun
  have hblock : Via importEffects s₂ t₂ := Within.steps inferInstance hversion
  refine ⟨isServer, isPskHandshake, s₁, t₁, hnew, htrace, ?_, ht⟩
  exact (hbefore.mono (by decide)).trans (hblock.trans (hafter.mono (by decide)))

end Picotls
