import Picotls.Effects.Server

/-!
# What leaves the output alone

The output of the library and its message offsets change only where messages are written. What is
read or computed before that leaves both alone, a hello that is rebuilt in a buffer of its own
included.
-/

namespace Picotls

open Foundation Procedure

variable {α : Type}

variable (echIsInnerCh isSecondFlight useOuter : Bool)
    (message octets payload rawMessage secret : Bytes) (ch outerCh : ClientHello) (label : Label)
    (prevRandom : Option Bytes) (properties : Option HandshakeProperties) (block outer src : Src)
    (hstype : UInt8) (capacity exttype fuel type value width : ℕ)

/-- The message offsets are the same. -/
def SameOffsets (s t : Session) : Prop := t.epochOffsets = s.epochOffsets

/-- The output and its message offsets are the same. -/
def SameOutput (s t : Session) : Prop := t.sendbuf = s.sendbuf ∧ t.epochOffsets = s.epochOffsets

instance : IsPreorder Session SameOffsets where
  refl _ := rfl
  trans _ _ _ h h' := h'.trans h

instance : IsPreorder Session SameOutput where
  refl _ := ⟨rfl, rfl⟩
  trans _ _ _ h h' := ⟨h'.1.trans h.1, h'.2.trans h.2⟩

instance (m : Proc α) [h : Respects SameOutput m] : Respects SameOffsets m :=
  ⟨fun env s => (h.relates env s).2⟩

/-- The output has at most become longer, and its message offsets are the same. -/
def Extends (s t : Session) : Prop :=
  s.sendbuf <+: t.sendbuf ∧ t.epochOffsets = s.epochOffsets

instance : IsPreorder Session Extends where
  refl _ := ⟨List.prefix_rfl, rfl⟩
  trans _ _ _ h h' := ⟨h.1.trans h'.1, h'.2.trans h.2⟩

instance (m : Proc α) [h : Respects SameOutput m] : Respects Extends m where
  relates env s := by
    obtain ⟨hsendbuf, hoffs⟩ := h.relates env s
    exact ⟨⟨[], by rw [hsendbuf, List.append_nil]⟩, hoffs⟩

/-! ## Primitive steps -/

instance : Respects SameOutput (modifyTls f) := ⟨fun _ _ => ⟨rfl, rfl⟩⟩

instance : Respects SameOutput (emitEvent event) := ⟨fun _ _ => ⟨rfl, rfl⟩⟩

instance : Respects SameOutput (noteRefusal hstype exttype code) := ⟨fun _ _ => ⟨rfl, rfl⟩⟩

instance (question : Environment → ℕ → α) : Respects SameOutput (ask question) :=
  ⟨fun _ _ => ⟨rfl, rfl⟩⟩

instance : Respects SameOutput (randomBytes len) := ⟨fun _ _ => ⟨rfl, rfl⟩⟩

instance : Respects SameOutput allocate := by
  unfold allocate
  infer_instance

instance : Respects SameOffsets (modifySendbuf f) := ⟨fun _ _ => rfl⟩

/-! ## Buffers -/

instance : Respects SameOffsets (appendReserved octets) := by
  unfold appendReserved
  infer_instance

instance : Respects SameOffsets (bufferPushv octets) := by
  unfold bufferPushv
  infer_instance

instance : Respects SameOffsets (bufferPushUInt width value) := by
  unfold bufferPushUInt
  infer_instance

instance (block : Proc α) [Respects SameOffsets block] :
    Respects SameOffsets (bufferPushBlock capacity block) := by
  unfold bufferPushBlock
  dsimp only
  infer_instance

instance (block : Proc α) [Respects SameOffsets block] :
    Respects SameOffsets (bufferPushExtension type block) := by
  unfold bufferPushExtension
  infer_instance

instance : Respects Extends (appendReserved octets) :=
  ⟨fun _ _ => ⟨List.prefix_append _ _, rfl⟩⟩

instance : Respects Extends (bufferPushv octets) := by
  unfold bufferPushv
  infer_instance

instance : Respects Extends (bufferPushUInt width value) := by
  unfold bufferPushUInt
  infer_instance

/-- Octets that are pushed with success are appended. -/
theorem bufferPushv_eq_ok {octets : Bytes} {env : Environment} {s t : Session}
    (h : bufferPushv octets env s = (.ok (), t)) : t.sendbuf = s.sendbuf ++ octets := by
  rw [bufferPushv] at h
  split_ifs at h with hempty
  · cases h
    rw [hempty, List.append_nil]
  · obtain ⟨_, s₁, halloc, h⟩ := bind_eq_ok.mp h
    obtain ⟨-, rfl⟩ := allocate_eq_ok.mp halloc
    cases h
    rfl

/-- A block is written after the output that was there, its length included. -/
instance (block : Proc α) [hblock : Respects Extends block] :
    Respects Extends (bufferPushBlock capacity block) where
  relates env s := by
    rw [bufferPushBlock]
    refine bind_cases (Q := fun p => Extends s p.2) (fun fault t hrun => Respects.run hrun) ?_
    intro _ s₁ hzeros
    have hs₁ : Extends s s₁ := Respects.run hzeros
    have hstart : s₁.sendbuf.length - capacity = s.sendbuf.length := by
      rw [bufferPushv_eq_ok hzeros, List.length_append, zeros_length, Nat.add_sub_cancel]
    rw [sendbufOff, observe_bind, hstart]
    refine bind_cases (Q := fun p => Extends s p.2)
      (fun fault t hrun => IsTrans.trans _ _ _ hs₁ (Respects.run hrun)) ?_
    intro a s₂ hrun
    have hs₂ : Extends s s₂ := IsTrans.trans _ _ _ hs₁ (Respects.run hrun)
    rw [observe_bind]
    refine bind_cases (Q := fun p => Extends s p.2)
      (fun fault t hrun => IsTrans.trans _ _ _ hs₂ (Respects.run hrun)) ?_
    intro _ s₃ hfits
    obtain ⟨-, rfl⟩ := throwIf_eq_ok.mp hfits
    -- the length is written over its own room only
    obtain ⟨⟨rest, hrest⟩, hoffs⟩ := hs₂
    refine ⟨?_, hoffs⟩
    change s.sendbuf <+: overwrite s₃.sendbuf s.sendbuf.length _
    rw [overwrite, ← hrest, List.take_left, List.append_assoc]
    exact List.prefix_append _ _

instance (block : Proc α) [Respects Extends block] :
    Respects Extends (bufferPushExtension type block) := by
  unfold bufferPushExtension
  infer_instance

/-- What is written to a buffer of its own does not reach the output. -/
instance (body : Proc α) [h : Respects SameOffsets body] :
    Respects SameOutput (withBuffer initial body) where
  relates env s := by
    have hbody := h.relates env { s with sendbuf := initial }
    rw [withBuffer_run]
    rcases hrun : body env { s with sendbuf := initial } with ⟨fault | a, t⟩ <;> rw [hrun] at hbody
    · exact ⟨rfl, hbody⟩
    · exact ⟨rfl, hbody⟩

/-! ## Reading a hello -/

instance : Respects SameOutput (notifyExtension hstype exttype data) := by
  unfold notifyExtension
  infer_instance

instance : Respects SameOutput (shouldCollectUnknownExtension properties type) := by
  unfold shouldCollectUnknownExtension
  infer_instance

instance : Respects SameOutput (collectClientHelloExtension properties ch exttype block) := by
  unfold collectClientHelloExtension
  infer_instance

instance : Respects SameOutput (decodeClientHelloExtension properties ch exttype block) := by
  unfold decodeClientHelloExtension
  dsimp only
  repeat' first | infer_instance | refine .seq ?_ fun _ => ?_ | split

instance : Respects SameOutput (decodeClientHello message properties) := by
  unfold decodeClientHello
  dsimp only
  infer_instance

instance : Respects SameOffsets (copyOuterExtensions fuel refs outer) := by
  induction fuel generalizing refs outer with
  | zero => unfold copyOuterExtensions; infer_instance
  | succ fuel ih =>
    unfold copyOuterExtensions
    infer_instance

instance : Respects SameOffsets (rebuildChInnerExtension exttype block outer) := by
  unfold rebuildChInnerExtension
  infer_instance

instance : Respects SameOffsets (rebuildChInnerExtensionList fuel src outer) := by
  induction fuel generalizing src outer with
  | zero => unfold rebuildChInnerExtensionList; infer_instance
  | succ fuel ih =>
    unfold rebuildChInnerExtensionList
    infer_instance

instance : Respects SameOffsets (rebuildChInnerExtensions src outer) := by
  unfold rebuildChInnerExtensions
  infer_instance

instance : Respects SameOffsets (copyBlock capacity src) := by
  unfold copyBlock
  infer_instance

instance : Respects SameOffsets (rebuildChInner payload outerCh outer) := by
  unfold rebuildChInner
  repeat' first | infer_instance | refine .seq ?_ fun _ => ?_

instance : Respects SameOutput (callOnClientHello params) := by
  unfold callOnClientHello
  infer_instance

instance : Respects SameOutput (refuseVersion ch prevRandom echIsInnerCh rawMessage) := by
  unfold refuseVersion
  infer_instance

instance :
    Respects SameOutput (checkClientHelloConstraints ch prevRandom echIsInnerCh rawMessage) := by
  unfold checkClientHelloConstraints
  infer_instance

instance : Respects SameOutput (modifyEch f) := by
  unfold modifyEch
  infer_instance

instance : Respects SameOutput (serverCreateOpener kdf aead configId enc) := by
  unfold serverCreateOpener runIf
  repeat' first | infer_instance | refine .seq ?_ fun _ => ?_ | split

section Handlers

variable [Crypto]

instance :
    Respects SameOutput
      (serverAdoptInnerHello encoded message outerCh isSecondFlight properties) := by
  unfold serverAdoptInnerHello
  dsimp only
  infer_instance

instance :
    Respects SameOutput
      (serverOpenEch aead payload payloadOff message ch isSecondFlight properties) := by
  unfold serverOpenEch
  dsimp only
  split <;> infer_instance

instance : Respects SameOutput (serverHandleEch message ch isSecondFlight properties) := by
  unfold serverHandleEch
  repeat' first | infer_instance | refine .seq ?_ fun _ => ?_ | split

end Handlers

instance : Respects SameOutput (serverAdmitHello message ch isSecondFlight) := by
  unfold serverAdmitHello
  infer_instance

instance : Respects SameOutput (keyScheduleNew preferred offered useOuter) := by
  unfold keyScheduleNew
  infer_instance

instance : Respects SameOutput (setKeySchedule sched) := by
  unfold setKeySchedule
  infer_instance

instance : Respects SameOutput (serverSelectCipher ch isSecondFlight) := by
  unfold serverSelectCipher
  infer_instance

/-! ## The key schedule -/

instance : Respects SameOutput (mapHashes f) := by
  unfold mapHashes
  infer_instance

instance : Respects SameOutput (keyScheduleUpdateHash message useOuter) := by
  unfold keyScheduleUpdateHash
  infer_instance

section Schedule

variable [Crypto]

instance : Respects SameOutput (hkdfExpandLabel algo outlen secret label context labelPrefix) := by
  unfold hkdfExpandLabel
  dsimp only
  infer_instance

instance (hash : Bytes) : Respects SameOutput (deriveSecretWithHash label hash) := by
  unfold deriveSecretWithHash
  infer_instance

instance : Respects SameOutput (deriveSecretWithEmptyDigest label) := by
  unfold deriveSecretWithEmptyDigest
  infer_instance

instance : Respects SameOutput (calcVerifyData secret) := by
  unfold calcVerifyData
  dsimp only
  infer_instance

/-! ## Traffic keys -/

instance : Respects SameOutput (deriveSecret label) := by
  unfold deriveSecret
  infer_instance

instance : Respects SameOutput (deriveResumptionSecret nonce) := by
  unfold deriveResumptionSecret
  infer_instance

end Schedule

end Picotls
