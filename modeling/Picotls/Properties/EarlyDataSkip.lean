import Picotls.Effects.Transfer
import Picotls.Sample
import Picotls.Server.FirstFlight
import Picotls.ServerInvariants

/-!
# Early data that the server passes over

A server that does not accept early data cannot decrypt it, and passes over the records it cannot
decrypt until their length exceeds a limit. The counter of the octets is `UINT32_MAX` while nothing
is to be passed over. A new server starts in that state and leaves it when it rejects early data;
nothing ever leads back to it, and an imported connection does not start in it.
-/

namespace Picotls

open Foundation Procedure

set_option synthInstance.maxSize 2048

variable {aead : AeadContext} {isSecondFlight : Bool} {fragment input message params : Bytes}
  {ch : ClientHello} {ctx : Context} {emitter : Emitter} {E : List Effect}
  {keyShare : Option (KeyExchangeAlgorithm × Bytes)} {properties : Option HandshakeProperties}
  {s s' t : Session} {α β : Type} {m : Proc α} {f : α → Proc β} {imported : Bool}

/-! ## The octets passed over -/

/-- The length of the record that a step passes over. -/
def Event.skippedLength : Event → ℕ
  | .skipEarlyData length true => length
  | _ => 0

/-- The length of all records passed over. -/
def skippedLength (trace : List Event) : ℕ := (trace.map Event.skippedLength).sum

/-- A record that would have been passed over made the connection fail. -/
def SkipRefused (trace : List Event) : Prop := ∃ length, .skipEarlyData length false ∈ trace

/-- A record is passed over unless it exceeds the limit, which makes the connection fail. -/
theorem serverSkipEarlyData_run (length : ℕ) (env : Environment) (s : Session) :
    let total := (s.tls.earlyDataSkippedBytes + length) % 2 ^ 32
    (serverSkipEarlyData length env s).1 = (if total ≤ maxEarlyDataSkipSize then
        .ok Error.inProgress else .error (.code Alert.handshakeFailure)) ∧
      (serverSkipEarlyData length env s).2.trace =
        s.trace ++ [.skipEarlyData length (total ≤ maxEarlyDataSkipSize)] := by
  intro total
  unfold serverSkipEarlyData
  rw [modifyTls_bind, getTls_bind, emitEvent_bind]
  by_cases hle : total ≤ maxEarlyDataSkipSize
  · rw [throwIf_bind_of_not (Nat.not_lt.mpr hle), if_pos hle]
    exact ⟨rfl, rfl⟩
  · rw [throwIf_bind_of (Nat.not_le.mp hle), if_neg hle]
    exact ⟨rfl, rfl⟩

theorem skippedLength_append (trace : List Event) (event : Event) :
    skippedLength (trace ++ [event]) = skippedLength trace + event.skippedLength := by
  simp [skippedLength]

/-- An event of another kind passes over nothing. -/
theorem skippedLength_append_of_kind (trace : List Event) {event : Event}
    (hkind : event.kind ≠ .skipEarlyData) :
    skippedLength (trace ++ [event]) = skippedLength trace := by
  rw [skippedLength_append]
  cases event <;> first | rfl | exact absurd rfl hkind

theorem SkipRefused.append {trace : List Event} (h : SkipRefused trace) (event : Event) :
    SkipRefused (trace ++ [event]) := by
  obtain ⟨length, hmem⟩ := h
  exact ⟨length, List.mem_append_left _ hmem⟩

/-! ## The counter along a run -/

/-- The connection is an imported one, or the server has rejected early data. -/
def Session.SkipBegun (imported : Bool) (s : Session) : Prop :=
  imported = true ∨ .rejectEarlyData ∈ s.trace

/-- The server has not begun to pass over records. -/
def Session.HasNotSkipped (imported : Bool) (s : Session) : Prop :=
  ¬ s.SkipBegun imported ∧ s.tls.earlyDataSkippedBytes = uint32Max ∧ skippedLength s.trace = 0

/-- The counter is the length of the records passed over, as long as the connection has not
failed. -/
def Session.CountsSkipped (imported : Bool) (s : Session) : Prop :=
  SkipRefused s.trace ∨ s.HasNotSkipped imported ∨
    s.SkipBegun imported ∧ s.tls.earlyDataSkippedBytes = skippedLength s.trace ∧
      skippedLength s.trace ≤ maxEarlyDataSkipSize

/-- What holds of the counter throughout a run: while a first hello is expected, no record has been
passed over. -/
structure SkipInv (imported live : Bool) (s : Session) : Prop where
  counts : s.CountsSkipped imported
  first : live → s.tls.state = .serverExpectClientHello → s.HasNotSkipped imported

theorem SkipInv.weaken (hs : SkipInv imported true s) : SkipInv imported false s :=
  ⟨hs.counts, nofun⟩

/-- Where no record has been passed over, the invariant holds in any state. -/
theorem Session.HasNotSkipped.inv (hs : s.HasNotSkipped imported) (live : Bool) :
    SkipInv imported live s :=
  ⟨.inr (.inl hs), fun _ _ => hs⟩

theorem Session.SkipBegun.append (h : s.SkipBegun imported) (tls : Tls) (event : Event) :
    Session.SkipBegun imported { s with tls := tls, trace := s.trace ++ [event] } :=
  h.imp_right (List.mem_append_left _)

/-- A record that is counted keeps the counter in agreement with the history. -/
theorem Session.CountsSkipped.skip {length : ℕ} (hs : s.CountsSkipped imported)
    (hlength : length ≤ maxEncryptedRecordSize) (hskips : s.tls.earlyDataSkippedBytes ≠ uint32Max) :
    Session.CountsSkipped imported { s with
      tls := { s.tls with
        earlyDataSkippedBytes := (s.tls.earlyDataSkippedBytes + length) % 2 ^ 32 }
      trace := s.trace ++ [.skipEarlyData length
        ((s.tls.earlyDataSkippedBytes + length) % 2 ^ 32 ≤ maxEarlyDataSkipSize)] } := by
  rcases hs with hrefused | hnone | ⟨hbegun, hcounter, hbound⟩
  · exact .inl (hrefused.append _)
  · exact absurd hnone.2.1 hskips
  -- the sum is far from overflowing
  have hsmall : maxEarlyDataSkipSize + maxEncryptedRecordSize < 2 ^ 32 := by decide
  have hmod : (s.tls.earlyDataSkippedBytes + length) % 2 ^ 32 =
      skippedLength s.trace + length := by
    rw [hcounter, Nat.mod_eq_of_lt (by omega)]
  by_cases hle : skippedLength s.trace + length ≤ maxEarlyDataSkipSize
  · have htotal : skippedLength (s.trace ++ [.skipEarlyData length true]) =
        skippedLength s.trace + length := skippedLength_append _ _
    refine .inr (.inr ⟨hbegun.append _ _, ?_⟩)
    simp only [hmod, decide_eq_true hle, htotal]
    exact ⟨trivial, hle⟩
  · refine .inl ⟨length, ?_⟩
    simp only [hmod, decide_eq_false hle]
    exact List.mem_append_right _ List.mem_cons_self

/-- Nothing is passed over or rejected between two states. -/
structure SameSkips (s s' : Session) : Prop where
  counter : s'.tls.earlyDataSkippedBytes = s.tls.earlyDataSkippedBytes
  length : skippedLength s'.trace = skippedLength s.trace
  refused : SkipRefused s.trace → SkipRefused s'.trace
  rejected : .rejectEarlyData ∈ s'.trace ↔ .rejectEarlyData ∈ s.trace

theorem SameSkips.begun (h : SameSkips s s') : s'.SkipBegun imported ↔ s.SkipBegun imported :=
  or_congr_right h.rejected

theorem SameSkips.hasNotSkipped (h : SameSkips s s') (hs : s.HasNotSkipped imported) :
    s'.HasNotSkipped imported :=
  ⟨mt h.begun.mp hs.1, h.counter.trans hs.2.1, h.length.trans hs.2.2⟩

theorem SameSkips.countsSkipped (h : SameSkips s s') (hs : s.CountsSkipped imported) :
    s'.CountsSkipped imported := by
  refine hs.imp h.refused (Or.imp h.hasNotSkipped fun hcounts => ?_)
  rw [h.begun, h.counter, h.length]
  exact hcounts

/-- The effect neither resets the counter nor returns to the first state. -/
def Effect.KeepsSkip : Effect → Bool
  | .startSkip => false
  | .state target => target ≠ .serverExpectClientHello
  | .note kind => kind ≠ .skipEarlyData
  | _ => true

/-- A step of such an effect counts a record, or passes over nothing. -/
theorem Effect.Step.skip_cases {e : Effect} (imported : Bool) (hstep : Effect.Step e s s')
    (he : e.KeepsSkip) :
    (SameSkips s s' ∧ (s'.tls.state = .serverExpectClientHello → s'.tls.state = s.tls.state)) ∨
      e = .skip ∧ s.tls.earlyDataSkippedBytes ≠ uint32Max ∧ s'.tls.state = s.tls.state ∧
        (s.CountsSkipped imported → s'.CountsSkipped imported) := by
  have hevent {event : Event} (hkind : event.kind ≠ .skipEarlyData) (tls : Tls)
      (hcounter : tls.earlyDataSkippedBytes = s.tls.earlyDataSkippedBytes) :
      SameSkips s { s with tls := tls, trace := s.trace ++ [event] } :=
    ⟨hcounter, skippedLength_append_of_kind _ hkind, (·.append event), by
      cases event <;> first | exact absurd rfl hkind | simp⟩
  cases hstep with
  | skip _ length hlength hskips => exact .inr ⟨rfl, hskips, rfl, (·.skip hlength hskips)⟩
  | startSkip => exact absurd he Bool.false_ne_true
  | state _ target => exact .inl ⟨⟨rfl, rfl, id, .rfl⟩, fun h => absurd h (of_decide_eq_true he)⟩
  | note _ event => exact .inl ⟨hevent (of_decide_eq_true he) s.tls rfl, fun _ => rfl⟩
  | encInstall => exact .inl ⟨hevent (by simp [Event.kind]) _ rfl, fun _ => rfl⟩
  | encrypt => exact .inl ⟨hevent (by simp [Event.kind]) _ rfl, fun _ => rfl⟩
  | verify | changeKey | handled =>
    exact .inl ⟨hevent (by simp [Event.kind]) s.tls rfl, fun _ => rfl⟩
  | deliver => exact .inl ⟨hevent (by simp [Event.kind]) s.tls rfl, fun _ => rfl⟩
  | _ => exact .inl ⟨⟨rfl, rfl, id, .rfl⟩, fun _ => rfl⟩

section Steps

variable {live : Bool}

theorem Session.HasNotSkipped.steps (hsteps : Via E s s') (hE : ∀ e ∈ E, e.KeepsSkip)
    (hs : s.HasNotSkipped imported) : s'.HasNotSkipped imported := by
  refine hsteps.preserves (P := Session.HasNotSkipped imported) (fun e he t t' hstep ht => ?_) hs
  rcases hstep.skip_cases imported (hE e he) with ⟨hsame, -⟩ | ⟨-, hskips, -⟩
  · exact hsame.hasNotSkipped ht
  · exact absurd ht.2.1 hskips

/-- Steps of such effects keep the invariant. -/
theorem SkipInv.steps (hsteps : Via E s s') (hE : ∀ e ∈ E, e.KeepsSkip)
    (hs : SkipInv imported live s) : SkipInv imported live s' := by
  refine hsteps.preserves (P := SkipInv imported live) (fun e he t t' hstep ht => ?_) hs
  rcases hstep.skip_cases imported (hE e he) with ⟨hsame, hstate⟩ | ⟨-, hskips, hstate, hcounts⟩
  · refine ⟨hsame.countsSkipped ht.counts, fun hlive hfirst => ?_⟩
    exact hsame.hasNotSkipped (ht.first hlive ((hstate hfirst).symm.trans hfirst))
  · refine ⟨hcounts ht.counts, fun hlive hfirst => ?_⟩
    exact absurd (ht.first hlive (hstate.symm.trans hfirst)).2.1 hskips

/-- No record has been passed over, but the server may have begun to do so. -/
def Session.MaySkip (imported : Bool) (s : Session) : Prop :=
  (¬ s.SkipBegun imported ∧ s.tls.earlyDataSkippedBytes = uint32Max ∨
      s.SkipBegun imported ∧ s.tls.earlyDataSkippedBytes = 0) ∧ skippedLength s.trace = 0

theorem Session.HasNotSkipped.maySkip (hs : s.HasNotSkipped imported) : s.MaySkip imported :=
  ⟨.inl ⟨hs.1, hs.2.1⟩, hs.2.2⟩

theorem Session.MaySkip.counts (hs : s.MaySkip imported) : s.CountsSkipped imported := by
  obtain ⟨⟨hnone, hmax⟩ | ⟨hbegun, hzero⟩, hlength⟩ := hs
  · exact .inr (.inl ⟨hnone, hmax, hlength⟩)
  · exact .inr (.inr ⟨hbegun, hzero.trans hlength.symm, hlength ▸ Nat.zero_le _⟩)

theorem Session.MaySkip.steps (hsteps : Via E s s')
    (hE : ∀ e ∈ E, e ≠ .skip ∧ (e = .startSkip ∨ e.KeepsSkip)) (hs : s.MaySkip imported) :
    s'.MaySkip imported := by
  refine hsteps.preserves (P := Session.MaySkip imported) (fun e he t t' hstep ht => ?_) hs
  obtain ⟨hskip, rfl | hkeeps⟩ := hE e he
  · cases hstep
    refine ⟨.inr ⟨.inr (List.mem_append_right _ (List.mem_singleton_self _)), rfl⟩, ?_⟩
    exact (skippedLength_append _ _).trans ht.2
  rcases hstep.skip_cases imported hkeeps with ⟨hsame, -⟩ | ⟨rfl, -⟩
  · rw [Session.MaySkip, hsame.begun, hsame.counter, hsame.length]
    exact ht
  · exact absurd rfl hskip

end Steps

/-! ## Hellos -/

variable [Crypto] {env : Environment}

/-- The effects of the parts of a hello's handling that do not reset the counter. -/
abbrev answerEffects : List Effect :=
  .schedule :: .names :: .negotiation :: .suite :: .psk :: .ech :: .context :: .refuse ::
    .note .absorb :: .note .exchange :: .note .handshakeSecret :: .note .acceptEarly ::
    finishEffects

omit [Crypto] in
/-- A part of a hello's handling, before anything is passed over. -/
theorem Session.HasNotSkipped.bind [hm : Within answerEffects m] (hs : s.HasNotSkipped imported)
    (hf : ∀ a t, m env s = (.ok a, t) → t.HasNotSkipped imported →
      Settled (SkipInv imported) (f a env t)) :
    Settled (SkipInv imported) ((m >>= f) env s) := by
  have hafter : (m env s).2.HasNotSkipped imported := hs.steps (hm.relates env s) (by decide)
  refine bind_post (Q := Settled (SkipInv imported)) hafter (fun _ t ht => ?_) hf
  exact ⟨ht.inv false, fun _ => ht.inv true⟩

omit [Crypto] in
/-- Passing over early data may begin where no further first hello is expected. -/
theorem settled_of_maySkip {outcome : Except Fault α × Session} (hmay : outcome.2.MaySkip imported)
    (hstate : Continues outcome.1 → outcome.2.tls.state ≠ .serverExpectClientHello) :
    Settled (SkipInv imported) outcome :=
  ⟨⟨hmay.counts, nofun⟩, fun hcont => ⟨hmay.counts, fun _ hfirst => absurd hfirst (hstate hcont)⟩⟩

theorem serverSendRetry_skip {keyShareMissing : Bool} (hs : s.HasNotSkipped imported) :
    Settled (SkipInv imported)
      (serverSendRetry .record properties message ch keyShareMissing env s) := by
  unfold serverSendRetry
  refine hs.bind fun tls s₁ _ hs₁ => hs₁.bind fun _ s₂ _ hs₂ => ?_
  refine hs₂.bind fun group s₃ _ hs₃ => hs₃.bind fun _ s₄ _ hs₄ => ?_
  refine hs₄.bind fun _ s₅ _ hs₅ => hs₅.bind fun sched s₆ _ hs₆ => hs₆.bind fun _ s₇ _ hs₇ => ?_
  unfold serverEmitRetry
  refine hs₇.bind fun tls s₈ _ hs₈ => hs₈.bind fun _ s₉ _ hs₉ => hs₉.bind fun hrr s₁₀ _ hs₁₀ => ?_
  refine hs₁₀.bind fun _ s₁₁ _ hs₁₁ => ?_
  split_ifs
  · exact hs₁₁.bind fun _ s₁₂ _ hs₁₂ => ⟨hs₁₂.inv false, fun _ => hs₁₂.inv true⟩
  · have hmay (E : List Effect) {m : Proc Progress} (hm : Within E m)
        (hE : ∀ e ∈ E, e ≠ .skip ∧ (e = .startSkip ∨ e.KeepsSkip)) :
        (m env s₁₁).2.MaySkip imported :=
      Session.MaySkip.steps (hm.relates env s₁₁) hE hs₁₁.maySkip
    refine settled_of_maySkip
      (hmay [.startSkip, .state .serverExpectSecondClientHello] inferInstance (by decide)) ?_
    rw [modifyTls_bind, runIf]
    split_ifs <;> exact fun _ h => by cases h

theorem serverAnswerHello_skip (hconforms : env.Conforms) (hs : s.HasNotSkipped imported) :
    Settled (SkipInv imported)
      (serverAnswerHello .record message ch keyShare isSecondFlight properties env s) := by
  unfold serverAnswerHello
  refine hs.bind fun _ s₁ _ hs₁ => hs₁.bind fun psk s₂ _ hs₂ => hs₂.bind fun tls s₃ _ hs₃ => ?_
  refine hs₃.bind fun _ s₄ _ hs₄ => hs₄.bind fun mode s₅ _ hs₅ => hs₅.bind fun _ s₆ _ hs₆ => ?_
  refine hs₆.bind fun _ s₇ _ hs₇ => hs₇.bind fun exchanged s₈ _ hs₈ => ?_
  refine hs₈.bind fun _ s₉ _ hs₉ => hs₉.bind fun _ s₁₀ _ hs₁₀ => hs₁₀.bind fun _ s₁₁ _ hs₁₁ => ?_
  have hmay (E : List Effect) {m : Proc Progress} (hm : Within E m)
      (hE : ∀ e ∈ E, e ≠ .skip ∧ (e = .startSkip ∨ e.KeepsSkip)) :
      (m env s₁₁).2.MaySkip imported :=
    Session.MaySkip.steps (hm.relates env s₁₁) hE hs₁₁.maySkip
  have hstate {outcome : Except Fault Progress × Session} (hanswered : Answered outcome)
      (hcont : Continues outcome.1) : outcome.2.tls.state ≠ .serverExpectClientHello := by
    intro hfirst
    have hrank := hanswered hcont
    rw [hfirst] at hrank
    exact absurd hrank (by decide)
  refine settled_of_maySkip (hmay (.startSkip :: answerEffects) inferInstance (by decide))
    (hstate ?_)
  refine .bind hconforms fun _ t₁ _ => .bind hconforms fun _ t₂ _ => ?_
  split_ifs
  · refine .bind hconforms fun tls t₃ _ => .bind hconforms fun _ t₄ _ => ?_
    exact .bind hconforms fun _ t₅ _ => serverFinishHandshake_answered hconforms _ _ _
  · exact serverFinishHandshake_answered hconforms _ _ _

theorem serverDecideRetry_skip (hconforms : env.Conforms) (hs : s.HasNotSkipped imported) :
    Settled (SkipInv imported)
      (serverDecideRetry .record message ch keyShare isSecondFlight properties env s) := by
  refine serverDecideRetry_cases (Q := Settled (SkipInv imported)) (fun _ => ?_) (fun _ => ?_)
    fun _ _ _ _ => ?_
  · exact serverAnswerHello_skip hconforms hs
  · exact serverSendRetry_skip hs
  · exact hs.bind fun _ s₁ _ hs₁ => serverAnswerHello_skip hconforms hs₁

/-- A first hello. -/
theorem serverHandleHello_first (hconforms : env.Conforms) (hs : s.HasNotSkipped imported) :
    Settled (SkipInv imported) (serverHandleHello .record message properties env s) := by
  unfold serverHandleHello
  refine hs.bind fun tls s₁ _ hs₁ => hs₁.bind fun p s₂ _ hs₂ => ?_
  exact serverDecideRetry_skip hconforms hs₂

/-- Without early data in the hello, the handshake keys are installed without a reset. -/
theorem serverDeriveHandshakeKeys_within {ecdhSecret : Option Bytes}
    (hearly : ch.earlyDataIndication = false) :
    Within answerEffects (serverDeriveHandshakeKeys ch ecdhSecret) := by
  unfold serverDeriveHandshakeKeys
  simp only [hearly, runIf, Bool.false_eq_true, if_false]
  infer_instance

theorem serverAnswerHello_within (hearly : ch.earlyDataIndication = false) :
    Within answerEffects
      (serverAnswerHello .record message ch keyShare isSecondFlight properties) := by
  have hkeys (ecdhSecret : Option Bytes) :
      Within answerEffects (serverDeriveHandshakeKeys ch ecdhSecret) :=
    serverDeriveHandshakeKeys_within hearly
  unfold serverAnswerHello
  infer_instance

omit [Crypto] in
/-- A part of the handling of a second hello. -/
theorem SkipInv.bind [hm : Within answerEffects m] (hs : SkipInv imported true s)
    (hf : ∀ a t, m env s = (.ok a, t) → SkipInv imported true t →
      Settled (SkipInv imported) (f a env t)) :
    Settled (SkipInv imported) ((m >>= f) env s) := by
  have hafter : SkipInv imported true (m env s).2 := hs.steps (hm.relates env s) (by decide)
  refine bind_post (Q := Settled (SkipInv imported)) hafter (fun _ t ht => ?_) hf
  exact ⟨ht.weaken, fun _ => ht⟩

/-- A second hello. -/
theorem serverHandleHello_second (hsecond : s.tls.state = .serverExpectSecondClientHello)
    (hs : SkipInv imported true s) :
    Settled (SkipInv imported) (serverHandleHello .record message properties env s) := by
  unfold serverHandleHello
  rw [getTls_bind]
  refine hs.bind fun p s₁ hread hs₁ => ?_
  refine serverDecideRetry_cases (Q := Settled (SkipInv imported)) (fun flag => ?_)
    (fun hfirst => absurd hsecond (of_decide_eq_false hfirst))
    fun _ _ _ hfirst => absurd hsecond (of_decide_eq_false hfirst)
  have hanswer : Within answerEffects (serverAnswerHello .record p.1 p.2.1 p.2.2 flag properties) :=
    serverAnswerHello_within (serverReadHello_second hsecond hread)
  have hafter := hs₁.steps (hanswer.relates env s₁) (by decide)
  exact ⟨hafter.weaken, fun _ => hafter⟩

/-! ## Runs -/

omit [Crypto] in
theorem SkipInv.of_does [hm : Does E m] {live : Bool} (hE : ∀ e ∈ E, e.KeepsSkip)
    (hs : SkipInv imported live s) : SkipInv imported live (m env s).2 :=
  hs.steps (hm.steps.relates env s) hE

omit [Crypto] in
theorem SkipInv.settled [hm : Does E m] (hE : ∀ e ∈ E, e.KeepsSkip)
    (hs : SkipInv imported true s) : Settled (SkipInv imported) (m env s) :=
  ⟨hs.weaken.of_does hE, fun _ => hs.of_does hE⟩

/-- The counter agrees with the history throughout the runs of a server. -/
theorem skipInv_isServerInvariant (hconforms : env.Conforms) :
    IsServerInvariant (SkipInv imported) env where
  weaken _ := SkipInv.weaken
  steps _ _ _ hsteps hs := hs.steps hsteps (by decide)
  hello properties message s _ hstate hs := by
    rcases hstate with hfirst | hsecond
    · exact serverHandleHello_first hconforms (hs.first rfl hfirst)
    · exact serverHandleHello_second hsecond hs
  resume s _ _ hs := hs.settled (by decide)
  certificate message s _ _ hs := hs.settled (by decide)
  certificateVerify message s _ _ hs := hs.settled (by decide)
  endOfEarlyData live message s _ _ hs := hs.of_does (by decide)
  finished live message s _ _ hs := hs.of_does (by decide)

omit [Crypto] in
/-- Records of more than the limit are passed over only by a connection that fails. -/
theorem Session.CountsSkipped.bounded (hs : s.CountsSkipped imported) :
    skippedLength s.trace ≤ maxEarlyDataSkipSize ∨ SkipRefused s.trace := by
  rcases hs with hrefused | ⟨-, -, hzero⟩ | ⟨-, -, hbound⟩
  · exact .inr hrefused
  · exact .inl (hzero ▸ Nat.zero_le _)
  · exact .inl hbound

omit [Crypto] in
/-- As long as the connection has not failed, the history tells whether the counter is in use. -/
theorem Session.CountsSkipped.counter_eq_iff (hs : s.CountsSkipped imported)
    (hrefused : ¬ SkipRefused s.trace) :
    s.tls.earlyDataSkippedBytes = uint32Max ↔ ¬ s.SkipBegun imported := by
  rcases hs with hrefused' | ⟨hnone, hmax, -⟩ | ⟨hbegun, hcounter, hbound⟩
  · exact absurd hrefused' hrefused
  · exact iff_of_true hmax hnone
  · have hsmall : maxEarlyDataSkipSize < uint32Max := by decide
    exact iff_of_false (by omega) (not_not.mpr hbegun)

/-- The counter of a new server agrees with the history. -/
theorem serverRun_skip (hconforms : env.Conforms) (ctx : Context) (operations : List Operation) :
    (serverRun env ctx operations).CountsSkipped false ∧
      (serverRun env ctx operations).tls.isServer = true := by
  have hnew : (Session.newServer ctx).HasNotSkipped false := by
    refine ⟨?_, rfl, rfl⟩
    rintro (⟨⟨⟩⟩ | ⟨⟨⟩⟩)
  have hinv := (skipInv_isServerInvariant hconforms).isInvariant.performAll_inv operations true
    ⟨hnew.inv true, Session.newServer_isServer ctx⟩
  exact ⟨hinv.1.counts, hinv.2.1⟩

/-- An imported server starts with a counter of zero. -/
theorem ptlsImport_skipInv (himport : ptlsImport ctx params env (.initial ctx false) = (.ok (), t))
    (hserver : t.tls.isServer = true) : SkipInv true true t ∧ t.IsServer := by
  obtain ⟨isServer, isPskHandshake, s₁, t₁, htls, htrace, hsteps, rfl⟩ := ptlsImport_eq_ok himport
  have hflag : isServer = true := by
    have hkept := Steps.isServer_eq hsteps
    rw [htls] at hkept
    exact hkept.symm.trans hserver
  have hmay₁ : s₁.MaySkip true := by
    rw [Session.MaySkip, htls, htrace]
    exact ⟨.inr ⟨.inl rfl, rfl⟩, rfl⟩
  have hmay := hmay₁.steps hsteps (by decide)
  refine ⟨⟨hmay.counts, fun _ hfirst => ?_⟩, hserver, ?_⟩
  · simp [hflag] at hfirst
  · simp only [hflag, if_true]
    decide

theorem importedRun_skip (hconforms : env.Conforms)
    (himport : ptlsImport ctx params env (.initial ctx false) = (.ok (), t))
    (hserver : t.tls.isServer = true) (operations : List Operation) :
    (importedRun env ctx params operations).CountsSkipped true ∧
      (importedRun env ctx params operations).tls.isServer = true := by
  have hrun : importedRun env ctx params operations = (performAll true operations env t).2 :=
    congrArg Prod.snd (bind_of_ok himport)
  have hinv := (skipInv_isServerInvariant hconforms).isInvariant.performAll_inv operations true
    (ptlsImport_skipInv himport hserver)
  rw [hrun]
  exact ⟨hinv.1.counts, hinv.2.1⟩

/-! ## Records that cannot be decrypted -/

/-- A ciphertext that does not open leaves the connection as it was. -/
theorem aeadDecrypt_of_none (haead : s.tls.dec.aead = some aead)
    (hopen : aead.decrypt input s.tls.dec.seq (buildAad input.length) = none) :
    aeadDecrypt input env s = (.error (.code Alert.badRecordMac), s) := by
  unfold aeadDecrypt
  rw [getTls_bind, haead, deref_some_bind, hopen]
  rfl

/-- Under a receiving key, a record that does not open is either refused or passed over. -/
theorem handleEncryptedRecord_undecryptable (haead : s.tls.dec.aead = some aead)
    (halloc : env.alloc s.tick = true)
    (hopen : aead.decrypt fragment s.tls.dec.seq (buildAad fragment.length) = none) :
    handleEncryptedRecord emitter ⟨ContentType.appdata, fragment⟩ properties env s =
      (if s.tls.skipsEarlyData then serverSkipEarlyData fragment.length
        else throwCode Alert.badRecordMac) env { s with tick := s.tick + 1 } := by
  have hallocate : allocate env s = (.ok (), { s with tick := s.tick + 1 }) := by
    rw [allocate_run, if_pos halloc]
  have hdecrypt : attemptCode (aeadDecrypt fragment) env { s with tick := s.tick + 1 } =
      (.ok (.error Alert.badRecordMac), { s with tick := s.tick + 1 }) := by
    have hrun : aeadDecrypt fragment env { s with tick := s.tick + 1 } = _ :=
      aeadDecrypt_of_none haead hopen
    rw [attemptCode_run, hrun]
  unfold handleEncryptedRecord
  rw [throwIf_bind_of_not (by simp), bind_of_ok hallocate, bind_of_ok hdecrypt]
  rfl

/-- The input completes a protected record that does not open under the receiving key. -/
def Session.CannotOpen (env : Environment) (s : Session) (input : Bytes) : Prop :=
  ∃ fragment aead s₁, parseRecord input env s = (.ok (some ⟨ContentType.appdata, fragment⟩), s₁) ∧
    env.alloc s₁.tick = true ∧ s.tls.dec.aead = some aead ∧
    aead.decrypt fragment s.tls.dec.seq (buildAad fragment.length) = none

/-- A record that does not open is refused exactly if nothing is to be passed over. -/
theorem handleInput_undecryptable (hinput : s.CannotOpen env input)
    (hserver : s.tls.isServer = true) :
    (handleInput emitter input properties env s).1 = .error (.code Alert.badRecordMac) ↔
      s.tls.earlyDataSkippedBytes = uint32Max := by
  obtain ⟨fragment, aead, s₁, hparse, halloc, haead, hopen⟩ := hinput
  have hkept {γ : Type} (f : Session → γ) (hio : ∀ t t', Effect.Step .io t t' → f t' = f t)
      (hreceive : ∀ t t', Effect.Step .receive t t' → f t' = f t) : f s₁ = f s := by
    refine Within.keeps (E := [.io, .receive]) inferInstance hparse fun e he t t' hstep => ?_
    rcases List.mem_pair.mp he with rfl | rfl
    · exact hio t t' hstep
    · exact hreceive t t' hstep
  have hdec : s₁.tls.dec = s.tls.dec :=
    hkept (·.tls.dec) (fun _ _ h => by cases h; rfl) (fun _ _ h => by cases h; rfl)
  have hserver₁ : s₁.tls.isServer = s.tls.isServer :=
    hkept (·.tls.isServer) (fun _ _ h => by cases h; rfl) (fun _ _ h => by cases h; rfl)
  have hcounter : s₁.tls.earlyDataSkippedBytes = s.tls.earlyDataSkippedBytes :=
    hkept (·.tls.earlyDataSkippedBytes) (fun _ _ h => by cases h; rfl)
      (fun _ _ h => by cases h; rfl)
  rw [← hdec] at haead hopen
  rw [← hserver₁] at hserver
  have hrecord : handleInput emitter input properties env s =
      handleEncryptedRecord emitter ⟨ContentType.appdata, fragment⟩ properties env s₁ := by
    unfold handleInput
    rw [bind_of_ok hparse]
    dsimp only
    unfold handleRecord
    have hccs : ContentType.appdata ≠ ContentType.changeCipherSpec := by decide
    have halert : ContentType.appdata ≠ ContentType.alert := by decide
    rw [getTls_bind, if_neg hccs, if_pos ⟨by simp [haead], halert⟩]
  rw [hrecord, handleEncryptedRecord_undecryptable haead halloc hopen, ← hcounter]
  have hskips : s₁.tls.skipsEarlyData ↔ s₁.tls.earlyDataSkippedBytes ≠ uint32Max := by
    simp [Tls.skipsEarlyData, hserver]
  split_ifs with hskip
  · refine iff_of_false (fun hmac => ?_) (hskips.mp hskip)
    rw [(serverSkipEarlyData_run _ _ _).1] at hmac
    split_ifs at hmac
    cases hmac
  · exact iff_of_true rfl (not_not.mp (mt hskips.mpr hskip))

/-- In all runs of a new server, a record that does not open is refused exactly if no early data has
been rejected so far, whether or not records have been decrypted before; otherwise it is passed
over. In all runs of an imported server such records are passed over. The records passed over stay
within the limit unless the connection fails. -/
theorem early_data_skip_ends_iff (env : Environment) (hconforms : env.Conforms) :
    (∀ (ctx : Context) (operations : List Operation) (emitter : Emitter) (input : Bytes)
        (properties : Option HandshakeProperties), let s := serverRun env ctx operations
      (¬ SkipRefused s.trace → s.CannotOpen env input →
        ((handleInput emitter input properties env s).1 = .error (.code Alert.badRecordMac) ↔
          .rejectEarlyData ∉ s.trace)) ∧
      (skippedLength s.trace ≤ maxEarlyDataSkipSize ∨ SkipRefused s.trace)) ∧
    (∀ (ctx : Context) (params : Bytes) (t : Session) (operations : List Operation)
        (emitter : Emitter) (input : Bytes) (properties : Option HandshakeProperties),
      let s := importedRun env ctx params operations
      ptlsImport ctx params env (.initial ctx false) = (.ok (), t) → t.tls.isServer = true →
      (¬ SkipRefused s.trace → s.CannotOpen env input →
        (handleInput emitter input properties env s).1 ≠ .error (.code Alert.badRecordMac)) ∧
      (skippedLength s.trace ≤ maxEarlyDataSkipSize ∨ SkipRefused s.trace)) ∧
    ∀ (length : ℕ) (s : Session), ∃ tolerated : Bool,
      (serverSkipEarlyData length env s).2.trace = s.trace ++ [.skipEarlyData length tolerated] ∧
      (serverSkipEarlyData length env s).1 =
        if tolerated then .ok Error.inProgress else .error (.code Alert.handshakeFailure) := by
  refine ⟨?_, ?_, ?_⟩
  · intro ctx operations emitter input properties s
    obtain ⟨hcounts, hserver⟩ := serverRun_skip hconforms ctx operations
    refine ⟨fun hrefused hinput => ?_, hcounts.bounded⟩
    rw [handleInput_undecryptable hinput hserver, hcounts.counter_eq_iff hrefused]
    simp [Session.SkipBegun, s]
  · intro ctx params t operations emitter input properties s himport hserver
    obtain ⟨hcounts, hserver'⟩ := importedRun_skip hconforms himport hserver operations
    refine ⟨fun hrefused hinput => ?_, hcounts.bounded⟩
    rw [Ne, handleInput_undecryptable hinput hserver', hcounts.counter_eq_iff hrefused]
    exact not_not.mpr (.inl rfl)
  · intro length s
    obtain ⟨hresult, htrace⟩ := serverSkipEarlyData_run length env s
    exact ⟨_, htrace, by rw [hresult]; simp only [decide_eq_true_eq]⟩

omit [Crypto] in
/-- An imported server passes over a record that does not open. -/
theorem imported_server_skips :
    let imported := @ptlsImport Sample.crypto Sample.context Sample.exportedServer
      Sample.environment (.initial Sample.context false)
    imported.1 = .ok () ∧ imported.2.tls.isServer = true ∧
      (imported.2.tls.dec.aead.bind fun aead =>
        @AeadContext.decrypt Sample.crypto aead [] imported.2.tls.dec.seq (buildAad 0)) = none ∧
      (@handleInput Sample.crypto .record [ContentType.appdata, 3, 3, 0, 0] none
        Sample.environment imported.2).1 = .ok Error.inProgress := by
  decide +kernel

namespace Sample

/-- A record that is too short to open. -/
def shortRecord : Bytes := [ContentType.appdata, 3, 3, 0, 0]

omit [Crypto] in
/-- A record that does not open, from what can be evaluated. -/
theorem cannotOpen_of_eval {s : Session}
    (hparse : (parseRecord shortRecord environment s).1 = .ok (some ⟨ContentType.appdata, []⟩))
    (hopen : s.tls.dec.aead.any (fun aead =>
      (@AeadContext.decrypt crypto aead [] s.tls.dec.seq (buildAad 0)).isNone) = true) :
    @Session.CannotOpen crypto environment s shortRecord := by
  cases haead : s.tls.dec.aead with
  | none =>
    rw [haead] at hopen
    cases hopen
  | some aead =>
    rw [haead] at hopen
    exact ⟨[], aead, _, Prod.ext hparse rfl, rfl, haead, Option.isNone_iff_eq_none.mp hopen⟩

/-- The step refuses to pass over a record. -/
def refusesSkip : Event → Bool
  | .skipEarlyData _ tolerated => !tolerated
  | _ => false

omit [Crypto] in
theorem not_skipRefused {trace : List Event} (h : trace.any refusesSkip = false) :
    ¬ SkipRefused trace := by
  rintro ⟨length, hmem⟩
  exact absurd (List.any_eq_true.mpr ⟨_, hmem, rfl⟩) (Bool.eq_false_iff.mp h)

end Sample

open Sample

omit [Crypto] in
/-- The theorem at a server after its handshake, which refuses a record, and at the run of an
imported one that has passed over a record. -/
theorem early_data_skip_ends_iff_sample :
    (let run := @serverRun crypto environment dheContext
      (pskClient [140, 140])
    run.tls.state = .serverPostHandshake ∧
      (@handleInput crypto .record shortRecord none environment run).1 =
        .error (.code Alert.badRecordMac)) ∧
    let run := @importedRun crypto environment context exportedServer
      [.receive shortRecord]
    .skipEarlyData 0 true ∈ run.trace ∧
      (@handleInput crypto .record shortRecord none environment run).1 ≠
        .error (.code Alert.badRecordMac) := by
  have h := @early_data_skip_ends_iff crypto environment environment_conforms
  refine ⟨⟨by decide +kernel, ?_⟩, by decide +kernel, ?_⟩
  · refine ((h.1 _ _ .record _ none).1 (not_skipRefused ?_)
      (cannotOpen_of_eval ?_ ?_)).mpr ?_ <;> decide +kernel
  · have himport : (@ptlsImport crypto context exportedServer
        environment (.initial context false)).1 = .ok () := by decide +kernel
    have hpair (outcome : Except Fault Unit × Session) (hok : outcome.1 = .ok ()) :
        outcome = (.ok (), outcome.2) := Prod.ext hok rfl
    refine (h.2.1 _ _ _ _ .record _ none (hpair _ himport) ?_).1 (not_skipRefused ?_)
      (cannotOpen_of_eval ?_ ?_) <;> decide +kernel

end Picotls
