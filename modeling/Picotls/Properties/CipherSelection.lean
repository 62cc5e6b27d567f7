import Picotls.Client.Schedule
import Picotls.ClientInvariants
import Picotls.Sample

/-!
# Selecting a cipher suite in the client's key schedule

The slots of the key schedule shrink to one when a HelloRetryRequest is handled. If the ServerHello
that follows names a suite with another hash, no slot is found. As long as all hellos of the server
name suites of one hash, every selection finds exactly one slot.
-/

namespace Picotls

open Foundation Procedure

variable {message : Bytes} {cs : CipherSuite} {trace trace' : List Event}
  {properties : Option HandshakeProperties} {sh : ServerHello}

/-- All hellos that the client was given name suites of the same hash. -/
def OneHash (ctx : Context) (trace : List Event) : Prop :=
  ∀ message cs message' cs', .hello message ∈ trace → helloSuite ctx message = some cs →
    .hello message' ∈ trace → helloSuite ctx message' = some cs' → cs.hash = cs'.hash

/-- A selection of a cipher suite finds exactly one slot with the hash of the suite. -/
def Event.SelectsOne : Event → Prop
  | .selectCipher before cs found =>
    ∃ slot, before.filter (·.algo = cs.hash) = [slot] ∧ found = [slot]
  | _ => True

/-- The hashes of the schedule are distinct, and are all that were offered or include the one that
the server has chosen. -/
structure Selectable (ctx : Context) (trace : List Event) (algos : List HashAlgorithm) : Prop where
  nodup : algos.Nodup
  chosen : (∀ cs ∈ ctx.cipherSuites, cs.hash ∈ algos) ∨
    ∃ message cs, .hello message ∈ trace ∧ helloSuite ctx message = some cs ∧ cs.hash ∈ algos

/-- What holds of the selections in every run of a client. -/
structure SelectionInv (ctx : Context) (s : Session) : Prop where
  ctx_eq : s.tls.ctx = ctx
  selectable : ∀ algos, s.algos = some algos → Selectable ctx s.trace algos
  selects : OneHash ctx s.trace → ∀ event ∈ s.trace, event.SelectsOne

/-! ## Steps that select nothing -/

/-- No suite is selected between two states; a key schedule may be started. -/
structure KeepsSelection (s t : Session) : Prop where
  ctx_eq : t.tls.ctx = s.tls.ctx
  grows : s.trace ⊆ t.trace
  selections : ∀ event ∈ t.trace, event.kind = .selectCipher → event ∈ s.trace
  algos : ∀ algos, t.algos = some algos → s.algos = some algos ∨
    ∃ preferred, algos = keyScheduleHashes preferred (some s.tls.ctx.cipherSuites)

instance : IsPreorder Session KeepsSelection where
  refl s := ⟨rfl, List.Subset.refl _, fun _ h _ => h, fun _ h => .inl h⟩
  trans s t u hst htu := by
    refine ⟨htu.ctx_eq.trans hst.ctx_eq, List.Subset.trans hst.grows htu.grows,
      fun event hmem hkind => hst.selections event (htu.selections event hmem hkind) hkind,
      fun algos halgos => ?_⟩
    rcases htu.algos algos halgos with h | ⟨preferred, h⟩
    · exact hst.algos algos h
    · exact .inr ⟨preferred, by rw [h, hst.ctx_eq]⟩

section Steps

variable {E : List Effect} {s t : Session} {ctx : Context}

/-- The effect neither replaces the schedule or the context nor selects a suite. -/
def Effect.KeepsSelection (e : Effect) : Bool :=
  e ≠ .schedule && e ≠ .context && !e.emits .selectCipher

theorem Steps.keepsSelection (h : Via E s t) (hE : ∀ e ∈ E, e.KeepsSelection) :
    KeepsSelection s t := by
  have hkeeps (e : Effect) (he : e ∈ E) :
      e ≠ .schedule ∧ e ≠ .context ∧ e.emits .selectCipher = false := by
    simpa [Effect.KeepsSelection, and_assoc] using hE e he
  have halgos := Steps.algos_eq h fun he => (hkeeps _ he).1 rfl
  refine ⟨Steps.ctx_eq h fun he => (hkeeps _ he).2.1 rfl, (Steps.trace_prefix h).subset,
    fun event hmem hkind => ?_, fun algos h => .inl (halgos ▸ h)⟩
  refine (Steps.mem_trace event h fun e he => ?_).mp hmem
  rw [hkind]
  exact (hkeeps e he).2.2

/-- New hashes of the schedule are the offered ones. -/
theorem selectable_keyScheduleHashes (trace : List Event) (preferred : Option CipherSuite) :
    Selectable ctx trace (keyScheduleHashes preferred (some ctx.cipherSuites)) :=
  ⟨nodup_keyScheduleHashes, .inl fun _ => hash_mem_keyScheduleHashes⟩

theorem Selectable.mono {algos : List HashAlgorithm} (h : Selectable ctx trace algos)
    (hsub : trace ⊆ trace') : Selectable ctx trace' algos := by
  refine ⟨h.nodup, h.chosen.imp_right ?_⟩
  rintro ⟨message, cs, hmem, hcs⟩
  exact ⟨message, cs, hsub hmem, hcs⟩

theorem OneHash.anti (h : OneHash ctx trace') (hsub : trace ⊆ trace') : OneHash ctx trace := by
  intro message cs message' cs' hmem hcs hmem' hcs'
  exact h message cs message' cs' (hsub hmem) hcs (hsub hmem') hcs'

theorem KeepsSelection.inv (h : KeepsSelection s t) (hs : SelectionInv ctx s) :
    SelectionInv ctx t := by
  refine ⟨h.ctx_eq.trans hs.ctx_eq, fun algos halgos => ?_, fun hone event hmem => ?_⟩
  · rcases h.algos algos halgos with hold | ⟨preferred, rfl⟩
    · exact (hs.selectable algos hold).mono h.grows
    · rw [hs.ctx_eq]
      exact selectable_keyScheduleHashes _ preferred
  · by_cases hkind : event.kind = .selectCipher
    · exact hs.selects (hone.anti h.grows) event (h.selections event hmem hkind)
    · cases event <;> trivial

end Steps

/-- The effects of handling hellos outside of starting a schedule and of selecting a suite. -/
abbrev unselectiveEffects : List Effect :=
  [.io, .draw, .transcript, .advance, .dec, .encSecret, .encClear, .encInstall, .encrypt,
    .negotiation, .suite, .psk, .ech, .earlyData, .misc, .refuse, .state .clientExpectServerHello,
    .state .clientExpectSecondServerHello, .state .clientExpectEncryptedExtensions, .note .derive,
    .note .finishedMac, .note .hello, .note .acceptServerHello, .note .clientHello, .note .sent,
    .note .absorb, .note .decideEch, .note .exchange, .note .handshakeSecret]

instance (priority := low) {α : Type} {m : Proc α} [hm : Within unselectiveEffects m] :
    Respects KeepsSelection m :=
  ⟨fun env s => Steps.keepsSelection (hm.relates env s) (by decide)⟩

variable [Crypto] {env : Environment} {s : Session} {ctx : Context}

/-! ## Hellos of the client -/

instance (psk : Option OfferedPsk) : Respects KeepsSelection (startKeySchedule psk) where
  relates env s := by
    have hsteps : Via [.io, .advance, .schedule, .note .derive, .note .startSchedule]
        s (startKeySchedule psk env s).2 := Respects.relates env s
    refine ⟨Steps.ctx_eq hsteps (by decide), (Steps.trace_prefix hsteps).subset,
      fun event hmem hkind => ?_, fun algos halgos => ?_⟩
    · exact (Steps.mem_trace event hsteps (by rw [hkind]; decide)).mp hmem
    · exact (startKeySchedule_algos env s psk halgos).imp_right fun h => ⟨_, h⟩

instance (properties : Option HandshakeProperties) (cookie : Option Bytes) :
    Respects KeepsSelection (composeClientHello .record properties cookie) := by
  unfold composeClientHello
  dsimp only
  repeat' first | infer_instance | refine .seq ?_ fun _ => ?_

instance (properties : Option HandshakeProperties) (cookie : Option (Option Bytes)) :
    Respects KeepsSelection (sendClientHello .record properties cookie) := by
  unfold sendClientHello
  dsimp only
  repeat' first | infer_instance | refine .seq ?_ fun _ => ?_

/-! ## Hellos of the server -/

/-- Selecting the suite that a hello names finds one slot, unless another hash was selected. -/
theorem keyScheduleSelectCipher_inv (reset : Bool) (resetIkm : Option Bytes)
    (hhello : .hello message ∈ s.trace) (hcs : helloSuite ctx message = some cs)
    (hs : SelectionInv ctx s) :
    SelectionInv ctx (keyScheduleSelectCipher cs reset resetIkm env s).2 := by
  have hselecting {sched keySchedule : KeySchedule} (hsched : s.tls.keySchedule = some sched)
      (halgos : Selectable ctx s.trace (keySchedule.hashes.map HashSlot.algo)) :
      SelectionInv ctx (s.selecting sched cs keySchedule) := by
    refine ⟨hs.ctx_eq, fun algos h => ?_, fun hone event hmem => ?_⟩
    · obtain rfl : keySchedule.hashes.map HashSlot.algo = algos := by
        simpa [Session.algos, Session.selecting] using h
      exact halgos.mono (List.subset_append_left _ _)
    · rcases List.mem_append.mp hmem with hold | hnew
      · exact hs.selects (hone.anti (List.subset_append_left _ _)) event hold
      · obtain rfl := List.mem_singleton.mp hnew
        have hbefore := hs.selectable _ (congrArg (Option.map _) hsched)
        have hmem : cs.hash ∈ sched.hashes.map HashSlot.algo := by
          rcases hbefore.chosen with hall | ⟨message', cs', hhello', hcs', hmem'⟩
          · exact hall cs (List.mem_of_find?_eq_some hcs)
          · rw [hone message cs message' cs' (List.mem_append_left _ hhello) hcs
              (List.mem_append_left _ hhello') hcs']
            exact hmem'
        obtain ⟨slot, hslot⟩ := exists_filter_algo_eq hbefore.nodup hmem
        exact ⟨slot, hslot, hslot⟩
  rcases keyScheduleSelectCipher_cases env s cs reset resetIkm with ⟨fault, hrun⟩ |
    ⟨sched, hsched, hgeneration, ⟨fault, hrun⟩ | ⟨slot, hfound⟩⟩
  · rw [hrun]
    exact hs
  · rw [hrun]
    exact hselecting hsched (hs.selectable _ (congrArg (Option.map _) hsched))
  · have hslot : slot.algo = cs.hash := by
      have hmem : slot ∈ sched.hashes.filter (·.algo = cs.hash) := by rw [hfound]; simp
      simpa using (List.mem_filter.mp hmem).2
    have hselectable : Selectable ctx s.trace [slot.algo] :=
      ⟨by simp, .inr ⟨message, cs, hhello, hcs, by simp [hslot]⟩⟩
    rw [keyScheduleSelectCipher_of_found hsched hgeneration hfound]
    split_ifs
    · exact (Respects.relates (R := KeepsSelection) env _).inv (hselecting hsched hselectable)
    · exact hselecting hsched hselectable

omit [Crypto] in
/-- What follows a selection selects nothing else. -/
theorem SelectionInv.andThen {α β : Type} {m : Proc α} {f : α → Proc β}
    (hm : SelectionInv ctx (m env s).2) (hf : ∀ a, Respects KeepsSelection (f a)) :
    SelectionInv ctx ((m >>= f) env s).2 :=
  bind_post (P := SelectionInv ctx) (Q := fun p => SelectionInv ctx p.2) hm (fun _ _ => id)
    fun a t _ ht => ((hf a).relates env t).inv ht

theorem clientHandleRetry_inv (hhello : .hello message ∈ s.trace)
    (hcs : helloSuite ctx message = some cs) (hsuite : s.tls.cipherSuite = some cs)
    (hs : SelectionInv ctx s) :
    SelectionInv ctx (clientHandleRetry .record message sh properties env s).2 := by
  unfold clientHandleRetry clientAbsorbRetry
  simp only [Procedure.bind_assoc]
  rw [getTls_bind, bind_of_ok (deref_eq_ok.mpr ⟨hsuite, rfl⟩)]
  refine SelectionInv.andThen (keyScheduleSelectCipher_inv _ _ hhello hcs hs) fun _ => ?_
  unfold handleHelloRetryRequest
  repeat' first | infer_instance | refine .seq ?_ fun _ => ?_

theorem clientHandleServerHello_inv (hhello : .hello message ∈ s.trace)
    (hcs : helloSuite ctx message = some cs) (hsuite : s.tls.cipherSuite = some cs)
    (hs : SelectionInv ctx s) : SelectionInv ctx (clientHandleServerHello message sh env s).2 := by
  unfold clientHandleServerHello
  dsimp only
  rw [getTls_bind, bind_of_ok (deref_eq_ok.mpr ⟨hsuite, rfl⟩)]
  exact SelectionInv.andThen (keyScheduleSelectCipher_inv _ _ hhello hcs hs) fun _ => by
    repeat' first | infer_instance | refine .seq ?_ fun _ => ?_

/-- Handling a hello selects the suite that the hello names. -/
theorem clientHandleHello_inv (hs : SelectionInv ctx s) :
    SelectionInv ctx (clientHandleHello .record message properties env s).2 := by
  unfold clientHandleHello
  rw [emitEvent_bind]
  set s₁ : Session := { s with trace := s.trace ++ [.hello message] } with hs₁
  have hhello : .hello message ∈ s₁.trace := List.mem_append_right _ (List.mem_singleton_self _)
  have hinv₁ : SelectionInv ctx s₁ :=
    (Respects.relates (R := KeepsSelection) (m := emitEvent (.hello message)) env s).inv hs
  have hkeeps := Respects.relates (R := KeepsSelection) (m := clientReadHello message) env s₁
  refine bind_cases (Q := fun p => SelectionInv ctx p.2) (fun fault t hrun => ?_)
    fun sh t hrun => ?_ <;> rw [hrun] at hkeeps
  · exact hkeeps.inv hinv₁
  have hinv : SelectionInv ctx t := hkeeps.inv hinv₁
  have hhello' : .hello message ∈ t.trace := hkeeps.grows hhello
  obtain ⟨-, -, -, cs, psk, hfind, htls, -⟩ := clientReadHello_eq_ok hrun
  have hcs : helloSuite ctx message = some cs := by rw [← hs.ctx_eq]; exact hfind
  have hsuite : t.tls.cipherSuite = some cs := by rw [htls]
  split_ifs
  · exact clientHandleRetry_inv hhello' hcs hsuite hinv
  · exact clientHandleServerHello_inv hhello' hcs hsuite hinv

/-! ## Runs -/

theorem selectionInv_isClientInvariant : IsClientInvariant (fun _ => SelectionInv ctx) env where
  weaken _ := id
  steps _ s s' hsteps hs := (Steps.keepsSelection hsteps (by decide)).inv hs
  flight s s' hsteps _ hs := (Steps.keepsSelection hsteps (by decide)).inv hs
  start properties s _ _ hs := by
    have hs' : SelectionInv ctx (sendClientHello .record properties none env s).2 :=
      KeepsSelection.inv (Respects.relates env s) hs
    exact ⟨hs', fun _ => hs'⟩
  hello properties message s _ _ _ hs := by
    have hs' : SelectionInv ctx (clientHandleHello .record message properties env s).2 :=
      clientHandleHello_inv hs
    exact ⟨hs', fun _ => hs'⟩

/-- A selection that finds one slot keeps that slot and no other, even if the early secret cannot
be computed again. -/
theorem keyScheduleSelectCipher_keeps {reset : Bool} {resetIkm : Option Bytes} {sched : KeySchedule}
    {slot : HashSlot} (hsched : s.tls.keySchedule = some sched) (hgeneration : sched.generation = 1)
    (hfound : sched.hashes.filter (·.algo = cs.hash) = [slot]) :
    (keyScheduleSelectCipher cs reset resetIkm env s).2.tls.keySchedule.map KeySchedule.hashes =
      some [slot] := by
  rw [keyScheduleSelectCipher_of_found hsched hgeneration hfound]
  split_ifs
  · obtain ⟨t, -, htls, ⟨fault, hrun⟩ | hrun | hrun⟩ :=
      keyScheduleExtract_run (s := s.selecting sched cs { hashes := [slot] }) env resetIkm
        rfl rfl <;>
      rw [hrun]
    · rw [htls]
      rfl
    · rfl
    · rfl
  · rfl

/-- In every run of a client in which the hellos of the server name suites of one hash, every
selection of a cipher suite finds exactly one slot with the hash of the suite. A selection that
finds one slot keeps that slot and no other. -/
theorem selections_find_one_slot (env : Environment) :
    (∀ (ctx : Context) (serverName : Option Bytes) (operations : List Operation),
      OneHash ctx (clientRun env ctx serverName operations).trace →
      ∀ event ∈ (clientRun env ctx serverName operations).trace, event.SelectsOne) ∧
    ∀ (cs : CipherSuite) (reset : Bool) (resetIkm : Option Bytes) (s : Session)
      (sched : KeySchedule) (slot : HashSlot), s.tls.keySchedule = some sched →
      sched.generation = 1 → sched.hashes.filter (·.algo = cs.hash) = [slot] →
      (keyScheduleSelectCipher cs reset resetIkm env s).2.tls.keySchedule.map KeySchedule.hashes =
        some [slot] := by
  refine ⟨fun ctx serverName operations hone => ?_, fun cs reset resetIkm s sched slot hsched
    hgeneration hfound => ?_⟩
  · have hinit (s : Session) (hs : s.IsNewClient ctx) : SelectionInv ctx s := by
      obtain ⟨htrace, -, _, _, _, htls⟩ := hs
      refine ⟨by rw [htls]; rfl, fun algos halgos => ?_, fun _ event hmem => ?_⟩
      · rw [Session.algos, htls] at halgos
        cases halgos
      · rw [htrace] at hmem
        cases hmem
    exact (selectionInv_isClientInvariant.clientRun_inv hinit serverName operations).selects hone
  · exact keyScheduleSelectCipher_keeps hsched hgeneration hfound

/-- A selection that finds nothing. -/
def Event.findsNoSlot : Event → Bool
  | .selectCipher _ _ found => found = []
  | _ => false

omit [Crypto] in
theorem not_selectsOne_of_findsNoSlot {event : Event} (h : event.findsNoSlot) :
    ¬ event.SelectsOne := by
  cases event <;> simp [Event.findsNoSlot] at h
  rintro ⟨slot, -, hfound⟩
  simp [h] at hfound

open Sample

/-- The sample client is given a HelloRetryRequest and a ServerHello, each with a suite of its
own. -/
def Sample.changeOfSuite (suite suite' : ℕ) : List Operation :=
  [.handshake none [], .handshake none (record (retryRequest suite)),
    .handshake none (record (Sample.hello (zeros 32) suite' helloExtensions))]

omit [Crypto] in
/-- After a HelloRetryRequest the slot of another hash is not found, and the access that follows is
out of bounds. -/
theorem selection_out_of_bounds :
    (¬ ∀ event ∈ (@clientRun crypto environment context none
      (changeOfSuite 0x1301 0x1302)).trace, event.SelectsOne) ∧
    (@clientHandleHello crypto .record (Sample.hello (zeros 32) 0x1302 helloExtensions)
      none environment (@clientRun crypto environment context none
        ((changeOfSuite 0x1301 0x1302).take 2))).1 = .error .undefined := by
  refine ⟨fun hall => ?_, by decide +kernel⟩
  have hany : (@clientRun crypto environment context none
      (changeOfSuite 0x1301 0x1302)).trace.any Event.findsNoSlot := by decide +kernel
  obtain ⟨event, hmem, hnone⟩ := List.any_eq_true.mp hany
  exact not_selectsOne_of_findsNoSlot hnone (hall event hmem)

omit [Crypto] in
theorem oneHash_of_helloHashes (algo : HashAlgorithm)
    (h : ∀ algo' ∈ helloHashes ctx trace, algo' = algo) : OneHash ctx trace := by
  intro message cs message' cs' hmem hcs hmem' hcs'
  rw [h _ (hash_mem_helloHashes hmem hcs), h _ (hash_mem_helloHashes hmem' hcs')]

omit [Crypto] in
/-- The theorem at a run with a HelloRetryRequest and a ServerHello of the same hash, and at a
selection. -/
theorem selections_find_one_slot_sample :
    let run := @clientRun crypto environment context none
      (changeOfSuite 0x1302 0x1302)
    (∃ event ∈ run.trace, event.kind = .selectCipher ∧ event.SelectsOne) ∧
      (@keyScheduleSelectCipher crypto (Sample.suite 0x1301 0) false none environment
        { tls := { newInstance context false .clientExpectServerHello with
            keySchedule := some { generation := 1, hashes := [⟨Sample.hash 0, [], none⟩] } } }
        ).2.tls.keySchedule.map KeySchedule.hashes = some [⟨Sample.hash 0, [], none⟩] := by
  have h := @selections_find_one_slot crypto environment
  have hany : (@clientRun crypto environment context none
      (changeOfSuite 0x1302 0x1302)).trace.any (·.kind = .selectCipher) := by decide +kernel
  obtain ⟨event, hmem, hkind⟩ := List.any_eq_true.mp hany
  refine ⟨⟨event, hmem, of_decide_eq_true hkind, ?_⟩, h.2 _ _ _ _ _ _ rfl rfl (by decide)⟩
  refine h.1 _ _ _ (oneHash_of_helloHashes (Sample.hash 1) ?_) event hmem
  decide +kernel

end Picotls
