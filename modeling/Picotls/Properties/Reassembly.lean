import Picotls.Foundation.Framing
import Picotls.Invariants
import Picotls.Sample

/-!
# Reassembly of handshake messages

Handshake messages are cut into records in any way. The handler of records keeps the part of a
message that it has, hands every message over once it is complete, and refuses content of another
type in between. With a limit on the buffer, what is kept is never longer than the limit.
-/

namespace Picotls

open Foundation Procedure

variable {src : Bytes} {x : Except Fault Code} {messages : List Bytes} {rec : Record} {length : ℕ}

/-! ## Messages of a stream -/

/-- The octets are one handshake message. -/
def IsMessage (message : Bytes) : Prop := completeMessageLength message = some message.length

instance (message : Bytes) : Decidable (IsMessage message) :=
  inferInstanceAs (Decidable (_ = _))

/-- The length of a message that is there as a whole. -/
theorem completeMessageLength_eq_some :
    completeMessageLength src = some length ↔
      4 ≤ src.length ∧ length = 4 + ofBE ((src.drop 1).take 3) ∧ length ≤ src.length := by
  unfold completeMessageLength
  generalize ofBE ((src.drop 1).take 3) = size
  dsimp only
  split_ifs
  · simp
    omega
  · simp
    omega
  · simp only [Option.some.injEq]
    omega

/-- The length of a message stays what it is when more octets arrive. -/
theorem completeMessageLength_append (more : Bytes) (h : completeMessageLength src = some length) :
    completeMessageLength (src ++ more) = some length := by
  obtain ⟨hheader, hlength, hle⟩ := completeMessageLength_eq_some.mp h
  have hsize : ((src ++ more).drop 1).take 3 = (src.drop 1).take 3 := by
    rw [List.drop_append_of_le_length (by omega),
      List.take_append_of_le_length (by rw [List.length_drop]; omega)]
  rw [completeMessageLength_eq_some, hsize, List.length_append]
  exact ⟨by omega, hlength, by omega⟩

/-- Cut the first message off a stream. -/
def cutMessage (src : Bytes) : Except Empty (Option (Bytes × Bytes)) :=
  .ok ((completeMessageLength src).map fun length => (src.take length, src.drop length))

theorem cutMessage_eq_some {message rest : Bytes} :
    cutMessage src = .ok (some (message, rest)) ↔ ∃ length,
      completeMessageLength src = some length ∧ src.take length = message ∧
        src.drop length = rest := by
  simp [cutMessage]

/-- The handshake messages of a stream of octets. -/
def messageFraming : Framing UInt8 Bytes Empty where
  cut := cutMessage
  cut_shorter := by
    intro src message rest h
    obtain ⟨length, hlength, -, rfl⟩ := cutMessage_eq_some.mp h
    obtain ⟨hheader, hlength, -⟩ := completeMessageLength_eq_some.mp hlength
    rw [List.length_drop]
    omega
  cut_append := by
    intro src message rest more h
    obtain ⟨length, hlength, rfl, rfl⟩ := cutMessage_eq_some.mp h
    obtain ⟨-, -, hle⟩ := completeMessageLength_eq_some.mp hlength
    refine cutMessage_eq_some.mpr ⟨length, completeMessageLength_append more hlength, ?_, ?_⟩
    · exact List.take_append_of_le_length hle
    · exact List.drop_append_of_le_length hle
  cut_append_error := by
    intro src e
    exact e.elim

/-- The messages of a stream are the ones that it was put together from. -/
theorem read_messages (hmessages : ∀ message ∈ messages, IsMessage message) :
    messageFraming.read messages.flatten = ⟨messages, none, []⟩ := by
  induction messages with
  | nil => exact Framing.read_of_none rfl
  | cons message messages ih =>
    have hmessage : IsMessage message := hmessages message List.mem_cons_self
    have hcut : messageFraming.cut (message ++ messages.flatten) =
        .ok (some (message, messages.flatten)) := by
      refine cutMessage_eq_some.mpr ⟨message.length, ?_, ?_, ?_⟩
      · exact completeMessageLength_append _ hmessage
      · exact List.take_left
      · exact List.drop_left
    rw [List.flatten_cons, Framing.read_of_some hcut,
      ih fun m hm => hmessages m (List.mem_cons_of_mem _ hm)]
    rfl

/-- Reading messages does not fail. -/
theorem read_messages_failure (src : Bytes) : (messageFraming.read src).failure = none := by
  cases (messageFraming.read src).failure with
  | none => rfl
  | some e => exact e.elim

/-! ## Callbacks -/

/-- The messages that were handed over. -/
def Session.receivedMessages (s : Session) : List Bytes :=
  s.trace.filterMap fun
    | .received message => some message
    | _ => none

variable [Crypto]

omit [Crypto] in
/-- The handlers of messages hand no further message over. -/
theorem Steps.receivedMessages {s t : Session} (h : Via handlerEffects s t) :
    t.receivedMessages = s.receivedMessages := by
  have hfilter := Steps.filter_kind .received h (by decide)
  have hreceived (u : Session) :
      u.receivedMessages = (u.trace.filter (·.kind = .received)).filterMap fun
        | .received message => some message
        | _ => none := by
    rw [List.filterMap_filter]
    refine List.filterMap_congr fun event _ => ?_
    cases event <;> simp [Event.kind]
  rw [hreceived, hreceived, hfilter]

omit [Crypto] in
theorem Session.receivedMessages_append (s : Session) (tls : Tls) (event : Event) :
    ({ s with tls := tls, trace := s.trace ++ [event] } : Session).receivedMessages =
      s.receivedMessages ++ match event with
        | .received message => [message]
        | _ => [] := by
  rw [Session.receivedMessages, Session.receivedMessages, List.filterMap_append]
  cases event <;> rfl

/-- The handlers of the two roles note every message that they are given. -/
theorem handleHandshakeMessage_receives (env : Environment) (emitter : Emitter) (message : Bytes)
    (isEndOfRecord : Bool) (properties : Option HandshakeProperties) (s : Session) :
    (handleHandshakeMessage emitter message isEndOfRecord properties env s).2.receivedMessages =
      s.receivedMessages ++ [message] := by
  have hsteps : Via handlerEffects { s with trace := s.trace ++ [.received message] }
      (handleHandshakeMessage emitter message isEndOfRecord properties env s).2 := by
    rw [handleHandshakeMessage, emitEvent_bind, getTls_bind]
    split_ifs <;> exact Respects.relates env _
  rw [Steps.receivedMessages hsteps]
  exact s.receivedMessages_append s.tls (.received message)

/-! ## Records -/

section Records

variable {cb : MessageCallback} {env : Environment} {emitter : Emitter}
  {properties : Option HandshakeProperties} {s t : Session} {fault : Fault}

/-- Between two messages only the buffer of messages, the count of allocations and the notes
change, and no message is handed over. -/
def Session.Tended (s t : Session) : Prop :=
  (∃ mess tick trace, t =
      { s with tls := { s.tls with recvbufMess := mess }, tick := tick, trace := trace }) ∧
    t.receivedMessages = s.receivedMessages

/-- Messages are handed over one after the other, each in the session that the one before it has
left, and none is refused. -/
inductive HandsOver (cb : MessageCallback) (env : Environment) (emitter : Emitter)
    (properties : Option HandshakeProperties) : List Bytes → Session → Session → Prop
  | nil {s t : Session} (tended : s.Tended t) : HandsOver cb env emitter properties [] s t
  | cons {s u v t : Session} {x : Except Fault Progress} {message : Bytes} {isEndOfRecord : Bool}
      {messages : List Bytes} (tended : s.Tended u)
      (run : cb emitter message isEndOfRecord properties env u = (x, v)) (continues : Continues x)
      (further : HandsOver cb env emitter properties messages v t) :
      HandsOver cb env emitter properties (message :: messages) s t

/-- The allocator has just refused a request, or there is a limit on the buffer. -/
def Exhausted (env : Environment) (fault : Fault) (t : Session) : Prop :=
  (fault = .code Error.noMemory ∧ ∃ tick, t.tick = tick + 1 ∧ env.alloc tick = false) ∨
    (fault = .code Alert.handshakeFailure ∧ t.tls.ctx.maxBufferSize ≠ 0)

/-- Why the handler of records stopped, and which messages it had handed over by then: the next one
was refused, or there was no room for octets to be kept. -/
inductive StopsAfter (cb : MessageCallback) (env : Environment) (emitter : Emitter)
    (properties : Option HandshakeProperties) : List Bytes → Session → Fault → Session → Prop
  | refused {s u v t : Session} {fault : Fault} {message : Bytes} {isEndOfRecord : Bool}
      {delivered rest : List Bytes}
      (handed : HandsOver cb env emitter properties delivered s u)
      (run : cb emitter message isEndOfRecord properties env u = (.error fault, v))
      (stops : ¬ fault.Continues) (tended : v.Tended t) :
      StopsAfter cb env emitter properties (delivered ++ message :: rest) s fault t
  | exhausted {s t : Session} {fault : Fault} {delivered rest : List Bytes}
      (handed : HandsOver cb env emitter properties delivered s t)
      (reason : Exhausted env fault t) :
      StopsAfter cb env emitter properties (delivered ++ rest) s fault t

omit [Crypto] in
theorem Session.Tended.refl (s : Session) : s.Tended s := ⟨⟨_, _, _, rfl⟩, rfl⟩

omit [Crypto] in
theorem Session.Tended.trans (h : s.Tended t) {u : Session} (hu : t.Tended u) : s.Tended u := by
  obtain ⟨⟨mess, tick, trace, rfl⟩, hreceived⟩ := h
  obtain ⟨⟨mess', tick', trace', rfl⟩, hreceived'⟩ := hu
  exact ⟨⟨mess', tick', trace', rfl⟩, hreceived'.trans hreceived⟩

omit [Crypto] in
/-- Messages handed over one after the other, in two parts. -/
theorem HandsOver.append {u : Session} {further : List Bytes}
    (h : HandsOver cb env emitter properties messages s u)
    (hfurther : HandsOver cb env emitter properties further u t) :
    HandsOver cb env emitter properties (messages ++ further) s t := by
  induction h with
  | nil tended =>
    cases hfurther with
    | nil tended' => exact .nil (tended.trans tended')
    | cons tended' run continues further => exact .cons (tended.trans tended') run continues further
  | cons tended run continues _ ih => exact .cons tended run continues (ih hfurther)

omit [Crypto] in
/-- Messages handed over before count as well. -/
theorem StopsAfter.after {u : Session} {further : List Bytes}
    (h : StopsAfter cb env emitter properties further u fault t)
    (hu : HandsOver cb env emitter properties messages s u) :
    StopsAfter cb env emitter properties (messages ++ further) s fault t := by
  cases h with
  | refused handed run stops tended =>
    rw [← List.append_assoc]
    exact .refused (hu.append handed) run stops tended
  | exhausted handed reason =>
    rw [← List.append_assoc]
    exact .exhausted (hu.append handed) reason

omit [Crypto] in
/-- Messages that come after the stop do not matter. -/
theorem StopsAfter.before (further : List Bytes)
    (h : StopsAfter cb env emitter properties messages s fault t) :
    StopsAfter cb env emitter properties (messages ++ further) s fault t := by
  cases h with
  | refused handed run stops tended =>
    rw [List.append_assoc]
    exact .refused handed run stops tended
  | exhausted handed reason =>
    rw [List.append_assoc]
    exact .exhausted handed reason

/-- The messages that are handed over to the handlers of the two roles are noted in their order. -/
theorem HandsOver.receivedMessages
    (h : HandsOver handleHandshakeMessage env emitter properties messages s t) :
    t.receivedMessages = s.receivedMessages ++ messages := by
  induction h with
  | nil tended => rw [tended.2, List.append_nil]
  | @cons s u v t x message isEndOfRecord messages tended run _ _ ih =>
    have hreceived :=
      handleHandshakeMessage_receives env emitter message isEndOfRecord properties u
    rw [run] at hreceived
    rw [ih, hreceived, tended.2, List.append_assoc]
    rfl

omit [Crypto] in
/-- A message is refused by the callback. -/
theorem handleRecordMessage_eq_error {message : Bytes} {isEndOfRecord : Bool}
    (hrun : handleRecordMessage cb emitter message isEndOfRecord properties env s =
      (.error fault, t)) :
    ∃ v, cb emitter message isEndOfRecord properties env s = (.error fault, v) ∧
      ¬ fault.Continues ∧ v.Tended t := by
  rw [handleRecordMessage, bind_run, returnCode_run, bind_run] at hrun
  rcases hcb : cb emitter message isEndOfRecord properties env s with ⟨(code | _ | _) | progress, v⟩
    <;> rw [hcb] at hrun <;> dsimp only at hrun
  · split_ifs at hrun with halive
    · cases hrun
    rw [modifyTls_bind] at hrun
    cases hrun
    refine ⟨v, rfl, ?_, ⟨_, _, _, rfl⟩, rfl⟩
    simpa [Fault.Continues, continues, not_or, and_comm, and_assoc] using halive
  · cases hrun
    exact ⟨_, rfl, id, .refl _⟩
  · cases hrun
    exact ⟨_, rfl, id, .refl _⟩
  · cases progress <;> cases hrun

omit [Crypto] in
/-- The complete messages of a source are handed over, and what follows them is left. -/
theorem handleMessages_handsOver (cb : MessageCallback) (env : Environment) (emitter : Emitter)
    (properties : Option HandshakeProperties) {fuel : ℕ} (ret : Code) (s : Session)
    (hfuel : src.length ≤ fuel) :
    match handleMessages cb emitter properties fuel ret src env s with
    | (.ok (_, rest), t) => rest = (messageFraming.read src).rest ∧
        HandsOver cb env emitter properties (messageFraming.read src).frames s t
    | (.error fault, t) =>
        StopsAfter cb env emitter properties (messageFraming.read src).frames s fault t := by
  induction fuel generalizing src s ret with
  | zero =>
    obtain rfl : src = [] := List.length_eq_zero_iff.mp (by omega)
    rw [Framing.read_of_none (F := messageFraming) rfl]
    exact ⟨rfl, .nil (.refl s)⟩
  | succ fuel ih =>
    rw [handleMessages]
    cases hlength : completeMessageLength src with
    | none =>
      have hcut : cutMessage src = .ok none := by rw [cutMessage, hlength]; rfl
      rw [Framing.read_of_none (F := messageFraming) hcut]
      exact ⟨rfl, .nil (.refl s)⟩
    | some length =>
      have hcut : cutMessage src = .ok (some (src.take length, src.drop length)) :=
        cutMessage_eq_some.mpr ⟨length, hlength, rfl, rfl⟩
      have hshorter := messageFraming.cut_shorter hcut
      rw [Framing.read_of_some (F := messageFraming) hcut]
      dsimp only
      rw [receiveKeyChanges, observe_bind]
      rcases hmessage : handleRecordMessage cb emitter (src.take length) (src.length = length)
        properties env s with ⟨fault | code, u⟩
      · rw [bind_of_error hmessage]
        obtain ⟨v, hrefused, hstops, htended⟩ := handleRecordMessage_eq_error hmessage
        exact .refused (.nil (.refl s)) hrefused hstops htended
      · rw [bind_of_ok hmessage, observe_bind, emitEvent_bind]
        obtain ⟨x, hhandled, hcontinues⟩ := handleRecordMessage_eq_ok hmessage
        generalize hnoted : ({ u with trace := u.trace ++ [_] } : Session) = u'
        have htended : u.Tended u' := by
          refine hnoted ▸ ⟨⟨_, _, _, rfl⟩, ?_⟩
          rw [u.receivedMessages_append u.tls]
          exact List.append_nil _
        have hhanded : HandsOver cb env emitter properties [src.take length] s u' :=
          .cons (.refl s) hhandled hcontinues (.nil htended)
        have hfurther := ih code u' (show (src.drop length).length ≤ fuel by omega)
        revert hfurther
        rcases handleMessages cb emitter properties fuel code (src.drop length) env u' with
          ⟨fault | ⟨ret', rest⟩, t⟩
        · exact fun hstops => hstops.after hhanded
        · rintro ⟨hrest, hdelivered⟩
          exact ⟨hrest, hhanded.append hdelivered⟩

/-- The octets of a message that have been kept. -/
def Session.keptMessage (s : Session) : Bytes := s.tls.recvbufMess.getD []

omit [Crypto] in
/-- A limit that is exceeded is a limit. -/
theorem messageBufferIsOverflow_limited {ctx : Context} {size : ℕ}
    (h : messageBufferIsOverflow ctx size = true) : ctx.maxBufferSize ≠ 0 := by
  simp only [messageBufferIsOverflow, Bool.and_eq_true, decide_eq_true_eq] at h
  exact h.1

omit [Crypto] in
/-- The octets of a record follow those that have been kept. -/
theorem flattenMessages_run (env : Environment) (s : Session) (fragment : Bytes) :
    match flattenMessages fragment env s with
    | (.ok src, t) => src = s.keptMessage ++ fragment ∧ s.Tended t
    | (.error fault, t) => s.Tended t ∧ Exhausted env fault t := by
  rw [flattenMessages, getTls_bind, Session.keptMessage]
  cases hmess : s.tls.recvbufMess with
  | none => exact ⟨rfl, .refl s⟩
  | some mess =>
    dsimp only
    by_cases hover : messageBufferIsOverflow s.tls.ctx (mess.length + fragment.length) = true
    · rw [throwIf_bind_of hover]
      exact ⟨.refl s, .inr ⟨rfl, messageBufferIsOverflow_limited hover⟩⟩
    · rw [throwIf_bind_of_not hover, bind_run, allocate_run]
      cases halloc : env.alloc s.tick
      · exact ⟨⟨⟨_, _, _, rfl⟩, rfl⟩, .inl ⟨rfl, _, rfl, halloc⟩⟩
      · exact ⟨rfl, ⟨_, _, _, rfl⟩, rfl⟩

omit [Crypto] in
/-- What is left of a record is kept within the limit. -/
theorem keepPartialMessage_run (env : Environment) (s : Session) (rest : Bytes) :
    match keepPartialMessage rest env s with
    | (.ok _, t) => t.tls.recvbufMess = some rest ∧ s.Tended t ∧
        (t.tls.ctx.maxBufferSize ≠ 0 → rest.length ≤ t.tls.ctx.maxBufferSize)
    | (.error fault, t) => s.Tended t ∧ Exhausted env fault t := by
  rw [keepPartialMessage, getTls_bind]
  by_cases hover : messageBufferIsOverflow s.tls.ctx rest.length = true
  · rw [throwIf_bind_of hover]
    exact ⟨.refl s, .inr ⟨rfl, messageBufferIsOverflow_limited hover⟩⟩
  · have hfits : s.tls.ctx.maxBufferSize ≠ 0 → rest.length ≤ s.tls.ctx.maxBufferSize := by
      intro hlimited
      by_contra hlong
      exact hover (by simp [messageBufferIsOverflow, hlimited]; omega)
    rw [throwIf_bind_of_not hover, bind_run, runIf]
    by_cases hnone : s.tls.recvbufMess.isNone = true
    · rw [if_pos hnone, modifyTls_bind, allocate_run]
      cases halloc : env.alloc s.tick
      · exact ⟨⟨⟨_, _, _, rfl⟩, rfl⟩, .inl ⟨rfl, _, rfl, halloc⟩⟩
      · exact ⟨rfl, ⟨⟨_, _, _, rfl⟩, rfl⟩, hfits⟩
    · rw [if_neg hnone]
      exact ⟨rfl, ⟨⟨_, _, _, rfl⟩, rfl⟩, hfits⟩

omit [Crypto] in
/-- A record of handshake messages. -/
theorem handleHandshakeRecord_handsOver (cb : MessageCallback) (env : Environment)
    (emitter : Emitter) (properties : Option HandshakeProperties) (s : Session)
    (fragment : Bytes) :
    match handleHandshakeRecord cb emitter ⟨ContentType.handshake, fragment⟩ properties env s with
    | (.ok _, t) => t.keptMessage = (messageFraming.read (s.keptMessage ++ fragment)).rest ∧
        HandsOver cb env emitter properties
          (messageFraming.read (s.keptMessage ++ fragment)).frames s t ∧
        (t.keptMessage = [] → t.tls.recvbufMess = none)
    | (.error fault, t) => StopsAfter cb env emitter properties
        (messageFraming.read (s.keptMessage ++ fragment)).frames s fault t := by
  rw [handleHandshakeRecord, throwIf_bind_of_not (by simp)]
  have hflatten := flattenMessages_run env s fragment
  rcases hrun : flattenMessages fragment env s with ⟨fault | src, s₁⟩ <;> rw [hrun] at hflatten
  · rw [bind_of_error hrun]
    exact .exhausted (.nil hflatten.1) hflatten.2
  obtain ⟨rfl, htended⟩ := hflatten
  rw [bind_of_ok hrun]
  generalize s.keptMessage ++ fragment = src
  have hmessages := handleMessages_handsOver cb env emitter properties Error.inProgress s₁
    (le_refl src.length)
  rcases hrun₂ : handleMessages cb emitter properties src.length Error.inProgress src env s₁ with
    ⟨fault | ⟨ret, rest⟩, s₂⟩ <;> rw [hrun₂] at hmessages
  · rw [bind_of_error hrun₂]
    exact hmessages.after (.nil htended)
  · rw [bind_of_ok hrun₂]
    obtain ⟨hrest, hhanded⟩ := hmessages
    have hdelivered := (HandsOver.nil htended).append hhanded
    dsimp only
    split_ifs with hempty
    · rw [modifyTls_bind]
      refine ⟨?_, ?_, fun _ => rfl⟩
      · rw [← hrest, hempty]
        rfl
      · rw [← List.append_nil (messageFraming.read src).frames]
        exact hdelivered.append (.nil ⟨⟨_, _, _, rfl⟩, rfl⟩)
    · have hkeep := keepPartialMessage_run env s₂ rest
      rcases hrun₃ : keepPartialMessage rest env s₂ with ⟨fault | _, t⟩ <;> rw [hrun₃] at hkeep
      · rw [bind_of_error hrun₃, ← List.append_nil (messageFraming.read src).frames]
        have hlast := hdelivered.append (.nil hkeep.1)
        rw [List.append_nil] at hlast
        exact .exhausted hlast hkeep.2
      · rw [bind_of_ok hrun₃]
        obtain ⟨hmess, htended', -⟩ := hkeep
        have hkept : t.keptMessage = rest := by rw [Session.keptMessage, hmess, Option.getD_some]
        refine ⟨hkept.trans hrest, ?_, fun hnone => ?_⟩
        · rw [← List.append_nil (messageFraming.read src).frames]
          exact hdelivered.append (.nil htended')
        · exact absurd (hkept.symm.trans hnone) hempty

/-- Handle the fragments of some handshake records, one after the other. -/
def handleHandshakeRecords (cb : MessageCallback) (emitter : Emitter)
    (properties : Option HandshakeProperties) (fragments : List Bytes) : Proc Unit :=
  Procedure.forEach (fun fragment => do
    let _ ← handleHandshakeRecord cb emitter ⟨ContentType.handshake, fragment⟩ properties)
    fragments

omit [Crypto] in
/-- The messages in some records are handed over, whatever the records are. -/
theorem handleHandshakeRecords_handsOver (cb : MessageCallback) (env : Environment)
    (emitter : Emitter) (properties : Option HandshakeProperties) (s : Session)
    (fragments : List Bytes)
    (hs : s.keptMessage = [] → s.tls.recvbufMess = none) :
    match handleHandshakeRecords cb emitter properties fragments env s with
    | (.ok _, t) => t.keptMessage = (messageFraming.feed s.keptMessage fragments).rest ∧
        HandsOver cb env emitter properties
          (messageFraming.feed s.keptMessage fragments).frames s t ∧
        (t.keptMessage = [] → t.tls.recvbufMess = none)
    | (.error fault, t) => StopsAfter cb env emitter properties
        (messageFraming.feed s.keptMessage fragments).frames s fault t := by
  induction fragments generalizing s with
  | nil => exact ⟨rfl, .nil (.refl s), hs⟩
  | cons fragment fragments ih =>
    have hrecord := handleHandshakeRecord_handsOver cb env emitter properties s fragment
    have hfeed : messageFraming.feed s.keptMessage (fragment :: fragments) =
        (messageFraming.feed (messageFraming.read (s.keptMessage ++ fragment)).rest fragments).after
          (messageFraming.read (s.keptMessage ++ fragment)).frames := by
      simp only [Framing.feed, read_messages_failure]
    rw [hfeed, handleHandshakeRecords, Procedure.forEach, bind_run, bind_run]
    rcases hrun : handleHandshakeRecord cb emitter ⟨ContentType.handshake, fragment⟩
      properties env s
      with ⟨fault | code, u⟩ <;> rw [hrun] at hrecord
    · exact hrecord.before _
    · obtain ⟨hkept, hhanded, hnone⟩ := hrecord
      have hfurther := ih u hnone
      rw [hkept] at hfurther
      dsimp only [pure_run]
      change match handleHandshakeRecords cb emitter properties fragments env u with
        | (.ok _, t) => _
        | (.error fault, t) => _
      revert hfurther
      rcases handleHandshakeRecords cb emitter properties fragments env u with ⟨fault | _, t⟩
      · exact fun hstops => hstops.after hhanded
      · rintro ⟨hkept', hfurther, hnone'⟩
        exact ⟨hkept', hhanded.append hfurther, hnone'⟩

/-! ## The limit of the buffer -/

omit [Crypto] in
/-- A record that is handled leaves no more in the buffer than the limit allows. -/
theorem handleHandshakeRecord_limit {code : Code}
    (hrun : handleHandshakeRecord cb emitter rec properties env s = (.ok code, t)) :
    t.tls.ctx.maxBufferSize ≠ 0 → t.keptMessage.length ≤ t.tls.ctx.maxBufferSize := by
  obtain ⟨_, s₁, -, hrun⟩ := bind_eq_ok.mp hrun
  obtain ⟨src, s₂, -, hrun⟩ := bind_eq_ok.mp hrun
  obtain ⟨⟨ret, rest⟩, s₃, -, hrun⟩ := bind_eq_ok.mp hrun
  dsimp only at hrun
  split_ifs at hrun with hempty
  · rw [modifyTls_bind] at hrun
    cases hrun
    exact fun _ => Nat.zero_le _
  · obtain ⟨_, u, hkeep, hrun⟩ := bind_eq_ok.mp hrun
    cases hrun
    have hfits := keepPartialMessage_run env s₃ rest
    rw [hkeep] at hfits
    obtain ⟨hmess, -, hlimit⟩ := hfits
    rwa [Session.keptMessage, hmess, Option.getD_some]

/-! ## Other content between the parts of a message -/

/-- Content of another type is refused while a part of a message is kept. -/
theorem handleCleartextRecord_refuses (hmess : s.tls.recvbufMess.isSome)
    (htype : rec.type ≠ ContentType.handshake) :
    handleCleartextRecord emitter rec properties env s =
      (.ok Alert.decodeError, { s with tls := { s.tls with recvbufRec := none } }) := by
  have hrefused : handleHandshakeRecord handleHandshakeMessage emitter rec properties env s =
      (.error (.code Alert.decodeError), s) := by
    rw [handleHandshakeRecord, throwIf_bind_of htype]
  rw [handleCleartextRecord, getTls_bind, if_pos (.inl hmess), bind_run, returnCode_run, hrefused]
  rfl

/-- The record is protected, and its content is part of a handshake message. -/
def Session.HoldsHandshake (s : Session) (rec : Record) : Prop :=
  ∃ aead plaintext inner, s.tls.dec.aead = some aead ∧
    aead.decrypt rec.fragment s.tls.dec.seq (buildAad rec.fragment.length) = some plaintext ∧
    innerRecord plaintext = some inner ∧ inner.type = ContentType.handshake

omit [Crypto] in
/-- A record that is passed over is counted. -/
theorem serverSkipEarlyData_trace (hrun : serverSkipEarlyData length env s = (x, t)) :
    ∃ tolerated, t.trace = s.trace ++ [.skipEarlyData length tolerated] := by
  rw [serverSkipEarlyData, modifyTls_bind, getTls_bind, emitEvent_bind] at hrun
  by_cases hlimit : maxEarlyDataSkipSize < (s.tls.earlyDataSkippedBytes + length) % 2 ^ 32
  · rw [throwIf_bind_of hlimit] at hrun
    cases hrun
    exact ⟨_, rfl⟩
  · rw [throwIf_bind_of_not hlimit] at hrun
    cases hrun
    exact ⟨_, rfl⟩

/-- Application data and alerts are refused while a part of a message is kept, unless they are
passed over as early data. -/
theorem handleEncryptedRecord_refuses (hmess : s.tls.recvbufMess.isSome)
    (hkeyed : s.tls.dec.aead.isSome)
    (hrun : handleEncryptedRecord emitter rec properties env s = (x, t)) :
    ¬ CodeContinues x ∨
      (∃ tolerated, t.trace = s.trace ++ [.skipEarlyData rec.fragment.length tolerated]) ∨
      s.HoldsHandshake rec := by
  obtain ⟨aead, haead⟩ := Option.isSome_iff_exists.mp hkeyed
  rw [handleEncryptedRecord] at hrun
  by_cases htype : rec.type = ContentType.appdata
  · rw [throwIf_bind_of_not (not_not.mpr htype), bind_run, allocate_run] at hrun
    cases halloc : env.alloc s.tick with
    | false =>
      rw [halloc] at hrun
      cases hrun
      exact .inl Bool.false_ne_true
    | true =>
      rw [halloc, if_pos rfl] at hrun
      dsimp only at hrun
      rw [bind_run, attemptCode_run, aeadDecrypt, getTls_bind] at hrun
      simp only [haead, deref_some_bind] at hrun
      cases hopen : aead.decrypt rec.fragment s.tls.dec.seq (buildAad rec.fragment.length) with
      | none =>
        simp only [hopen, throwCode_run, getTls_bind] at hrun
        split_ifs at hrun
        · have hskipped := serverSkipEarlyData_trace hrun
          exact .inr (.inl hskipped)
        · cases hrun
          exact .inl Bool.false_ne_true
      | some plaintext =>
        simp only [hopen, modifyProtection_bind, pure_run] at hrun
        cases hinner : innerRecord plaintext with
        | none =>
          rw [hinner] at hrun
          cases hrun
          exact .inl Bool.false_ne_true
        | some inner =>
          rw [hinner] at hrun
          by_cases hhandshake : inner.type = ContentType.handshake
          · exact .inr (.inr ⟨aead, plaintext, inner, haead, hopen, hinner, hhandshake⟩)
          · obtain ⟨u, hmess', hrun⟩ : ∃ u : Session, u.tls.recvbufMess.isSome ∧
                handleCleartextRecord emitter inner properties env u = (x, t) := by
              refine ⟨_, ?_, hrun⟩
              exact hmess
            rw [handleCleartextRecord_refuses hmess' hhandshake] at hrun
            cases hrun
            exact .inl Bool.false_ne_true
  · rw [throwIf_bind_of htype] at hrun
    cases hrun
    exact .inl Bool.false_ne_true

theorem handleRecord_refuses (hmess : s.tls.recvbufMess.isSome)
    (htype : rec.type = ContentType.appdata ∨ rec.type = ContentType.alert)
    (hrun : handleRecord emitter rec properties env s = (x, t)) :
    ¬ CodeContinues x ∨
      (∃ tolerated, t.trace = s.trace ++ [.skipEarlyData rec.fragment.length tolerated]) ∨
      s.HoldsHandshake rec := by
  have hhandshake : rec.type ≠ ContentType.handshake := by
    rcases htype with h | h <;> rw [h] <;> decide
  have hccs : rec.type ≠ ContentType.changeCipherSpec := by
    rcases htype with h | h <;> rw [h] <;> decide
  rw [handleRecord, getTls_bind, if_neg hccs] at hrun
  split_ifs at hrun with hkeyed hskips
  · exact handleEncryptedRecord_refuses hmess hkeyed.1 hrun
  · exact .inr (.inl (serverSkipEarlyData_trace hrun))
  · rw [handleCleartextRecord_refuses hmess hhandshake] at hrun
    cases hrun
    exact .inl Bool.false_ne_true

end Records

/-- Handshake messages are handed over one by one, however they are cut into records; the buffer
stays within its limit; and other content between the parts of a message is refused. -/
theorem handshake_messages_are_reassembled (env : Environment) (s : Session) (emitter : Emitter)
    (properties : Option HandshakeProperties) :
    (∀ messages fragments : List Bytes, s.tls.recvbufMess = none →
      (∀ message ∈ messages, IsMessage message) → fragments.flatten = messages.flatten →
      match handleHandshakeRecords handleHandshakeMessage emitter properties fragments env s with
      | (.ok _, t) => HandsOver handleHandshakeMessage env emitter properties messages s t ∧
          t.receivedMessages = s.receivedMessages ++ messages ∧ t.tls.recvbufMess = none
      | (.error fault, t) =>
        StopsAfter handleHandshakeMessage env emitter properties messages s fault t) ∧
    (∀ rec code t, handleHandshakeRecord handleHandshakeMessage emitter rec properties env s =
        (.ok code, t) → 0 < t.tls.ctx.maxBufferSize →
      t.keptMessage.length ≤ t.tls.ctx.maxBufferSize) ∧
    ∀ rec x t, s.tls.recvbufMess.isSome →
      (rec.type = ContentType.appdata ∨ rec.type = ContentType.alert) →
      handleRecord emitter rec properties env s = (x, t) →
      ¬ CodeContinues x ∨
        (∃ tolerated, t.trace = s.trace ++ [.skipEarlyData rec.fragment.length tolerated]) ∨
        s.HoldsHandshake rec := by
  refine ⟨fun messages fragments hmess hmessages hstream => ?_, ?_, ?_⟩
  · have hkept : s.keptMessage = [] := by rw [Session.keptMessage, hmess, Option.getD_none]
    have hrecords := handleHandshakeRecords_handsOver handleHandshakeMessage env
      emitter properties s fragments fun _ => hmess
    rw [hkept, Framing.feed_eq rfl, List.nil_append, hstream, read_messages hmessages] at hrecords
    revert hrecords
    rcases handleHandshakeRecords handleHandshakeMessage emitter properties fragments env s with
      ⟨fault | _, t⟩
    · exact id
    · rintro ⟨hempty, hhanded, hnone⟩
      exact ⟨hhanded, hhanded.receivedMessages, hnone hempty⟩
  · intro rec code t hrun hlimited
    exact handleHandshakeRecord_limit hrun hlimited.ne'
  · intro rec x t hmess htype hrun
    exact handleRecord_refuses hmess htype hrun

namespace Sample

/-- A client after its handshake, which does not save tickets. -/
def idleClient : Session where
  tls := newInstance context false .clientPostHandshake

/-- A ticket. -/
def ticket : Bytes :=
  message HandshakeType.newSessionTicket (zeros 8 ++ [0] ++ block 2 [7] ++ [0, 0])

/-- Three tickets in three records: one ends in the second record, one is there as a whole, and one
is cut within its header. -/
def ticketRecords : List Bytes :=
  [ticket.take 5, ticket.drop 5 ++ ticket ++ ticket.take 2, ticket.drop 2]

end Sample

open Sample

omit [Crypto] in
theorem handshake_messages_are_reassembled_sample :
    let run := handleHandshakeRecords (@handleHandshakeMessage crypto) .record none
      ticketRecords environment idleClient
    run.1 = .ok () ∧ run.2.receivedMessages = [ticket, ticket, ticket] := by
  have hmessages := (@handshake_messages_are_reassembled crypto environment
    idleClient .record none).1 [ticket, ticket, ticket]
    ticketRecords rfl (by decide) (by decide)
  have hok : (handleHandshakeRecords (@handleHandshakeMessage crypto) .record none
      ticketRecords environment idleClient).1.isOk = true := by
    decide +kernel
  revert hmessages hok
  generalize handleHandshakeRecords (@handleHandshakeMessage crypto) .record none
    ticketRecords environment idleClient = outcome
  rcases outcome with ⟨fault | _, t⟩
  · exact fun _ hok => absurd hok Bool.false_ne_true
  · exact fun hmessages _ => ⟨rfl, hmessages.2.1⟩

end Picotls
