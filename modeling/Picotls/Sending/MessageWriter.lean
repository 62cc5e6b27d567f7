import Picotls.Foundation.Blocks
import Picotls.Record

/-!
# What the writers of messages append

A writer appends octets to the output and may update the connection on its way. It returns only if
some condition on the data holds, such as the room in a length field, and where the condition holds
and memory is available it does return. Both directions are kept together in one specification,
which is built along the structure of a writer: pushes, blocks, extensions, whole messages.
-/

namespace Picotls

open Foundation Procedure

variable {α β : Type} {env : Environment} {s : Session}

/-! ## Encodings -/

/-- An extension. -/
def encodeExtension (type : ℕ) (octets : Bytes) : Bytes := toBE 2 type ++ encodeBlock 2 octets

/-- A handshake message. -/
def encodeMessage (type : UInt8) (body : Bytes) : Bytes := [type] ++ encodeBlock 3 body

/-- A message as it leaves the library without encryption. -/
def Emitter.wrap : Emitter → Bytes → Bytes
  | .record, message => [ContentType.handshake, recordVersionMajor, recordVersionMinor] ++
      toBE 2 message.length ++ message
  | .raw, message => message

@[simp] theorem encodeExtension_length (type : ℕ) (octets : Bytes) :
    (encodeExtension type octets).length = 4 + octets.length := by
  rw [encodeExtension, List.length_append, toBE_length, encodeBlock_length]
  omega

@[simp] theorem encodeMessage_length (type : UInt8) (body : Bytes) :
    (encodeMessage type body).length = 4 + body.length := by
  rw [encodeMessage, List.length_append, List.length_singleton, encodeBlock_length]
  omega

/-! ## Writers -/

/-- The session after octets have been appended, with another connection object. -/
def Session.appended (s : Session) (tls : Tls) (octets : Bytes) (tick : ℕ) : Session :=
  { s with tls := tls, sendbuf := s.sendbuf ++ octets, tick := tick }

@[simp] theorem Session.appended_tls (s : Session) (tls : Tls) (octets : Bytes) (tick : ℕ) :
    (s.appended tls octets tick).tls = tls := rfl

theorem Session.appended_nil (s : Session) (tls : Tls) (tick : ℕ) :
    s.appended tls [] tick = { s with tls := tls, tick := tick } := by
  rw [Session.appended, List.append_nil]

theorem Session.appended_appended (s : Session) (tls tls' : Tls) (octets octets' : Bytes)
    (tick tick' : ℕ) : (s.appended tls octets tick).appended tls' octets' tick' =
      s.appended tls' (octets ++ octets') tick' := by
  simp [Session.appended]

/-- A run from a session that appends some octets and leaves a connection object behind. It
returns only if the condition holds, and does so if memory is available. -/
structure Builds (C : Prop) (env : Environment) (s : Session)
    (outcome : Except Fault α × Session) (octets : Bytes) (a : α) (tls : Tls) : Prop where
  returns : ∀ r t, outcome = (.ok r, t) → C ∧ r = a ∧ ∃ tick, t = s.appended tls octets tick
  succeeds : C → (∀ tick, env.alloc tick = true) → ∃ r t, outcome = (.ok r, t)

namespace Builds

variable {C C' : Prop} {m : Proc α} {f : α → Proc β} {octets octets' : Bytes} {a : α} {b : β}
  {tls tls' : Tls} {outcome : Except Fault α × Session}

/-- With memory and under the condition, the run is known completely. -/
theorem run (h : Builds C env s outcome octets a tls) (hC : C)
    (halloc : ∀ tick, env.alloc tick = true) :
    ∃ tick, outcome = (.ok a, s.appended tls octets tick) := by
  obtain ⟨r, t, hrun⟩ := h.succeeds hC halloc
  obtain ⟨-, rfl, tick, rfl⟩ := h.returns r t hrun
  exact ⟨tick, hrun⟩

/-- The condition may be stated otherwise. -/
theorem of_iff (h : Builds C env s outcome octets a tls) (hC : C ↔ C') :
    Builds C' env s outcome octets a tls where
  returns r t hrun := by
    obtain ⟨hcond, hrest⟩ := h.returns r t hrun
    exact ⟨hC.mp hcond, hrest⟩
  succeeds hcond := h.succeeds (hC.mpr hcond)

/-- A step that only returns a value. -/
theorem value (s : Session) (a : α) :
    Builds True env s ((pure a : Proc α) env s) [] a s.tls where
  returns r t hrun := by
    cases hrun
    exact ⟨trivial, rfl, s.tick, by simp [Session.appended]⟩
  succeeds _ _ := ⟨a, s, rfl⟩

/-- A sequence appends what its parts append. -/
theorem bind (hm : Builds C env s (m env s) octets a tls)
    (hf : ∀ tick, C → Builds C' env (s.appended tls octets tick)
      (f a env (s.appended tls octets tick)) octets' b tls') :
    Builds (C ∧ C') env s ((m >>= f) env s) (octets ++ octets') b tls' where
  returns r t hrun := by
    obtain ⟨a', s₁, hfirst, hrest⟩ := bind_eq_ok.mp hrun
    obtain ⟨hC, rfl, tick, rfl⟩ := hm.returns a' s₁ hfirst
    obtain ⟨hC', rfl, tick', rfl⟩ := (hf tick hC).returns r t hrest
    exact ⟨⟨hC, hC'⟩, rfl, tick', s.appended_appended tls tls' octets octets' tick tick'⟩
  succeeds hcond halloc := by
    obtain ⟨tick, hfirst⟩ := hm.run hcond.1 halloc
    obtain ⟨r, t, hrest⟩ := (hf tick hcond.1).succeeds hcond.2 halloc
    exact ⟨r, t, by rw [bind_of_ok hfirst, hrest]⟩

/-- A sequence whose first part appends nothing unconditionally. -/
theorem seq (hm : Builds True env s (m env s) octets a tls)
    (hf : ∀ tick, Builds C env (s.appended tls octets tick)
      (f a env (s.appended tls octets tick)) octets' b tls') :
    Builds C env s ((m >>= f) env s) (octets ++ octets') b tls' :=
  (hm.bind fun tick _ => hf tick).of_iff (iff_of_eq (true_and C))

/-- A sequence whose second part only returns a value. -/
theorem andReturn (hm : Builds C env s (m env s) octets a tls)
    (hf : ∀ tick, f a env (s.appended tls octets tick) = (.ok b, s.appended tls octets tick)) :
    Builds C env s ((m >>= f) env s) octets b tls := by
  have hwhole := hm.bind (f := f) fun tick _ => by
    rw [hf tick]
    exact value (s.appended tls octets tick) b
  rw [List.append_nil] at hwhole
  exact hwhole.of_iff (iff_of_eq (and_true C))

theorem allocate (s : Session) : Builds True env s (allocate env s) [] () s.tls where
  returns r t hrun := by
    obtain ⟨-, rfl⟩ := allocate_eq_ok.mp hrun
    exact ⟨trivial, rfl, s.tick + 1, by simp [Session.appended]⟩
  succeeds _ halloc := ⟨(), _, allocate_eq_ok.mpr ⟨halloc s.tick, rfl⟩⟩

theorem appendReserved (s : Session) (octets : Bytes) :
    Builds True env s (appendReserved octets env s) octets () s.tls where
  returns r t hrun := by
    cases hrun
    exact ⟨trivial, rfl, s.tick, rfl⟩
  succeeds _ _ := ⟨(), _, rfl⟩

theorem assert (s : Session) (c : Bool) :
    Builds (c = true) env s (assert c env s) [] () s.tls where
  returns r t hrun := by
    obtain ⟨hc, rfl⟩ := assert_eq_ok.mp hrun
    exact ⟨hc, rfl, t.tick, by simp [Session.appended]⟩
  succeeds hc _ := ⟨(), s, assert_eq_ok.mpr ⟨hc, rfl⟩⟩

/-- A pointer has to be followed first. -/
theorem deref_bind {γ : Type} {o : Option γ} {f : γ → Proc α}
    (hf : ∀ c, o = some c → Builds C env s (f c env s) octets a tls) :
    Builds (o.isSome = true ∧ C) env s ((deref o >>= f) env s) octets a tls := by
  cases o with
  | none =>
    constructor
    · intro r t hrun
      cases hrun
    · rintro ⟨hsome, -⟩
      cases hsome
  | some c => exact (hf c rfl).of_iff (by simp)

theorem bufferPushv (s : Session) (octets : Bytes) :
    Builds True env s (bufferPushv octets env s) octets () s.tls := by
  rw [Picotls.bufferPushv]
  split_ifs with hempty
  · rw [hempty]
    exact value s ()
  · exact (allocate s).seq fun tick => appendReserved _ octets

theorem bufferPushUInt (s : Session) (width number : ℕ) :
    Builds True env s (bufferPushUInt width number env s) (toBE width number) () s.tls :=
  bufferPushv s _

/-- A block appends the length of its body and the body, which has to fit. -/
theorem bufferPushBlock {capacity : ℕ} {block : Proc α}
    (hblock : ∀ tick, Builds C env (s.appended s.tls (zeros capacity) tick)
      (block env (s.appended s.tls (zeros capacity) tick)) octets a tls) :
    Builds (C ∧ octets.length < 256 ^ capacity) env s (bufferPushBlock capacity block env s)
      (encodeBlock capacity octets) a tls := by
  have hend (tick tick' : ℕ) : ((do
      let bodyEnd ← sendbufOff
      let bodySize := bodyEnd - (s.sendbuf ++ zeros capacity).length
      throwIf (256 ^ capacity ≤ bodySize) Error.blockOverflow
      modifySendbuf fun buf =>
        overwrite buf ((s.sendbuf ++ zeros capacity).length - capacity) (toBE capacity bodySize)
      return a : Proc α) env ((s.appended s.tls (zeros capacity) tick).appended tls octets tick')) =
      if 256 ^ capacity ≤ octets.length then (.error (.code Error.blockOverflow),
        (s.appended s.tls (zeros capacity) tick).appended tls octets tick')
      else (.ok a, s.appended tls (encodeBlock capacity octets) tick') := by
    have hstart : (s.sendbuf ++ zeros capacity).length - capacity = s.sendbuf.length := by simp
    have hsize : (s.appended tls (zeros capacity ++ octets) tick').sendbuf.length -
        (s.sendbuf ++ zeros capacity).length = octets.length := by
      simp only [Session.appended, List.length_append]
      omega
    rw [s.appended_appended, sendbufOff, observe_bind, hsize, hstart]
    by_cases hfits : 256 ^ capacity ≤ octets.length
    · rw [throwIf_bind_of hfits, if_pos hfits]
    · rw [throwIf_bind_of_not hfits, if_neg hfits, modifySendbuf]
      simp only [bind_run, update_run, pure_run, Session.appended, ← List.append_assoc]
      rw [overwrite_append (by simp)]
      simp [encodeBlock]
  constructor
  · intro r t hrun
    rw [Picotls.bufferPushBlock] at hrun
    obtain ⟨_, s₁, hpush, hrun⟩ := bind_eq_ok.mp hrun
    obtain ⟨-, -, tick, rfl⟩ := (bufferPushv s (zeros capacity)).returns _ s₁ hpush
    obtain ⟨start, _, hstart, hrun⟩ := bind_eq_ok.mp hrun
    cases hstart
    obtain ⟨a', s₂, hbody, hrun⟩ := bind_eq_ok.mp hrun
    obtain ⟨hC, rfl, tick', rfl⟩ := (hblock tick).returns a' s₂ hbody
    have hclose := (hend tick tick').symm.trans hrun
    by_cases hfits : 256 ^ capacity ≤ octets.length
    · rw [if_pos hfits] at hclose
      cases hclose
    · rw [if_neg hfits] at hclose
      have hstate := congrArg Prod.snd hclose
      have hvalue := Except.ok.inj (congrArg Prod.fst hclose)
      exact ⟨⟨hC, Nat.not_le.mp hfits⟩, hvalue.symm, tick', hstate.symm⟩
  · rintro ⟨hC, hfits⟩ halloc
    obtain ⟨tick, hpush⟩ := (bufferPushv s (zeros capacity)).run trivial halloc
    obtain ⟨tick', hbody⟩ := (hblock tick).run hC halloc
    have hclose := hend tick tick'
    rw [if_neg (Nat.not_le.mpr hfits)] at hclose
    refine ⟨a, s.appended tls (encodeBlock capacity octets) tick', ?_⟩
    rw [Picotls.bufferPushBlock, bind_of_ok hpush]
    exact (bind_of_ok hbody).trans hclose

/-- An extension appends its type and its body. -/
theorem bufferPushExtension {type : ℕ} {block : Proc α}
    (hblock : ∀ tick, Builds C env (s.appended s.tls (toBE 2 type ++ zeros 2) tick)
      (block env (s.appended s.tls (toBE 2 type ++ zeros 2) tick)) octets a tls) :
    Builds (C ∧ octets.length < 256 ^ 2) env s (bufferPushExtension type block env s)
      (encodeExtension type octets) a tls := by
  rw [Picotls.bufferPushExtension]
  refine (bufferPushUInt s 2 type).seq fun tick => bufferPushBlock fun tick' => ?_
  rw [s.appended_appended]
  exact hblock tick'

end Builds

section Returned

variable {t : Session} {a : α} {block : Proc α}

/-- Pushing octets does nothing else. -/
theorem bufferPushv_returns {octets : Bytes} {u : Unit}
    (h : bufferPushv octets env s = (.ok u, t)) : ∃ tick, t = s.appended s.tls octets tick :=
  ((Builds.bufferPushv s octets).returns u t h).2.2

/-- A block that returned: its body ran behind the room for the length, fits that length, and the
length is then filled in. -/
theorem bufferPushBlock_eq_ok {capacity : ℕ}
    (h : bufferPushBlock capacity block env s = (.ok a, t)) :
    ∃ tick t₁, block env (s.appended s.tls (zeros capacity) tick) = (.ok a, t₁) ∧
      t₁.sendbuf.length - (s.sendbuf.length + capacity) < 256 ^ capacity ∧
      t = { t₁ with sendbuf := (overwrite t₁.sendbuf s.sendbuf.length
        (toBE capacity (t₁.sendbuf.length - (s.sendbuf.length + capacity)))) } := by
  have hstart (tick : ℕ) : (s.appended s.tls (zeros capacity) tick).sendbuf.length =
      s.sendbuf.length + capacity := by simp [Session.appended]
  rw [bufferPushBlock] at h
  obtain ⟨_, s₁, hzeros, h⟩ := bind_eq_ok.mp h
  obtain ⟨tick, rfl⟩ := bufferPushv_returns hzeros
  rw [sendbufOff, observe_bind, hstart tick] at h
  obtain ⟨a', t₁, hblock, h⟩ := bind_eq_ok.mp h
  rw [observe_bind] at h
  obtain ⟨_, t₂, hfits, h⟩ := bind_eq_ok.mp h
  obtain ⟨hroom, rfl⟩ := throwIf_eq_ok.mp hfits
  cases h
  refine ⟨tick, t₂, hblock, Nat.not_le.mp hroom, ?_⟩
  simp

/-- Octets that were pushed are at the end of the buffer. -/
theorem bufferPushv_appends {octets : Bytes} {u : Unit}
    (h : bufferPushv octets env s = (.ok u, t)) : t.sendbuf = s.sendbuf ++ octets := by
  obtain ⟨tick, rfl⟩ := bufferPushv_returns h
  rfl

/-- A number that was pushed is at the end of the buffer. -/
theorem bufferPushUInt_appends {width number : ℕ} {u : Unit}
    (h : bufferPushUInt width number env s = (.ok u, t)) :
    t.sendbuf = s.sendbuf ++ toBE width number := by
  obtain ⟨-, -, tick, rfl⟩ := (Builds.bufferPushUInt s width number).returns u t h
  rfl

/-- A block that returned: what its body appended fits the length field and is behind it. -/
theorem bufferPushBlock_appends {capacity : ℕ}
    (h : bufferPushBlock capacity block env s = (.ok a, t)) :
    ∃ s₁ t₁, block env s₁ = (.ok a, t₁) ∧ ∀ octets, t₁.sendbuf = s₁.sendbuf ++ octets →
      octets.length < 256 ^ capacity ∧ t.sendbuf = s.sendbuf ++ encodeBlock capacity octets := by
  obtain ⟨tick, t₁, hblock, hroom, rfl⟩ := bufferPushBlock_eq_ok h
  refine ⟨_, t₁, hblock, fun octets hbuf => ?_⟩
  have hparts : t₁.sendbuf = s.sendbuf ++ zeros capacity ++ octets := hbuf
  have hlength : t₁.sendbuf.length - (s.sendbuf.length + capacity) = octets.length := by
    rw [hparts]
    simp only [List.length_append, zeros_length]
    omega
  rw [hlength] at hroom ⊢
  refine ⟨hroom, ?_⟩
  rw [hparts, overwrite_append (by simp), encodeBlock, List.append_assoc]

/-- A message that returned: its body ran behind the header. If it appended some octets, these are
the body of the message. -/
theorem bufferPushMessageBody_eq_ok {type : UInt8} {message : Bytes}
    (h : bufferPushMessageBody true type block env s = (.ok (a, message), t)) :
    ∃ tick t₁ t₂, block env (s.appended s.tls ([type] ++ zeros 3) tick) = (.ok a, t₁) ∧
      t₂.tls = t₁.tls ∧ t₂.trace = t₁.trace ∧ 
      keyScheduleUpdateHash message false env t₂ = (.ok (), t) ∧
      (∀ octets, t₁.sendbuf = s.sendbuf ++ ([type] ++ zeros 3) ++ octets →
        message = encodeMessage type octets) := by
  rw [bufferPushMessageBody, sendbufOff, observe_bind] at h
  obtain ⟨a', t₂, hmessage, h⟩ := bind_eq_ok.mp h
  rw [getSendbuf, observe_bind] at h
  rw [runIf, if_pos (by rfl)] at h
  obtain ⟨_, t₃, habsorb, h⟩ := bind_eq_ok.mp h
  cases h
  rw [bufferPushMessage] at hmessage
  obtain ⟨_, s₁, htype, hmessage⟩ := bind_eq_ok.mp hmessage
  obtain ⟨-, -, tick, rfl⟩ := (Builds.bufferPushv s [type]).returns _ s₁ htype
  obtain ⟨tick', t₁, hblock, -, rfl⟩ := bufferPushBlock_eq_ok hmessage
  rw [s.appended_appended] at hblock
  refine ⟨tick', t₁, _, hblock, ?_, ?_, habsorb, fun octets hbuf => ?_⟩
  · rfl
  · rfl
  have hparts : t₁.sendbuf = (s.sendbuf ++ [type]) ++ zeros 3 ++ octets := by
    rw [hbuf]
    simp
  have hlength : t₁.sendbuf.length - ((s.sendbuf ++ [type]).length + 3) = octets.length := by
    rw [hparts]
    simp only [List.length_append, zeros_length]
    omega
  change (overwrite t₁.sendbuf (s.sendbuf ++ [type]).length
    (toBE 3 (t₁.sendbuf.length - ((s.sendbuf ++ [type]).length + 3)))).drop s.sendbuf.length = _
  rw [hlength, hparts, overwrite_append (by simp)]
  simp [encodeMessage, encodeBlock]

end Returned

/-! ## Messages -/

/-- What precedes a message in the output while it is written. -/
def Emitter.header : Emitter → Bytes
  | .record => [ContentType.handshake, recordVersionMajor, recordVersionMinor, 0, 0]
  | .raw => []

/-- A message stands behind its header. -/
theorem Emitter.drop_wrap (emitter : Emitter) (earlier message : Bytes) :
    (earlier ++ emitter.wrap message).drop (earlier.length + emitter.header.length) = message := by
  rw [← List.drop_drop, List.drop_left]
  cases emitter with
  | record => exact List.drop_left' (by simp [Emitter.header])
  | raw => rfl

/-- The epoch that a message of a connection belongs to. -/
def Tls.messageEpoch (tls : Tls) (message : Bytes) : ℕ :=
  if tls.enc.epoch = 1 ∧ message[0]? = some HandshakeType.clientHello then 0 else tls.enc.epoch

/-- The message offsets after a message at an offset of the output is committed. A message that
does not fit into one record, and one whose later epochs do not start where it does, cannot be
committed. -/
def Emitter.commitOffsets (emitter : Emitter) (tls : Tls) (message : Bytes) (start : ℕ)
    (offs : List ℕ) : Option (List ℕ) :=
  match emitter with
  | .record => if message.length ≤ maxPlaintextRecordSize then some offs else none
  | .raw => advanceEpochOffsets (tls.messageEpoch message) start (start + message.length) 0 offs

/-- The session after octets have been appended, with another connection object and other message
offsets. -/
def Session.emitted (s : Session) (tls : Tls) (octets : Bytes) (tick : ℕ) (offs : List ℕ) :
    Session :=
  { s with tls := tls, sendbuf := s.sendbuf ++ octets, tick := tick, epochOffsets := offs }

theorem beginMessage_builds (emitter : Emitter) (s : Session) :
    Builds True env s (beginMessage emitter env s) emitter.header s.sendbuf.length s.tls := by
  cases emitter with
  | record =>
    rw [beginMessage, sendbufOff, observe_bind]
    exact (Builds.bufferPushv s _).seq fun tick => Builds.value _ _
  | raw => exact Builds.value s _

/-- Without a key, committing a message completes its record or advances the offsets. -/
theorem commitMessage_run [Crypto] (env : Environment) (emitter : Emitter)
    (earlier message : Bytes) (henc : s.tls.enc.aead = none)
    (hbuf : s.sendbuf = earlier ++ (emitter.header ++ message)) :
    commitMessage emitter earlier.length env s =
      match emitter.commitOffsets s.tls message earlier.length s.epochOffsets with
      | some offs => (.ok (), { s with
          sendbuf := earlier ++ emitter.wrap message, epochOffsets := offs })
      | none => (.error .assertion, s) := by
  rw [commitMessage, getTls_bind, getSendbuf, observe_bind]
  cases emitter with
  | record =>
    have hsize : s.sendbuf.length - earlier.length - 5 = message.length := by
      simp [hbuf, Emitter.header]
    have hlength : overwrite s.sendbuf (earlier.length + 3) (toBE 2 message.length) =
        earlier ++ Emitter.wrap .record message := by
      have hparts := overwrite_append (a := earlier ++ [ContentType.handshake, recordVersionMajor,
        recordVersionMinor]) (b := [0, 0]) (c := message) (d := toBE 2 message.length) (by simp)
      simpa [hbuf, Emitter.header, Emitter.wrap] using hparts
    dsimp only
    rw [henc, Option.isSome_none, if_neg Bool.false_ne_true, assert_bind, hsize,
      Emitter.commitOffsets]
    by_cases hfits : message.length ≤ maxPlaintextRecordSize
    · rw [if_pos hfits, if_pos (decide_eq_true hfits), modifySendbuf, update_run, hlength]
    · rw [if_neg hfits, if_neg (by simpa using hfits)]
  | raw =>
    have hsame : s.sendbuf = earlier ++ message := hbuf
    have hhead : s.sendbuf[earlier.length]? = message[0]? := by
      rw [hsame, List.getElem?_append_right le_rfl, Nat.sub_self]
    have hend : s.sendbuf.length = earlier.length + message.length := by
      rw [hsame, List.length_append]
    dsimp only
    rw [hhead, hend, observe_bind, Emitter.commitOffsets, Emitter.wrap, ← hsame,
      ← Tls.messageEpoch]
    cases advanceEpochOffsets (s.tls.messageEpoch message) earlier.length
      (earlier.length + message.length) 0 s.epochOffsets <;> rfl

/-- A run from a session that emits octets as messages and leaves a connection object behind. -/
structure Emits (C : Prop) (env : Environment) (s : Session)
    (outcome : Except Fault α × Session) (octets : Bytes) (a : α) (tls : Tls) : Prop where
  returns : ∀ r t, outcome = (.ok r, t) →
    C ∧ r = a ∧ ∃ tick offs, t = s.emitted tls octets tick offs
  succeeds : C → (∀ tick, env.alloc tick = true) → ∃ r t, outcome = (.ok r, t)

/-- The condition may be stated otherwise. -/
theorem Emits.of_iff {C C' : Prop} {outcome : Except Fault α × Session} {octets : Bytes} {a : α}
    {tls : Tls} (h : Emits C env s outcome octets a tls) (hC : C ↔ C') :
    Emits C' env s outcome octets a tls where
  returns r t hrun := by
    obtain ⟨hcond, hrest⟩ := h.returns r t hrun
    exact ⟨hC.mp hcond, hrest⟩
  succeeds hcond := h.succeeds (hC.mpr hcond)

/-- Messages followed by a step that only updates the connection object. -/
theorem Emits.andThen {C : Prop} {m : Proc α} {f : α → Proc β} {octets : Bytes} {a : α} {b : β}
    {tls tls' : Tls} (hm : Emits C env s (m env s) octets a tls)
    (hf : ∀ tick offs, f a env (s.emitted tls octets tick offs) =
      (.ok b, s.emitted tls' octets tick offs)) :
    Emits C env s ((m >>= f) env s) octets b tls' where
  returns r t hrun := by
    obtain ⟨a', s₁, hfirst, hrest⟩ := bind_eq_ok.mp hrun
    obtain ⟨hC, rfl, tick, offs, rfl⟩ := hm.returns a' s₁ hfirst
    rw [hf tick offs] at hrest
    cases hrest
    exact ⟨hC, rfl, tick, offs, rfl⟩
  succeeds hC halloc := by
    obtain ⟨a', s₁, hfirst⟩ := hm.succeeds hC halloc
    obtain ⟨-, rfl, tick, offs, rfl⟩ := hm.returns a' s₁ hfirst
    exact ⟨b, _, by rw [bind_of_ok hfirst, hf tick offs]⟩

section Message

variable {C : Prop} {body : Bytes} {a : α} {tls : Tls} {type : UInt8} {block : Proc α}
  {emitter : Emitter}

/-- A message appends its type, its length, and its body. -/
theorem bufferPushMessageBody_builds
    (hblock : ∀ tick, Builds C env (s.appended s.tls ([type] ++ zeros 3) tick)
      (block env (s.appended s.tls ([type] ++ zeros 3) tick)) body a tls) :
    Builds (C ∧ body.length < 256 ^ 3) env s (bufferPushMessageBody false type block env s)
      (encodeMessage type body) (a, encodeMessage type body) tls := by
  have hmessage : Builds (C ∧ body.length < 256 ^ 3) env s (bufferPushMessage type block env s)
      (encodeMessage type body) a tls := by
    rw [bufferPushMessage]
    refine (Builds.bufferPushv s [type]).seq fun tick => Builds.bufferPushBlock fun tick' => ?_
    rw [s.appended_appended]
    exact hblock tick'
  rw [bufferPushMessageBody, sendbufOff, observe_bind]
  refine hmessage.andReturn fun tick => ?_
  have hdrop : (s.appended tls (encodeMessage type body) tick).sendbuf.drop s.sendbuf.length =
      encodeMessage type body := List.drop_left
  rw [getSendbuf, observe_bind, hdrop]
  rfl

/-- Without a key, a message is appended as a record of its own or as it is. -/
theorem writeMessage_emits [Crypto]
    (hblock : ∀ tick, Builds C env (s.appended s.tls (emitter.header ++ ([type] ++ zeros 3)) tick)
      (block env (s.appended s.tls (emitter.header ++ ([type] ++ zeros 3)) tick)) body a tls)
    (henc : tls.enc.aead = none) :
    Emits ((C ∧ body.length < 256 ^ 3) ∧ (emitter.commitOffsets tls (encodeMessage type body)
        s.sendbuf.length s.epochOffsets).isSome = true) env s
      (writeMessage emitter false type block env s) (emitter.wrap (encodeMessage type body))
      (a, encodeMessage type body) tls := by
  have hbody (tick : ℕ) : Builds (C ∧ body.length < 256 ^ 3) env
      (s.appended s.tls emitter.header tick)
      (bufferPushMessageBody false type block env (s.appended s.tls emitter.header tick))
      (encodeMessage type body) (a, encodeMessage type body) tls := by
    refine bufferPushMessageBody_builds fun tick' => ?_
    rw [s.appended_appended]
    exact hblock tick'
  have hcommit (tick tick' : ℕ) : commitMessage emitter s.sendbuf.length env
      ((s.appended s.tls emitter.header tick).appended tls (encodeMessage type body) tick') =
      match emitter.commitOffsets tls (encodeMessage type body) s.sendbuf.length s.epochOffsets with
      | some offs => (.ok (), s.emitted tls (emitter.wrap (encodeMessage type body)) tick' offs)
      | none => (.error .assertion,
          (s.appended s.tls emitter.header tick).appended tls (encodeMessage type body) tick') :=
    commitMessage_run env emitter s.sendbuf (encodeMessage type body) henc (List.append_assoc _ _ _)
  constructor
  · intro r t hrun
    obtain ⟨start, s₁, hbegin, hrun⟩ := bind_eq_ok.mp hrun
    obtain ⟨-, rfl, tick, rfl⟩ := (beginMessage_builds emitter s).returns start s₁ hbegin
    obtain ⟨result, s₂, hwrite, hrun⟩ := bind_eq_ok.mp hrun
    obtain ⟨hC, rfl, tick', rfl⟩ := (hbody tick).returns result s₂ hwrite
    obtain ⟨_, s₃, hcommitted, hrun⟩ := bind_eq_ok.mp hrun
    cases hrun
    rw [hcommit tick tick'] at hcommitted
    cases hoffs : emitter.commitOffsets tls (encodeMessage type body) s.sendbuf.length
        s.epochOffsets with
    | none =>
      rw [hoffs] at hcommitted
      cases hcommitted
    | some offs =>
      rw [hoffs] at hcommitted
      cases hcommitted
      exact ⟨⟨hC, rfl⟩, rfl, tick', offs, rfl⟩
  · rintro ⟨hC, hoffs⟩ halloc
    obtain ⟨offs, hoffs⟩ := Option.isSome_iff_exists.mp hoffs
    obtain ⟨tick, hbegin⟩ := (beginMessage_builds emitter s).run trivial halloc
    obtain ⟨tick', hwrite⟩ := (hbody tick).run hC halloc
    have hcommitted := hcommit tick tick'
    rw [hoffs] at hcommitted
    refine ⟨(a, encodeMessage type body),
      s.emitted tls (emitter.wrap (encodeMessage type body)) tick' offs, ?_⟩
    rw [writeMessage, bind_of_ok hbegin, bind_of_ok hwrite, bind_of_ok hcommitted]
    rfl

end Message

end Picotls
