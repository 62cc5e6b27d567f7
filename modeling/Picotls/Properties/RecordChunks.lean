import Picotls.Foundation.Framing
import Picotls.Sample

/-!
# Records in pieces

The parser of records takes octets as they arrive. Whatever the pieces are, it finds the records
that are cut off the whole stream one after the other, and it fails where that fails: a fast path
takes a record that is there as a whole, and a slow path completes the octets that it has kept.
-/

namespace Picotls

open Foundation Procedure

variable {stream : Bytes}

/-! ## Records of a whole stream -/

/-- The content types with which a record may start. -/
abbrev recordTypes : List (Option UInt8) :=
  [some ContentType.changeCipherSpec, some ContentType.alert, some ContentType.handshake,
    some ContentType.appdata]

/-- The record with a given type and length at the front of a stream, and what follows it. -/
def takeRecord (stream : Bytes) (found : UInt8 × ℕ) : Record × Bytes :=
  (⟨found.1, (stream.drop 5).take found.2⟩, stream.drop (5 + found.2))

local instance lawfulTypes : LawfulBEq (Option UInt8) := inferInstance

/-- Cut the first record off a stream. -/
def cutRecord (stream : Bytes) : Except Fault (Option (Record × Bytes)) :=
  if stream = [] then .ok none
  else if stream.head? ∉ recordTypes then .error (.code Alert.decodeError)
  else (completeRecord stream).map (Option.map (takeRecord stream))

/-- A header is read off its first octets. -/
theorem parseRecordHeader_append {header : Bytes} (hlength : 5 ≤ header.length) (more : Bytes) :
    parseRecordHeader (header ++ more) = parseRecordHeader header := by
  match header with
  | a :: b :: c :: d :: e :: rest => simp [parseRecordHeader]

/-- The outcomes of a look at the first record. -/
theorem completeRecord_cases (stream : Bytes) :
    (stream.length < 5 ∧ completeRecord stream = .ok none) ∨
      5 ≤ stream.length ∧
        ((∃ fault, parseRecordHeader stream = .error fault ∧
            completeRecord stream = .error fault) ∨
          ∃ type length, parseRecordHeader stream = .ok (type, length) ∧
            completeRecord stream =
              .ok (if 5 + length ≤ stream.length then some (type, length) else none)) := by
  by_cases hshort : stream.length < 5
  · exact .inl ⟨hshort, by simp [completeRecord, hshort]⟩
  · refine .inr ⟨by omega, ?_⟩
    simp only [completeRecord, hshort, if_false]
    rcases parseRecordHeader stream with fault | ⟨type, length⟩
    · exact .inl ⟨fault, rfl, rfl⟩
    · exact .inr ⟨type, length, rfl, rfl⟩

/-- What is found at the front of a stream is found when more octets arrive. -/
theorem completeRecord_append (more : Bytes) :
    (∀ fault, completeRecord stream = .error fault →
      completeRecord (stream ++ more) = .error fault) ∧
    ∀ found, completeRecord stream = .ok (some found) →
      completeRecord (stream ++ more) = .ok (some found) ∧ 5 + found.2 ≤ stream.length := by
  rcases completeRecord_cases stream with ⟨-, hnone⟩ | ⟨hlength, hheader⟩
  · simp [hnone]
  have hmore := parseRecordHeader_append hlength more
  rcases completeRecord_cases (stream ++ more) with ⟨hshort, -⟩ | ⟨-, hheader'⟩
  · rw [List.length_append] at hshort
    omega
  rcases hheader with ⟨fault, hparse, hcomplete⟩ | ⟨type, length, hparse, hcomplete⟩ <;>
    rcases hheader' with ⟨fault', hparse', hcomplete'⟩ | ⟨type', length', hparse', hcomplete'⟩ <;>
    rw [hmore, hparse] at hparse' <;> cases hparse' <;> rw [hcomplete, hcomplete']
  · simp
  · refine ⟨by simp, fun found hfound => ?_⟩
    by_cases hfits : 5 + length ≤ stream.length
    · rw [if_pos hfits] at hfound
      cases hfound
      refine ⟨?_, hfits⟩
      rw [if_pos (by rw [List.length_append]; omega)]
    · rw [if_neg hfits] at hfound
      cases hfound

/-- A record that is there as a whole stays what it is when more octets arrive. -/
theorem takeRecord_append {stream : Bytes} {found : UInt8 × ℕ} (more : Bytes)
    (hlength : 5 + found.2 ≤ stream.length) :
    takeRecord (stream ++ more) found =
      ((takeRecord stream found).1, (takeRecord stream found).2 ++ more) := by
  have hfragment : found.2 ≤ (stream.drop 5).length := by
    rw [List.length_drop]
    omega
  rw [takeRecord, takeRecord, List.drop_append_of_le_length (by omega),
    List.take_append_of_le_length hfragment, List.drop_append_of_le_length hlength]

/-- The front of a stream that starts with a content type. -/
theorem cutRecord_of_type (hne : stream ≠ []) (htype : stream.head? ∈ recordTypes) :
    cutRecord stream = (completeRecord stream).map (Option.map (takeRecord stream)) := by
  rw [cutRecord, if_neg hne, if_neg (not_not.mpr htype)]

/-- A stream from which a record can be cut. -/
theorem cutRecord_eq_some {rec : Record} {rest : Bytes}
    (h : cutRecord stream = .ok (some (rec, rest))) :
    stream ≠ [] ∧ stream.head? ∈ recordTypes ∧ ∃ found,
      completeRecord stream = .ok (some found) ∧ takeRecord stream found = (rec, rest) := by
  rw [cutRecord] at h
  by_cases hne : stream = []
  · rw [if_pos hne] at h
    cases h
  rw [if_neg hne] at h
  by_cases htype : stream.head? ∈ recordTypes
  · rw [if_neg (not_not.mpr htype)] at h
    refine ⟨hne, htype, ?_⟩
    rcases hcomplete : completeRecord stream with fault | _ | found <;> rw [hcomplete] at h
    · cases h
    · cases h
    · injection h with h
      injection h with h
      exact ⟨found, rfl, h⟩
  · rw [if_pos htype] at h
    cases h

/-- The records of a stream of octets. -/
def recordFraming : Framing UInt8 Record Fault where
  cut := cutRecord
  cut_shorter := by
    intro stream rec rest h
    obtain ⟨hne, -, found, -, htake⟩ := cutRecord_eq_some h
    have hrest : stream.drop (5 + found.2) = rest := congrArg Prod.snd htake
    have hpos := List.length_pos_iff.mpr hne
    rw [← hrest, List.length_drop]
    omega
  cut_append := by
    intro stream rec rest more h
    obtain ⟨hne, htype, found, hcomplete, htake⟩ := cutRecord_eq_some h
    obtain ⟨hmore, hlength⟩ := (completeRecord_append more).2 found hcomplete
    have hhead : (stream ++ more).head? = stream.head? := List.head?_append_of_ne_nil _ hne
    rw [cutRecord_of_type (List.append_ne_nil_of_left_ne_nil hne _) (hhead ▸ htype), hmore]
    change Except.ok (some (takeRecord (stream ++ more) found)) = _
    rw [takeRecord_append more hlength, htake]
  cut_append_error := by
    intro stream fault more h
    rw [cutRecord] at h
    by_cases hne : stream = []
    · rw [if_pos hne] at h
      cases h
    have hhead : (stream ++ more).head? = stream.head? := List.head?_append_of_ne_nil _ hne
    rw [if_neg hne] at h
    rw [cutRecord, if_neg (List.append_ne_nil_of_left_ne_nil hne _), hhead]
    by_cases htype : stream.head? ∈ recordTypes
    · rw [if_neg (not_not.mpr htype)] at h ⊢
      rcases hcomplete : completeRecord stream with fault' | found <;> rw [hcomplete] at h
      · cases h
        rw [(completeRecord_append more).1 fault hcomplete]
        rfl
      · cases h
    · rw [if_pos htype] at h ⊢
      exact h

/-! ## The parser -/

variable {env : Environment} {s : Session} {src : Bytes}

/-- The octets of a record that the parser has kept. -/
def Session.keptRecord (s : Session) : Bytes := s.tls.recvbufRec.getD []

/-- The parser has kept the beginning of a record, or nothing. -/
def Session.KeepsPartialRecord (s : Session) : Prop :=
  ∀ buf, s.tls.recvbufRec = some buf → buf ≠ [] ∧ cutRecord buf = .ok none

/-- What a call of the parser should do, given the octets kept and those that arrive. -/
def ParsesRecord (env : Environment) (s : Session) (src : Bytes) : Prop :=
  match cutRecord (s.keptRecord ++ src) with
  | .error fault => ∃ t, parseRecord src env s = (.error fault, t)
  | .ok none => ∃ t, parseRecord src env s = (.ok none, t) ∧ t.consumed = src.length ∧
      t.tls.recvbufRec = some (s.keptRecord ++ src)
  | .ok (some (rec, rest)) => ∃ t, parseRecord src env s = (.ok (some rec), t) ∧
      0 < t.consumed ∧ src.drop t.consumed = rest

section SlowPath

variable {buf header rest : Bytes} (hbuf : s.tls.recvbufRec = some buf)
  (hheader : buf ++ src.take (5 - buf.length) = header) (hrest : src.drop (5 - buf.length) = rest)

include hbuf hheader

/-- The slow path keeps the octets of an incomplete header. -/
theorem parseRecordSlow_of_short (hshort : header.length < 5) :
    parseRecordSlow src env s =
      (.ok none, { s with tls := { s.tls with recvbufRec := some header } }) := by
  simp only [parseRecordSlow, getTls_bind, hbuf, deref_some_bind, modifyTls_bind, hheader,
    if_pos hshort, pure_run]

/-- The slow path refuses a header that is not acceptable. -/
theorem parseRecordSlow_of_error {fault : Fault} (hlong : 5 ≤ header.length)
    (hparse : parseRecordHeader header = .error fault) :
    ∃ t, parseRecordSlow src env s = (.error fault, t) := by
  simp only [parseRecordSlow, getTls_bind, hbuf, deref_some_bind, modifyTls_bind, hheader,
    if_neg (not_lt.mpr hlong)]
  rw [bind_run, liftM_run, hparse]
  exact ⟨_, rfl⟩

include hrest

/-- The slow path takes from the input what is missing of the record. -/
theorem parseRecordSlow_of_ok {type : UInt8} {length : ℕ} (halloc : ∀ tick, env.alloc tick = true)
    (hlong : 5 ≤ header.length) (hparse : parseRecordHeader header = .ok (type, length))
    {record : Bytes}
    (hrecord : header ++ rest.take (length + 5 - header.length) = record) :
    ∃ t, parseRecordSlow src env s =
        (.ok (if record.length = length + 5 then some ⟨type, record.drop 5⟩ else none), t) ∧
      t.consumed = src.length - (rest.length - (length + 5 - header.length)) ∧
      t.tls.recvbufRec = some record := by
  subst hheader hrest hrecord
  simp only [parseRecordSlow, getTls_bind, hbuf, deref_some_bind, modifyTls_bind,
    if_neg (not_lt.mpr hlong)]
  rw [bind_run, liftM_run, hparse]
  have hallocate (c : Prop) [Decidable c] (u : Session) :
      ∃ tick, runIf c allocate env u = (.ok (), { u with tick := tick }) := by
    by_cases hc : c
    · exact ⟨u.tick + 1, by simp [runIf, hc, halloc]⟩
    · exact ⟨u.tick, by simp [runIf, hc]⟩
  obtain ⟨tick, htick⟩ := hallocate
    (length + 5 - (buf ++ src.take (5 - buf.length)).length ≠ 0)
    { s with tls := { s.tls with recvbufRec := some (buf ++ src.take (5 - buf.length)) } }
  dsimp only at htick ⊢
  rw [bind_of_ok htick]
  exact ⟨_, rfl, rfl, rfl⟩

end SlowPath

/-- The slow path completes the octets that were kept. -/
theorem parseRecordSlow_spec (buf : Bytes) (halloc : ∀ tick, env.alloc tick = true)
    (hbuf : s.tls.recvbufRec = some buf) (hconsumed : s.consumed = src.length) (hsrc : src ≠ [])
    (hunfinished : completeRecord buf = .ok none) :
    match completeRecord (buf ++ src) with
    | .error fault => ∃ t, parseRecordSlow src env s = (.error fault, t)
    | .ok none => ∃ t, parseRecordSlow src env s = (.ok none, t) ∧ t.consumed = src.length ∧
        t.tls.recvbufRec = some (buf ++ src)
    | .ok (some found) => ∃ t,
        parseRecordSlow src env s = (.ok (some (takeRecord (buf ++ src) found).1), t) ∧
          0 < t.consumed ∧ src.drop t.consumed = (takeRecord (buf ++ src) found).2 := by
  obtain ⟨header, hheader⟩ : ∃ header, buf ++ src.take (5 - buf.length) = header := ⟨_, rfl⟩
  obtain ⟨rest, hrest⟩ : ∃ rest, src.drop (5 - buf.length) = rest := ⟨_, rfl⟩
  have hstream : buf ++ src = header ++ rest := by
    rw [← hheader, ← hrest, List.append_assoc, List.take_append_drop]
  have hpos := List.length_pos_iff.mpr hsrc
  have hheaderlen : header.length = buf.length + min (5 - buf.length) src.length := by
    rw [← hheader, List.length_append, List.length_take]
  have hrestlen : rest.length = src.length - (5 - buf.length) := by rw [← hrest, List.length_drop]
  by_cases hshort : header.length < 5
  · -- all of the input was taken for a header that is still incomplete
    obtain rfl : rest = [] := List.length_eq_zero_iff.mp (by omega)
    rw [hstream, List.append_nil, completeRecord, if_pos hshort]
    exact ⟨_, parseRecordSlow_of_short hbuf hheader hshort, hconsumed, rfl⟩
  rw [not_lt] at hshort
  have hparse := parseRecordHeader_append hshort rest
  rw [← hstream] at hparse
  rcases completeRecord_cases (buf ++ src) with ⟨hlt, -⟩ | ⟨-, hcase⟩
  · rw [hstream, List.length_append] at hlt
    omega
  rcases hcase with ⟨fault, hfault, hcomplete⟩ | ⟨type, length, hfound, hcomplete⟩
  · rw [hcomplete]
    exact parseRecordSlow_of_error hbuf hheader hshort (hparse.symm.trans hfault)
  -- what was kept is no more than the record
  have hbound : buf.length < 5 ∨ buf.length < 5 + length := by
    by_cases hbuflen : buf.length < 5
    · exact .inl hbuflen
    · right
      rcases completeRecord_cases buf with ⟨hlt, -⟩ | ⟨hle, ⟨fault, -, herror⟩ | ⟨_, _, hkept, hif⟩⟩
      · exact absurd hlt hbuflen
      · rw [herror] at hunfinished
        cases hunfinished
      · rw [← parseRecordHeader_append hle src, hfound] at hkept
        cases hkept
        by_contra hge
        rw [hif, if_pos (by omega)] at hunfinished
        cases hunfinished
  have hrecord : header ++ rest.take (length + 5 - header.length) =
      (buf ++ src).take (length + 5) := by
    have hwhole : header.length ≤ length + 5 := by omega
    rw [hstream, List.take_append, List.take_of_length_le hwhole]
  obtain ⟨t, hrun, htaken, hkept⟩ := parseRecordSlow_of_ok hbuf hheader hrest halloc hshort
    (hparse.symm.trans hfound) hrecord
  rw [List.length_take, List.length_append] at hrun
  rw [hcomplete, List.length_append]
  by_cases hfits : 5 + length ≤ buf.length + src.length
  · rw [if_pos (by omega), List.drop_take, Nat.add_sub_cancel] at hrun
    rw [if_pos hfits]
    have hafter : (buf ++ src).drop (5 + length) = src.drop (5 + length - buf.length) := by
      rw [List.drop_append, List.drop_eq_nil_of_le (by omega), List.nil_append]
    have htaken' : t.consumed = 5 + length - buf.length := by omega
    exact ⟨t, hrun, by omega, by rw [takeRecord, hafter, htaken']⟩
  · rw [if_neg (by omega)] at hrun
    rw [if_neg hfits]
    rw [List.take_of_length_le (by rw [List.length_append]; omega)] at hkept
    exact ⟨t, hrun, by omega, hkept⟩

theorem setConsumed_bind {β : Type} (consumed : ℕ) (f : Unit → Proc β) :
    (setConsumed consumed >>= f) env s = f () env { s with consumed := consumed } := rfl

/-- The parser continues what it has kept. -/
theorem parseRecord_of_some {buf : Bytes} (hbuf : s.tls.recvbufRec = some buf) (hsrc : src ≠ []) :
    parseRecord src env s = parseRecordSlow src env { s with consumed := src.length } := by
  rw [parseRecord, assert_bind, if_pos (decide_eq_true hsrc), setConsumed_bind, getTls_bind]
  simp only [hbuf]

/-- The parser starts with a record that is there as a whole, or keeps what is there. -/
theorem parseRecord_of_none (halloc : ∀ tick, env.alloc tick = true)
    (hbuf : s.tls.recvbufRec = none) (hsrc : src ≠ []) (htype : src.head? ∈ recordTypes) :
    parseRecord src env s = match completeRecord src with
      | .error fault => (.error fault, { s with consumed := src.length })
      | .ok (some found) =>
        (.ok (some (takeRecord src found).1), { s with consumed := found.2 + 5 })
      | .ok none => parseRecordSlow src env { s with
          consumed := src.length, tick := s.tick + 1
          tls := { s.tls with recvbufRec := some [] } } := by
  rw [parseRecord, assert_bind, if_pos (decide_eq_true hsrc), setConsumed_bind, getTls_bind]
  simp only [hbuf]
  rw [throwIf_bind_of_not (not_not.mpr htype), bind_run, liftM_run]
  rcases completeRecord src with fault | _ | found
  · rfl
  · dsimp only
    rw [modifyTls_bind, bind_of_ok (allocate_eq_ok (u := ()) |>.mpr ⟨halloc _, rfl⟩)]
  · rfl

/-- The parser refuses what does not start like a record. -/
theorem parseRecord_of_type (hbuf : s.tls.recvbufRec = none) (hsrc : src ≠ [])
    (htype : src.head? ∉ recordTypes) :
    parseRecord src env s =
      (.error (.code Alert.decodeError), { s with consumed := src.length }) := by
  rw [parseRecord, assert_bind, if_pos (decide_eq_true hsrc), setConsumed_bind, getTls_bind]
  simp only [hbuf]
  rw [throwIf_bind_of htype]

/-- The octets kept of a record are acceptable so far, and incomplete. -/
theorem completeRecord_of_partial {buf : Bytes} (hne : buf ≠ [])
    (hunfinished : cutRecord buf = .ok none) :
    buf.head? ∈ recordTypes ∧ completeRecord buf = .ok none := by
  have htype : buf.head? ∈ recordTypes := by
    by_contra htype
    rw [cutRecord, if_neg hne, if_pos htype] at hunfinished
    cases hunfinished
  refine ⟨htype, ?_⟩
  rw [cutRecord_of_type hne htype] at hunfinished
  rcases hcomplete : completeRecord buf with fault | _ | found
  · rw [hcomplete] at hunfinished
    cases hunfinished
  · rfl
  · rw [hcomplete] at hunfinished
    cases hunfinished

/-- A call of the parser cuts a record off what it has kept and what arrives. -/
theorem parseRecord_spec (halloc : ∀ tick, env.alloc tick = true) (hs : s.KeepsPartialRecord)
    (hsrc : src ≠ []) : ParsesRecord env s src := by
  rw [ParsesRecord, Session.keptRecord]
  cases hbuf : s.tls.recvbufRec with
  | some buf =>
    obtain ⟨hne, hunfinished⟩ := hs buf hbuf
    obtain ⟨htype, hkept⟩ := completeRecord_of_partial hne hunfinished
    have hhead : (buf ++ src).head? ∈ recordTypes := by rwa [List.head?_append_of_ne_nil _ hne]
    have hspec := parseRecordSlow_spec (s := { s with consumed := src.length }) buf halloc hbuf rfl
      hsrc hkept
    rw [Option.getD_some, cutRecord_of_type (List.append_ne_nil_of_left_ne_nil hne _) hhead,
      parseRecord_of_some hbuf hsrc]
    revert hspec
    rcases completeRecord (buf ++ src) with fault | _ | found <;> exact id
  | none =>
    rw [Option.getD_none, List.nil_append]
    by_cases htype : src.head? ∈ recordTypes
    · rw [cutRecord_of_type hsrc htype, parseRecord_of_none halloc hbuf hsrc htype]
      have hspec := parseRecordSlow_spec
        (s := { s with
          consumed := src.length, tick := s.tick + 1, tls := { s.tls with recvbufRec := some [] } })
        [] halloc rfl rfl hsrc rfl
      rw [List.nil_append] at hspec
      revert hspec
      rcases hcomplete : completeRecord src with fault | _ | found
      · exact fun _ => ⟨_, rfl⟩
      · exact id
      · intro _
        exact ⟨_, rfl, Nat.succ_pos _, congrArg (src.drop ·) (Nat.add_comm _ _)⟩
    · rw [cutRecord, if_neg hsrc, if_pos htype]
      exact ⟨_, parseRecord_of_type hbuf hsrc htype⟩

/-! ## Streams in pieces -/

/-- A call of the parser: the input, the outcome, and how much of the input was taken. -/
structure ParseCall where
  input : Bytes
  result : Except Fault (Option Record)
  consumed : ℕ

/-- The record that a call completed. -/
def ParseCall.record? (call : ParseCall) : Option Record :=
  match call.result with
  | .ok rec => rec
  | .error _ => none

/-- The failure of a call. -/
def ParseCall.fault? (call : ParseCall) : Option Fault :=
  match call.result with
  | .ok _ => none
  | .error fault => some fault

/-- The records that some calls completed. -/
def completedRecords (calls : List ParseCall) : List Record := calls.filterMap ParseCall.record?

/-- The failure with which some calls ended. -/
def parseFailure (calls : List ParseCall) : Option Fault := calls.findSome? ParseCall.fault?

/-- Feed a piece of a stream to the parser until it is used up. The buffer of a completed record is
released. -/
def parseChunk (env : Environment) : ℕ → Bytes → Session → List ParseCall × Session
  | 0, _, s => ([], s)
  | fuel + 1, src, s =>
    if src = [] then ([], s)
    else
      match parseRecord src env s with
      | (.error fault, t) => ([⟨src, .error fault, t.consumed⟩], t)
      | (.ok none, t) =>
        let further := parseChunk env fuel (src.drop t.consumed) t
        (⟨src, .ok none, t.consumed⟩ :: further.1, further.2)
      | (.ok (some rec), t) =>
        let further := parseChunk env fuel (src.drop t.consumed) (disposeRecvbufRec env t).2
        (⟨src, .ok (some rec), t.consumed⟩ :: further.1, further.2)

/-- Feed the pieces of a stream to the parser, up to a failure. -/
def parseChunks (env : Environment) : List Bytes → Session → List ParseCall × Session
  | [], s => ([], s)
  | chunk :: chunks, s =>
    let first := parseChunk env chunk.length chunk s
    if (parseFailure first.1).isSome then first
    else
      let further := parseChunks env chunks first.2
      (first.1 ++ further.1, further.2)

/-- A call that completes no record takes all of its input; one that completes a record takes
some. -/
def ParseCall.MakesProgress (call : ParseCall) : Prop :=
  (call.result = .ok none → call.consumed = call.input.length) ∧
    ∀ rec, call.result = .ok (some rec) → 0 < call.consumed

/-- What the calls of the parser found, against what there is in the stream. -/
structure Finds (calls : List ParseCall) (t : Session) (r : Reading UInt8 Record Fault) : Prop where
  records : completedRecords calls = r.frames
  failure : parseFailure calls = r.failure
  progress : ∀ call ∈ calls, call.MakesProgress
  kept : r.failure = none → t.KeepsPartialRecord ∧ t.keptRecord = r.rest

/-- There is no record in what the parser has kept. -/
theorem Session.KeepsPartialRecord.read_kept (hs : s.KeepsPartialRecord) :
    recordFraming.read s.keptRecord = ⟨[], none, s.keptRecord⟩ := by
  refine Framing.read_of_none ?_
  rw [Session.keptRecord]
  cases hbuf : s.tls.recvbufRec with
  | none => rfl
  | some buf => exact (hs buf hbuf).2

/-- Nothing is found in nothing. -/
theorem parseChunk_nil (env : Environment) (fuel : ℕ) (s : Session) :
    parseChunk env fuel [] s = ([], s) := by
  cases fuel <;> rfl

/-- The calls for one piece of a stream find the records in it, after what was kept. -/
theorem parseChunk_finds (halloc : ∀ tick, env.alloc tick = true) (hs : s.KeepsPartialRecord)
    {fuel : ℕ} (hfuel : src.length ≤ fuel) :
    Finds (parseChunk env fuel src s).1 (parseChunk env fuel src s).2
      (recordFraming.read (s.keptRecord ++ src)) := by
  induction fuel generalizing src s with
  | zero =>
    obtain rfl : src = [] := List.length_eq_zero_iff.mp (by omega)
    rw [List.append_nil, hs.read_kept]
    exact ⟨rfl, rfl, by simp [parseChunk], fun _ => ⟨hs, rfl⟩⟩
  | succ fuel ih =>
    by_cases hsrc : src = []
    · subst hsrc
      rw [List.append_nil, hs.read_kept, parseChunk_nil]
      exact ⟨rfl, rfl, by simp, fun _ => ⟨hs, rfl⟩⟩
    have hspec := parseRecord_spec halloc hs hsrc
    rw [ParsesRecord] at hspec
    match hcut : cutRecord (s.keptRecord ++ src) with
    | .error fault =>
      rw [hcut] at hspec
      obtain ⟨t, hrun⟩ := hspec
      rw [Framing.read_of_error (F := recordFraming) hcut, parseChunk, if_neg hsrc, hrun]
      exact ⟨rfl, rfl, by simp [ParseCall.MakesProgress], by simp⟩
    | .ok none =>
      rw [hcut] at hspec
      obtain ⟨t, hrun, hconsumed, hbuf⟩ := hspec
      have hrest : src.drop t.consumed = [] := List.drop_eq_nil_of_le hconsumed.ge
      rw [Framing.read_of_none (F := recordFraming) hcut, parseChunk, if_neg hsrc, hrun]
      dsimp only
      rw [hrest, parseChunk_nil]
      refine ⟨rfl, rfl, by simp [ParseCall.MakesProgress, hconsumed], fun _ => ⟨?_, ?_⟩⟩
      · intro buf hbuf'
        obtain rfl : s.keptRecord ++ src = buf := Option.some.inj (hbuf.symm.trans hbuf')
        exact ⟨List.append_ne_nil_of_right_ne_nil _ hsrc, hcut⟩
      · rw [Session.keptRecord, hbuf, Option.getD_some]
    | .ok (some (rec, rest)) =>
      rw [hcut] at hspec
      obtain ⟨t, hrun, hpos, rfl⟩ := hspec
      have hfuel' : (src.drop t.consumed).length ≤ fuel := by
        rw [List.length_drop]
        omega
      have hfurther := ih (s := (disposeRecvbufRec env t).2) (fun buf hbuf => by cases hbuf) hfuel'
      rw [Framing.read_of_some (F := recordFraming) hcut, parseChunk, if_neg hsrc, hrun]
      dsimp only
      refine ⟨?_, hfurther.failure, ?_, hfurther.kept⟩
      · exact congrArg (rec :: ·) hfurther.records
      · intro call hcall
        rcases List.mem_cons.mp hcall with rfl | hcall
        · exact ⟨by simp, fun _ _ => hpos⟩
        · exact hfurther.progress call hcall

/-- The calls for the pieces of a stream find the records in it, after what was kept. -/
theorem parseChunks_finds (halloc : ∀ tick, env.alloc tick = true) (hs : s.KeepsPartialRecord)
    (chunks : List Bytes) :
    Finds (parseChunks env chunks s).1 (parseChunks env chunks s).2
      (recordFraming.feed s.keptRecord chunks) := by
  induction chunks generalizing s with
  | nil => exact ⟨rfl, rfl, by simp [parseChunks], fun _ => ⟨hs, rfl⟩⟩
  | cons chunk chunks ih =>
    have hchunk := parseChunk_finds halloc hs (le_refl chunk.length)
    rw [parseChunks, Framing.feed]
    dsimp only
    rw [hchunk.failure]
    cases hfailure : (recordFraming.read (s.keptRecord ++ chunk)).failure with
    | some fault =>
      rw [if_pos Option.isSome_some]
      exact hchunk
    | none =>
      obtain ⟨hunfinished, hkept⟩ := hchunk.kept hfailure
      have hfurther := ih hunfinished
      rw [hkept] at hfurther
      rw [if_neg (by simp)]
      refine ⟨?_, ?_, ?_, hfurther.kept⟩
      · rw [completedRecords, List.filterMap_append]
        exact congrArg₂ (· ++ ·) hchunk.records hfurther.records
      · have hnone := hchunk.failure.trans hfailure
        rw [parseFailure] at hnone
        rw [parseFailure, List.findSome?_append, hnone, Option.none_or]
        exact hfurther.failure
      · intro call hcall
        rcases List.mem_append.mp hcall with hcall | hcall
        · exact hchunk.progress call hcall
        · exact hfurther.progress call hcall

/-- The records that are found, and the failure after them, do not depend on the pieces in which a
stream arrives; and every call makes progress. -/
theorem record_parsing_ignores_chunking {env env' : Environment} {s s' : Session}
    {chunks chunks' : List Bytes} (halloc : ∀ tick, env.alloc tick = true)
    (halloc' : ∀ tick, env'.alloc tick = true) (hs : s.tls.recvbufRec = none)
    (hs' : s'.tls.recvbufRec = none) (hstream : chunks.flatten = chunks'.flatten) :
    completedRecords (parseChunks env chunks s).1 =
        completedRecords (parseChunks env' chunks' s').1 ∧
      parseFailure (parseChunks env chunks s).1 = parseFailure (parseChunks env' chunks' s').1 ∧
      ∀ call ∈ (parseChunks env chunks s).1, call.MakesProgress := by
  have hread {env : Environment} {s : Session} (chunks : List Bytes)
      (halloc : ∀ tick, env.alloc tick = true) (hs : s.tls.recvbufRec = none) :
      Finds (parseChunks env chunks s).1 (parseChunks env chunks s).2
        (recordFraming.read chunks.flatten) := by
    have hfinds := parseChunks_finds (s := s) halloc (fun buf hbuf => by simp [hs] at hbuf) chunks
    rwa [Session.keptRecord, hs, Option.getD_none, Framing.feed_eq rfl, List.nil_append] at hfinds
  have h := hread chunks halloc hs
  have h' := hread chunks' halloc' hs'
  rw [← hstream] at h'
  exact ⟨h.records.trans h'.records.symm, h.failure.trans h'.failure.symm, h.progress⟩

open Sample

/-- Two records are found when they arrive at once, and when they arrive in pieces of two octets
after the first. -/
theorem record_parsing_ignores_chunking_sample :
    completedRecords (parseChunks environment
      [[22, 3, 3, 0, 2, 5, 6, 21, 3, 3, 0, 0]] keyedServer).1 = [⟨22, [5, 6]⟩, ⟨21, []⟩] ∧
    completedRecords (parseChunks environment
      [[22], [3, 3], [0, 2], [5, 6], [21, 3], [3, 0], [0]] keyedServer).1 =
        [⟨22, [5, 6]⟩, ⟨21, []⟩] := by
  have hwhole : completedRecords (parseChunks environment
      [[22, 3, 3, 0, 2, 5, 6, 21, 3, 3, 0, 0]] keyedServer).1 =
        [⟨22, [5, 6]⟩, ⟨21, []⟩] := by
    decide +kernel
  have halloc (tick : ℕ) : environment.alloc tick = true := rfl
  have hkept : keyedServer.tls.recvbufRec = none := rfl
  have hstream : ([[22, 3, 3, 0, 2, 5, 6, 21, 3, 3, 0, 0]] : List Bytes).flatten =
      [[22], [3, 3], [0, 2], [5, 6], [21, 3], [3, 0], [0]].flatten := rfl
  have hpieces := record_parsing_ignores_chunking halloc halloc hkept hkept hstream
  exact ⟨hwhole, hpieces.1.symm.trans hwhole⟩

end Picotls
