import Picotls.Buffers.Growth

/-!
# Buffers over whole sequences of calls

Calls that reserve room or append octets are made on one buffer, in any order, and go on after calls
that were refused. In every state that is reached the octets of the buffer are those that were
appended. A call keeps what it promises exactly if the shifts that compute its alignment fit: the
alignment of a new block is computed as an `int`.
-/

namespace Picotls.Buffers

open Foundation Procedure

variable {result : Except Stop Unit} {u : Store}

/-- A call on a buffer. -/
inductive Call where
  | reserve (delta : ℕ) (tx : ℤ)
  | reserveAligned (delta alignBits : ℕ) (tx : ℤ)
  | pushv (src : Bytes)

namespace Call

/-- Make the call. -/
def perform : Call → Proc Unit
  | reserve delta tx => ptlsBufferReserve delta tx
  | reserveAligned delta alignBits tx => ptlsBufferReserveAligned delta alignBits tx
  | pushv src => ptlsBufferDoPushv src

/-- The room that is asked for behind the octets. -/
def delta : Call → ℕ
  | reserve delta _ => delta
  | reserveAligned delta _ _ => delta
  | pushv _ => 0

/-- The alignment that is asked for. -/
def alignBits : Call → ℕ
  | reserveAligned _ alignBits _ => alignBits
  | _ => 0

/-- The octets that a call which has returned so has appended. -/
def appended : Call → Except Stop Unit → Bytes
  | pushv src, .ok () => src
  | _, _ => []

/-- The direction that is passed. -/
def direction (buf : PtlsBuffer) : Call → ℤ
  | reserve _ tx => tx
  | reserveAligned _ _ tx => tx
  | pushv _ => buf.direction

/-- The shifts by the number of alignment bits fit their types. -/
def ShiftsFit (build : Build) (buf : PtlsBuffer) (call : Call) : Prop :=
  Buffers.ShiftsFit build buf call.delta call.alignBits (call.direction buf)

end Call

/-- A call has returned, with whatever code. -/
def HasReturned : Except Stop Unit → Prop
  | .ok () => True
  | .error (.code _) => True
  | .error _ => False

/-- The states that are reached by calls that return, with what they returned. -/
inductive Run (build : Build) (s : Store) : List (Call × Except Stop Unit) → Store → Prop
  | start : Run build s [] s
  | next {done : List (Call × Except Stop Unit)} {t u : Store} {call : Call}
      {result : Except Stop Unit} (before : Run build s done t)
      (performed : call.perform build t = (result, u)) (returned : HasReturned result) :
      Run build s (done ++ [(call, result)]) u

/-- The octets that were appended. -/
def appendedOctets (done : List (Call × Except Stop Unit)) : Bytes :=
  done.flatMap fun (call, result) => call.appended result

/-- What a call promises: no undefined behaviour and no size that wraps, an assertion only against a
wrong direction; the octets with what was appended, inside of the capacity and in the same
direction; the room and the alignment if it succeeds; and the buffer as it was if it fails. -/
structure KeepsPromises (build : Build) (t : Store) (call : Call) (result : Except Stop Unit)
    (u : Store) : Prop where
  defined : result ≠ .error .undefined
  exact_sizes : result ≠ .error .wraps
  asserts : result = .error .assertion → t.buf.direction ≠ call.direction t.buf
  content : u.heap.memory.read u.buf.base u.buf.off =
    t.heap.memory.read t.buf.base t.buf.off ++ call.appended result
  bounded : u.buf.off ≤ u.buf.capacity
  same_direction : u.buf.tx = t.buf.tx
  room : result = .ok () → u.buf.off + call.delta ≤ u.buf.capacity ∧
    ∃ owned, ⟨u.buf.base, u.buf.capacity, owned⟩ ∈ u.heap.blocks
  aligned : result = .ok () → 2 ^ call.alignBits ∣ u.buf.base
  unchanged : ∀ c, result = .error (.code c) → u.buf = t.buf

variable {build : Build} {s t : Store} {octets : Bytes}

section

variable (h : IsSound octets t)

include h

/-- Reserving room keeps its promises. -/
theorem Reserved.keepsPromises {call : Call} (hnone : ∀ r, call.appended r = [])
    (hreserved : Reserved build octets t call.delta call.alignBits (call.direction t.buf)
      (result, u)) : KeepsPromises build t call result u := by
  cases hreserved with
  | refused hcode hbuf hsound =>
    refine ⟨by simp, by simp, by simp, ?_, hsound.off_le, by rw [hbuf], by simp, by simp,
      fun _ _ => hbuf⟩
    rw [hsound.content, h.content, hnone, List.append_nil]
  | stopped hdebug hne =>
    refine ⟨by simp, by simp, fun _ => hne, ?_, h.off_le, rfl, by simp, by simp, by simp⟩
    rw [hnone, List.append_nil]
  | made hsound hoff hdirection hroom haligned =>
    obtain ⟨owned, hblock, -⟩ := hsound.block
    refine ⟨by simp, by simp, by simp, ?_, hsound.off_le, hdirection,
      fun _ => ⟨hroom, owned, hblock⟩, fun _ => haligned, by simp⟩
    rw [hsound.content, h.content, hnone, List.append_nil]

/-- A call whose shifts fit keeps its promises, and one whose shifts do not is undefined. -/
theorem keepsPromises_iff (build : Build) (call : Call) :
    KeepsPromises build t call (call.perform build t).1 (call.perform build t).2 ↔
      call.ShiftsFit build t.buf := by
  have hreserve (delta alignBits : ℕ) (tx : ℤ) (call : Call) (hdelta : call.delta = delta)
      (hbits : call.alignBits = alignBits) (htx : call.direction t.buf = tx)
      (hnone : ∀ r, call.appended r = []) :
      KeepsPromises build t call (ptlsBufferReserveAligned delta alignBits tx build t).1
        (ptlsBufferReserveAligned delta alignBits tx build t).2 ↔
      call.ShiftsFit build t.buf := by
    subst hdelta hbits htx
    constructor
    · intro hkeeps
      by_contra hfit
      refine hkeeps.defined ?_
      rw [ptlsBufferReserveAligned_undefined h hfit]
    · intro hfit
      exact (ptlsBufferReserveAligned_reserved h hfit).keepsPromises h hnone
  cases call with
  | reserve delta tx => exact hreserve delta 0 tx (.reserve delta tx) rfl rfl rfl fun _ => rfl
  | reserveAligned delta alignBits tx =>
    exact hreserve delta alignBits tx (.reserveAligned delta alignBits tx) rfl rfl rfl fun _ => rfl
  | pushv src =>
    refine iff_of_true ?_ (shiftsFit_zero _ _ _ _)
    have happended : Appended build octets src t (ptlsBufferDoPushv src build t) :=
      ptlsBufferDoPushv_appended h build src
    change KeepsPromises build t (.pushv src) (ptlsBufferDoPushv src build t).1
      (ptlsBufferDoPushv src build t).2
    generalize ptlsBufferDoPushv src build t = outcome at happended
    cases happended with
    | refused hbuf hsound =>
      refine ⟨by simp, by simp, by simp, ?_, hsound.off_le, by rw [hbuf], by simp, by simp,
        fun _ _ => hbuf⟩
      change _ = _ ++ []
      rw [hsound.content, h.content, List.append_nil]
    | appended hsound hdirection =>
      obtain ⟨owned, hblock, -⟩ := hsound.block
      refine ⟨by simp, by simp, by simp, ?_, hsound.off_le, hdirection,
        fun _ => ⟨hsound.off_le, owned, hblock⟩, fun _ => Nat.one_dvd _, by simp⟩
      change _ = _ ++ src
      rw [hsound.content, h.content]

/-- Reserving room keeps the octets, whatever it returns. -/
theorem Reserved.isSound {delta alignBits : ℕ} {tx : ℤ} {outcome : Except Stop Unit × Store}
    (hreserved : Reserved build octets t delta alignBits tx outcome) :
    IsSound octets outcome.2 ∧ outcome.2.buf.tx = t.buf.tx := by
  cases hreserved with
  | refused _ hbuf hsound => exact ⟨hsound, by rw [hbuf]⟩
  | stopped => exact ⟨h, rfl⟩
  | made hsound _ hdirection => exact ⟨hsound, hdirection⟩

/-- A call that returns leaves the buffer sound. -/
theorem perform_isSound {call : Call} (hrun : call.perform build t = (result, u))
    (hreturned : HasReturned result) :
    IsSound (octets ++ call.appended result) u ∧ u.buf.tx = t.buf.tx := by
  have hreserve {delta alignBits : ℕ} {tx : ℤ}
      (hrun : ptlsBufferReserveAligned delta alignBits tx build t = (result, u)) :
      IsSound octets u ∧ u.buf.tx = t.buf.tx := by
    by_cases hfit : ShiftsFit build t.buf delta alignBits tx
    · have hsound := (ptlsBufferReserveAligned_reserved h hfit).isSound h
      rwa [hrun] at hsound
    · rw [ptlsBufferReserveAligned_undefined h hfit] at hrun
      cases hrun
      exact hreturned.elim
  cases call with
  | reserve delta tx =>
    change IsSound (octets ++ []) u ∧ _
    rw [List.append_nil]
    exact hreserve hrun
  | reserveAligned delta alignBits tx =>
    change IsSound (octets ++ []) u ∧ _
    rw [List.append_nil]
    exact hreserve hrun
  | pushv src =>
    have happended : Appended build octets src t (result, u) :=
      hrun ▸ ptlsBufferDoPushv_appended h build src
    cases happended with
    | refused hbuf hsound =>
      change IsSound (octets ++ []) u ∧ _
      rw [List.append_nil, hbuf]
      exact ⟨hsound, rfl⟩
    | appended hsound hdirection => exact ⟨hsound, hdirection⟩

end

/-- In every state that is reached the buffer holds what was appended. -/
theorem Run.isSound (hs : IsSound [] s) {done : List (Call × Except Stop Unit)}
    (hrun : Run build s done t) :
    IsSound (appendedOctets done) t ∧ t.buf.tx = s.buf.tx := by
  induction hrun with
  | start => exact ⟨hs, rfl⟩
  | next before performed returned ih =>
    obtain ⟨hsound, hdirection⟩ := perform_isSound ih.1 performed returned
    refine ⟨?_, hdirection.trans ih.2⟩
    simpa [appendedOctets] using hsound

/-- Every sequence of calls on a new buffer: in every state that is reached the octets are those
that were appended, inside of the capacity, and the direction is the first one; and the next call
keeps what it promises exactly if the shifts that compute its alignment fit. -/
theorem buffer_calls_iff (build : Build) (hs : IsSound [] s)
    {done : List (Call × Except Stop Unit)} (hrun : Run build s done t) (call : Call) :
    t.buf.off ≤ t.buf.capacity ∧
      t.heap.memory.read t.buf.base t.buf.off = appendedOctets done ∧ t.buf.tx = s.buf.tx ∧
      (KeepsPromises build t call (call.perform build t).1 (call.perform build t).2 ↔
        call.ShiftsFit build t.buf) := by
  obtain ⟨hsound, hdirection⟩ := hrun.isSound hs
  exact ⟨hsound.off_le, hsound.content, hdirection, keepsPromises_iff hsound build call⟩

namespace Sample

/-- An allocator that grants the same address again and again. -/
def grantingBuild : Build := ⟨fun _ _ _ => some 65536, false, false⟩

/-- A buffer of sixteen octets that its user supplies. -/
def smallStore : Store :=
  ⟨⟨fun _ => 0, [⟨4096, 16, false⟩], 0, List.pairwise_singleton _ _⟩, ptlsBufferInit 4096 16 true⟩

/-- The buffer is new. -/
theorem smallStore_isSound : IsSound [] smallStore :=
  ptlsBufferInit_isSound true (by decide) (by decide) List.mem_cons_self

end Sample

open Sample

/-- The buffer of sixteen octets can be made to hold a hundred at an alignment of 64. -/
theorem buffer_calls_sample :
    (Call.reserveAligned 100 6 1).ShiftsFit grantingBuild smallStore.buf ∧
    KeepsPromises grantingBuild smallStore (.reserveAligned 100 6 1)
      ((Call.reserveAligned 100 6 1).perform grantingBuild smallStore).1
      ((Call.reserveAligned 100 6 1).perform grantingBuild smallStore).2 := by
  have hfit : (Call.reserveAligned 100 6 1).ShiftsFit grantingBuild smallStore.buf :=
    fun _ _ => ⟨fun _ => by decide, fun _ => by decide⟩
  exact ⟨hfit, (buffer_calls_iff grantingBuild smallStore_isSound .start
    (.reserveAligned 100 6 1)).2.2.2.mpr hfit⟩

/-- With forty alignment bits the alignment is not a value of an `int`. -/
theorem wide_alignment_undefined :
    ((Call.reserveAligned 100 40 1).perform grantingBuild smallStore).1 =
      .error .undefined ∧
    ¬ KeepsPromises grantingBuild smallStore (.reserveAligned 100 40 1)
      ((Call.reserveAligned 100 40 1).perform grantingBuild smallStore).1
      ((Call.reserveAligned 100 40 1).perform grantingBuild smallStore).2 := by
  have hundefined :
      ((Call.reserveAligned 100 40 1).perform grantingBuild smallStore).1 =
        .error .undefined := rfl
  exact ⟨hundefined, fun hkeeps => hkeeps.defined hundefined⟩

end Picotls.Buffers
