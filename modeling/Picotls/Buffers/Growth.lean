import Picotls.Buffers.Buffer

/-!
# What reserving and appending do to a buffer

A buffer is sound if its octets stand at its base inside of a block in use, with the alignment that
is on record. Reserving room in a sound buffer either leaves it alone and returns a code, or keeps
the octets and makes the room; the only other way out is a shift that is wider than its type.
-/

namespace Picotls.Buffers

open Foundation Procedure

variable {owned : Bool} {src : Bytes} {m : Proc Unit} {c : Prop}
  {alignBits capacity delta newCapacity required : ℕ} {tx : ℤ}

/-- A buffer holds octets in a block in use. -/
structure IsSound (octets : Bytes) (s : Store) : Prop where
  content : s.heap.memory.read s.buf.base s.buf.off = octets
  off_le : s.buf.off ≤ s.buf.capacity
  block : ∃ owned, ⟨s.buf.base, s.buf.capacity, owned⟩ ∈ s.heap.blocks ∧
    (s.buf.isAllocated → owned = true)
  base_ne : s.buf.base ≠ 0
  inside : s.buf.base + s.buf.capacity ≤ addressLimit
  aligned : 2 ^ s.buf.alignBits ∣ s.buf.base
  nonempty : s.buf.isAllocated → 0 < s.buf.capacity

variable {build : Build} {s t : Store} {octets : Bytes}

namespace IsSound

theorem off_eq (h : IsSound octets s) : s.buf.off = octets.length := by
  rw [← h.content, Memory.read_length]

theorem capacity_le (h : IsSound octets s) : s.buf.capacity ≤ sizeMax := by
  have hinside := h.inside
  have hbase := Nat.pos_of_ne_zero h.base_ne
  have hlimit : addressLimit = sizeMax + 1 := by decide
  omega

/-- Requests to the allocator do not matter to a buffer. -/
theorem congr (h : IsSound octets s) (hbuf : t.buf = s.buf)
    (hmemory : t.heap.memory = s.heap.memory) (hblocks : t.heap.blocks = s.heap.blocks) :
    IsSound octets t := by
  constructor <;> rw [hbuf]
  · rw [hmemory]
    exact h.content
  · exact h.off_le
  · rw [hblocks]
    exact h.block
  · exact h.base_ne
  · exact h.inside
  · exact h.aligned
  · exact h.nonempty

end IsSound

/-! ## The new capacity -/

/-- Doubling ends with a capacity that suffices, and no product wraps. -/
theorem growCapacity_eq {rounds : ℕ} (hrequired : required ≤ sizeMax)
    (hcapacity : capacity ≤ sizeMax) (hrounds : sizeMax < capacity * 2 ^ rounds) :
    ∃ grown, growCapacity required rounds capacity = .ok grown ∧ required ≤ grown ∧
      capacity ≤ grown ∧ grown ≤ sizeMax := by
  induction rounds generalizing capacity with
  | zero => omega
  | succ rounds ih =>
    rw [growCapacity]
    by_cases hless : capacity < required
    · rw [if_pos hless]
      by_cases hhalf : sizeMax / 2 < capacity
      · exact ⟨required, if_pos hhalf, le_rfl, hless.le, hrequired⟩
      · have hdouble : capacity * 2 ≤ sizeMax := by omega
        have hmul : mulSize capacity 2 = .ok (capacity * 2) := if_pos hdouble
        obtain ⟨grown, hgrown, hle, hdouble', hmax⟩ := ih hdouble (by
          rw [Nat.mul_assoc, ← Nat.pow_succ']
          exact hrounds)
        refine ⟨grown, ?_, hle, by omega, hmax⟩
        rw [if_neg hhalf, hmul]
        exact hgrown
    · exact ⟨capacity, if_neg hless, by omega, le_rfl, hcapacity⟩

/-- The rounds suffice for the capacity of a buffer. -/
theorem growCapacity_of_capacity (hrequired : required ≤ sizeMax) (hcapacity : capacity ≤ sizeMax) :
    ∃ grown, growCapacity required 64 (max capacity 1024) = .ok grown ∧ required ≤ grown ∧
      max capacity 1024 ≤ grown := by
  have hmax : max capacity 1024 ≤ sizeMax := max_le hcapacity (by decide)
  have hrounds : sizeMax < max capacity 1024 * 2 ^ 64 := by
    calc sizeMax < 1024 * 2 ^ 64 := by decide
      _ ≤ max capacity 1024 * 2 ^ 64 := Nat.mul_le_mul_right _ (le_max_right _ _)
  obtain ⟨grown, hgrown, hle, hlarger, -⟩ := growCapacity_eq hrequired hmax hrounds
  exact ⟨grown, hgrown, hle, hlarger⟩

/-! ## Moving to a new block -/

/-- What a request for a new block returns. -/
theorem newBlock_run (build : Build) (s : Store) (capacity : ℕ) (hbits : alignBits ≤ 30) :
    ∃ p t, newBlock capacity alignBits build s = (.ok p, t) ∧ t.buf = s.buf ∧
      t.heap.memory = s.heap.memory ∧
      (p = none → t.heap.blocks = s.heap.blocks ∧
        (alignBits = 0 → s.heap.allocate addressLimit build.answer capacity 1 = (none, t.heap))) ∧
      ∀ newp, p = some newp →
        s.heap.CanGrant addressLimit capacity (2 ^ alignBits) newp ∧
        t.heap.blocks = ⟨newp, capacity, true⟩ :: s.heap.blocks := by
  have hallocate (alignment : ℕ) : ∃ p t,
      allocateBlock capacity alignment build s = (.ok p, t) ∧ t.buf = s.buf ∧
      t.heap.memory = s.heap.memory ∧ (p = none → t.heap.blocks = s.heap.blocks ∧
        s.heap.allocate addressLimit build.answer capacity alignment = (none, t.heap)) ∧
      ∀ newp, p = some newp → s.heap.CanGrant addressLimit capacity alignment newp ∧
        t.heap.blocks = ⟨newp, capacity, true⟩ :: s.heap.blocks := by
    rcases hrun : s.heap.allocate addressLimit build.answer capacity alignment with ⟨p, heap⟩
    refine ⟨p, { s with heap }, ?_, rfl, ?_⟩
    · rw [allocateBlock, hrun]
    · cases p with
      | none =>
        obtain ⟨hmemory, hblocks⟩ := Heap.allocate_eq_none hrun
        refine ⟨hmemory, fun _ => ⟨hblocks, rfl⟩, fun newp h => ?_⟩
        cases h
      | some newp =>
        obtain ⟨-, hgrant, hmemory, hblocks⟩ := Heap.allocate_eq_some hrun
        refine ⟨hmemory, fun h => ?_, ?_⟩
        · cases h
        · rintro _ ⟨⟩
          exact ⟨hgrant, hblocks⟩
  unfold newBlock
  by_cases hzero : alignBits ≠ 0
  · rw [if_pos hzero, stopIf, runIf, if_neg (by omega)]
    change ∃ p t, posixMemalign (2 ^ alignBits) capacity build s = (.ok p, t) ∧ _
    unfold posixMemalign
    by_cases hsmall : 2 ^ alignBits < 8
    · rw [if_pos hsmall]
      refine ⟨none, s, rfl, rfl, rfl, fun _ => ⟨rfl, fun h => absurd h hzero⟩, fun newp h => ?_⟩
      cases h
    · rw [if_neg hsmall]
      obtain ⟨p, t, hrun, hbuf, hmemory, hnone, hsome⟩ := hallocate (2 ^ alignBits)
      exact ⟨p, t, hrun, hbuf, hmemory, fun hp => ⟨(hnone hp).1, fun h => absurd h hzero⟩, hsome⟩
  · rw [if_neg hzero]
    rw [ne_eq, not_not] at hzero
    obtain ⟨p, t, hrun, hbuf, hmemory, hnone, hsome⟩ := hallocate 1
    rw [hzero, Nat.pow_zero]
    exact ⟨p, t, hrun, hbuf, hmemory, fun hp => ⟨(hnone hp).1, fun _ => (hnone hp).2⟩, hsome⟩

/-- Releasing the old block keeps the contents of memory and the new block. -/
theorem releaseOld_run (build : Build) (s : Store) (new : Block) {base size : ℕ}
    {isAllocated : Bool} (hmem : ⟨base, size, owned⟩ ∈ s.heap.blocks)
    (howned : isAllocated → owned = true) (hbase : base ≠ 0) (hnew : new ∈ s.heap.blocks)
    (hother : isAllocated → new.base ≠ base) :
    ∃ t, runIf isAllocated (free base) build s = (.ok (), t) ∧
      t.buf = s.buf ∧ t.heap.memory = s.heap.memory ∧ new ∈ t.heap.blocks := by
  cases isAllocated with
  | false => exact ⟨s, rfl, rfl, rfl, hnew⟩
  | true =>
    obtain ⟨heap, hfree, hmemory, hblocks⟩ := Heap.free_of_mem (howned rfl ▸ hmem)
    refine ⟨{ s with heap }, ?_, rfl, hmemory, ?_⟩
    · rw [runIf, if_pos rfl, free, if_neg hbase, hfree]
    · rw [hblocks]
      refine (List.mem_eraseP_of_neg ?_).mpr hnew
      simp [hother rfl]

/-- Moving a sound buffer keeps its octets. -/
theorem moveBuffer_run (h : IsSound octets s) (build : Build) {newp : ℕ} (tx : Bool)
    (hbuf : t.buf = s.buf) (hmemory : t.heap.memory = s.heap.memory)
    (hgrant : s.heap.CanGrant addressLimit newCapacity (2 ^ alignBits) newp)
    (hblocks : t.heap.blocks = ⟨newp, newCapacity, true⟩ :: s.heap.blocks)
    (hroom : s.buf.off ≤ newCapacity) (hpos : 0 < newCapacity) :
    ∃ u, moveBuffer newp newCapacity alignBits tx build t = (.ok (), u) ∧ IsSound octets u ∧
      u.buf = ⟨newp, newCapacity, s.buf.off, true, alignBits, tx⟩ := by
  obtain ⟨hne, hdvd, hlimit, hapart⟩ := hgrant
  obtain ⟨owned, hblock, howned⟩ := h.block
  have hold := hapart _ hblock
  have hoff := h.off_le
  have hcopy : runIf (s.buf.off ≠ 0)
      (modifyMemory fun m => m.copy newp s.buf.base s.buf.off) build t =
      (.ok (), { t with heap := t.heap.store (t.heap.memory.copy newp s.buf.base s.buf.off) }) := by
    by_cases hzero : s.buf.off ≠ 0
    · rw [runIf, if_pos hzero]
      rfl
    · rw [runIf, if_neg hzero]
      rw [ne_eq, not_not] at hzero
      rw [hzero, Memory.copy, Memory.read_zero, Memory.write_nil]
      rfl
  let cleared : Memory :=
    (t.heap.memory.copy newp s.buf.base s.buf.off).write s.buf.base (zeros s.buf.off)
  have hcontent : cleared.read newp s.buf.off = octets := by
    have hranges : newp + s.buf.off ≤ s.buf.base ∨ s.buf.base + s.buf.off ≤ newp := by
      rcases hold with hbefore | hbehind
      · exact .inl (le_trans (Nat.add_le_add_left hroom _) hbefore)
      · exact .inr (le_trans (Nat.add_le_add_left hoff _) hbehind)
    rw [Memory.read_write_of_apart (by rwa [zeros_length]), Memory.read_copy, hmemory, h.content]
  have hother : s.buf.isAllocated → newp ≠ s.buf.base := by
    intro howned heq
    have := h.nonempty howned
    rcases hold with hbefore | hbehind
    · dsimp only at hbefore
      omega
    · dsimp only at hbehind
      omega
  obtain ⟨u, hfree, -, humemory, hunew⟩ := releaseOld_run build
    { t with heap := t.heap.store cleared } ⟨newp, newCapacity, true⟩
    (hblocks ▸ List.mem_cons_of_mem _ hblock) howned h.base_ne (hblocks ▸ List.mem_cons_self)
    hother
  refine ⟨{ u with buf := ⟨newp, newCapacity, s.buf.off, true, alignBits, tx⟩ }, ?_, ?_, rfl⟩
  · have hget : getBuf build t = (.ok s.buf, t) := by
      rw [← hbuf]
      rfl
    rw [moveBuffer, bind_of_ok hget, bind_of_ok hcopy]
    change (runIf s.buf.isAllocated (free s.buf.base) >>= fun _ => setBuf _) build
      { t with heap := t.heap.store cleared } = _
    rw [bind_of_ok hfree]
    rfl
  · exact
      { content := by
          rw [humemory]
          exact hcontent
        off_le := hroom
        block := ⟨true, hunew, fun _ => rfl⟩
        base_ne := hne
        inside := hlimit
        aligned := hdvd
        nonempty := fun _ => hpos }

/-! ## Reserving -/

theorem direction_eq_zero_or_one (buf : PtlsBuffer) : buf.direction = 0 ∨ buf.direction = 1 := by
  unfold PtlsBuffer.direction
  cases buf.tx <;> simp

/-- An assertion that holds, or that is compiled away. -/
theorem checkAssertion_run [Decidable c] (h : build.ndebug = true ∨ c) :
    checkAssertion c build s = (.ok (), s) := by
  change stopIf (build.ndebug = false ∧ ¬ c) .assertion build s = _
  rw [stopIf, runIf_of_not]
  · rfl
  · rintro ⟨hdebug, hc⟩
    rcases h with hndebug | hholds
    · rw [hdebug] at hndebug
      cases hndebug
    · exact hc hholds

theorem checkAssertion_fails [Decidable c] (hdebug : build.ndebug = false) (hc : ¬ c) :
    checkAssertion c build s = (.error .assertion, s) := by
  change stopIf (build.ndebug = false ∧ ¬ c) .assertion build s = _
  rw [stopIf, runIf_of ⟨hdebug, hc⟩]
  rfl

/-- The direction of the buffer passes its check. -/
theorem bufferRequireDirection_of_eq (htx : s.buf.direction = tx) :
    bufferRequireDirection tx build s = (.ok (), s) := by
  have hvalid : checkAssertion (tx = 0 ∨ tx = 1) build s = (.ok (), s) :=
    checkAssertion_run (.inr (htx ▸ direction_eq_zero_or_one s.buf))
  change (checkAssertion (tx = 0 ∨ tx = 1) >>= fun _ => _) build s = _
  rw [bind_of_ok hvalid, runIf_of_not (not_not.mpr htx)]
  rfl

/-- Another direction is refused, or stops at an assertion if there are any. -/
theorem bufferRequireDirection_of_ne (build : Build) (htx : s.buf.direction ≠ tx) :
    (bufferRequireDirection tx build s = (.error .assertion, s) ∧ build.ndebug = false) ∨
      bufferRequireDirection tx build s = (.error (.code Error.library), s) := by
  change ((checkAssertion (tx = 0 ∨ tx = 1) >>= fun _ => runIf (s.buf.direction ≠ tx) _) build s
    = _ ∧ _) ∨ (checkAssertion (tx = 0 ∨ tx = 1) >>= fun _ => runIf (s.buf.direction ≠ tx) _)
      build s = _
  rw [runIf_of htx]
  cases hndebug : build.ndebug with
  | true =>
    right
    rw [bind_of_ok (checkAssertion_run (.inl hndebug)),
      bind_of_ok (checkAssertion_run (.inl hndebug))]
    rfl
  | false =>
    refine .inl ⟨?_, rfl⟩
    by_cases hvalid : tx = 0 ∨ tx = 1
    · rw [bind_of_ok (checkAssertion_run (.inr hvalid)),
        bind_of_error (checkAssertion_fails hndebug not_false)]
    · rw [bind_of_error (checkAssertion_fails hndebug hvalid)]

/-- The buffer is moved: always in a debugging build, and otherwise if it is too small or not
aligned as asked for. -/
def Moves (build : Build) (buf : PtlsBuffer) (required alignBits : ℕ) : Prop :=
  build.memoryDebug ∨ buf.capacity < required ∨
    buf.alignBits < alignBits ∧ ¬ 2 ^ alignBits ∣ buf.base

instance (build : Build) (buf : PtlsBuffer) (required alignBits : ℕ) :
    Decidable (Moves build buf required alignBits) :=
  inferInstanceAs (Decidable (_ ∨ _ ∨ _ ∧ _))

/-- The shift that computes an address mask is evaluated. -/
def ComparesAddress (build : Build) (buf : PtlsBuffer) (required alignBits : ℕ) : Prop :=
  build.memoryDebug = false ∧ required ≤ buf.capacity ∧ buf.alignBits < alignBits

/-- Whether the buffer has to be moved. -/
theorem mustMove_run (hshift : ComparesAddress build s.buf required alignBits → alignBits < 64) :
    mustMove required alignBits build s =
      (.ok (decide (Moves build s.buf required alignBits)), s) := by
  change (if build.memoryDebug ∨ s.buf.capacity < required then _ else _ : Proc Bool) build s = _
  by_cases hgrows : build.memoryDebug ∨ s.buf.capacity < required
  · have hmoves : Moves build s.buf required alignBits := by
      rcases hgrows with hdebug | hless
      · exact .inl hdebug
      · exact .inr (.inl hless)
    rw [if_pos hgrows, decide_eq_true hmoves]
    rfl
  · rw [if_neg hgrows]
    obtain ⟨hdebug, hroom⟩ := not_or.mp hgrows
    by_cases hbits : s.buf.alignBits < alignBits
    · have hlt := hshift ⟨by simpa using hdebug, by omega, hbits⟩
      have hmoves : Moves build s.buf required alignBits ↔ ¬ 2 ^ alignBits ∣ s.buf.base := by
        simp [Moves, hdebug, hroom, hbits]
      rw [if_pos hbits, stopIf, runIf_of_not (by omega)]
      simp only [hmoves, Nat.dvd_iff_mod_eq_zero]
      rfl
    · have hmoves : ¬ Moves build s.buf required alignBits := by
        simp [Moves, hdebug, hroom, hbits]
      rw [if_neg hbits, decide_eq_false hmoves]
      rfl

/-- A shift that is too wide. -/
theorem mustMove_undefined (hcompares : ComparesAddress build s.buf required alignBits)
    (hwide : 64 ≤ alignBits) : mustMove required alignBits build s = (.error .undefined, s) := by
  obtain ⟨hdebug, hroom, hbits⟩ := hcompares
  change (if build.memoryDebug ∨ s.buf.capacity < required then _ else _ : Proc Bool) build s = _
  rw [if_neg (by simp [hdebug, hroom]), if_pos hbits, stopIf, runIf_of hwide]
  rfl

/-- A call in the right direction that asks for a size that can be represented. -/
theorem ptlsBufferReserveAligned_eq (h : IsSound octets s) (htx : s.buf.direction = tx)
    (hdelta : s.buf.off + delta ≤ sizeMax) :
    ptlsBufferReserveAligned delta alignBits tx build s =
      (mustMove (s.buf.off + delta) alignBits >>= fun moves => runIf moves do
        let newCapacity ← growCapacity (s.buf.off + delta) 64 (max s.buf.capacity 1024)
        bufferAlloc newCapacity alignBits (decide (tx ≠ 0))) build s := by
  have hadd : addSize s.buf.off delta = .ok (s.buf.off + delta) := if_pos hdelta
  rw [ptlsBufferReserveAligned, bind_of_ok (bufferRequireDirection_of_eq htx)]
  change (stopIf (s.buf.base = 0) _ >>= fun _ => stopIf (sizeMax - s.buf.off < delta) _ >>=
    fun _ => _) build s = _
  rw [stopIf, stopIf, runIf_of_not h.base_ne, runIf_of_not (by omega)]
  change ((addSize s.buf.off delta : Proc ℕ) >>= fun required => _) build s = _
  rw [liftM_bind_of_ok hadd]

/-- Moving a sound buffer to a new block, if there is one. -/
theorem bufferAlloc_cases (h : IsSound octets s) (build : Build) (tx : Bool)
    (hroom : s.buf.off ≤ newCapacity) (hpos : 0 < newCapacity) (hbits : alignBits ≤ 30) :
    (∃ t, bufferAlloc newCapacity alignBits tx build s = (.error (.code Error.noMemory), t) ∧
      t.buf = s.buf ∧ IsSound octets t ∧ (alignBits = 0 →
        s.heap.allocate addressLimit build.answer newCapacity 1 = (none, t.heap))) ∨
    ∃ t newp, bufferAlloc newCapacity alignBits tx build s = (.ok (), t) ∧ IsSound octets t ∧
      t.buf = ⟨newp, newCapacity, s.buf.off, true, alignBits, tx⟩ := by
  obtain ⟨p, t, hblock, hbuf, hmemory, hnone, hsome⟩ :=
    newBlock_run build s newCapacity hbits
  rw [bufferAlloc, bind_of_ok hblock]
  cases p with
  | none => exact .inl ⟨t, rfl, hbuf, h.congr hbuf hmemory (hnone rfl).1, (hnone rfl).2⟩
  | some newp =>
    obtain ⟨hgrant, hblocks⟩ := hsome newp rfl
    obtain ⟨u, hrun, hsound, hu⟩ := moveBuffer_run h build tx hbuf hmemory hgrant hblocks
      hroom hpos
    exact .inr ⟨u, newp, hrun, hsound, hu⟩

theorem bufferAlloc_undefined {tx : Bool} (hbits : 31 ≤ alignBits) :
    bufferAlloc newCapacity alignBits tx build s = (.error .undefined, s) := by
  have hblock : newBlock newCapacity alignBits build s = (.error .undefined, s) := by
    rw [newBlock, if_pos (by omega), stopIf, runIf_of hbits]
    rfl
  rw [bufferAlloc, bind_of_error hblock]

/-- The shifts by the number of alignment bits that a call evaluates stay inside of their types: 64
bits for the comparison with the address, and those of an `int` for the alignment of a new block. -/
def ShiftsFit (build : Build) (buf : PtlsBuffer) (delta alignBits : ℕ) (tx : ℤ) : Prop :=
  buf.direction = tx → buf.off + delta ≤ sizeMax →
    (ComparesAddress build buf (buf.off + delta) alignBits → alignBits < 64) ∧
    (Moves build buf (buf.off + delta) alignBits → alignBits ≤ 30)

/-- The last request to the allocator was for a block to which a buffer that is to hold `required`
octets grows, and was refused; or there is no size for so many octets. -/
def Denied (build : Build) (required : ℕ) (t : Store) : Prop :=
  sizeMax < required ∨ ∃ (size : ℕ) (heap : Heap),
    growCapacity required 64 (max t.buf.capacity 1024) = .ok size ∧
      heap.allocate addressLimit build.answer size 1 = (none, t.heap)

/-- What a call that reserves room has made of a buffer: it has returned a code and left the buffer
alone, stopped because of the direction, or made the room. -/
inductive Reserved (build : Build) (octets : Bytes) (s : Store) (delta alignBits : ℕ) (tx : ℤ) :
    Except Stop Unit × Store → Prop
  | refused {c : Code} {t : Store}
      (code : c = Error.noMemory ∨ c = Error.library ∧ s.buf.direction ≠ tx) (buf : t.buf = s.buf)
      (sound : IsSound octets t)
      (denied : s.buf.direction = tx → alignBits = 0 → Denied build (s.buf.off + delta) t) :
      Reserved build octets s delta alignBits tx (.error (.code c), t)
  | stopped (debug : build.ndebug = false) (direction : s.buf.direction ≠ tx) :
      Reserved build octets s delta alignBits tx (.error .assertion, s)
  | made {t : Store} (sound : IsSound octets t) (off : t.buf.off = s.buf.off)
      (direction : t.buf.tx = s.buf.tx) (room : t.buf.off + delta ≤ t.buf.capacity)
      (aligned : 2 ^ alignBits ∣ t.buf.base) :
      Reserved build octets s delta alignBits tx (.ok (), t)

/-- Reserving room in a sound buffer. -/
theorem ptlsBufferReserveAligned_reserved (h : IsSound octets s)
    (hfit : ShiftsFit build s.buf delta alignBits tx) :
    Reserved build octets s delta alignBits tx
      (ptlsBufferReserveAligned delta alignBits tx build s) := by
  by_cases htx : s.buf.direction = tx
  swap
  · rw [ptlsBufferReserveAligned]
    rcases bufferRequireDirection_of_ne build htx with ⟨hrun, hdebug⟩ | hrun
    · rw [bind_of_error hrun]
      exact .stopped hdebug htx
    · rw [bind_of_error hrun]
      exact .refused (.inr ⟨rfl, htx⟩) rfl h fun h => absurd h htx
  by_cases hdelta : s.buf.off + delta ≤ sizeMax
  swap
  · have hlarge : sizeMax - s.buf.off < delta := by
      have := h.capacity_le
      have := h.off_le
      omega
    rw [ptlsBufferReserveAligned, bind_of_ok (bufferRequireDirection_of_eq htx)]
    change Reserved _ _ _ _ _ _ ((stopIf (s.buf.base = 0) _ >>= fun _ =>
      stopIf (sizeMax - s.buf.off < delta) _ >>= fun _ => _) build s)
    rw [stopIf, stopIf, runIf_of_not h.base_ne, runIf_of hlarge]
    exact .refused (.inl rfl) rfl h fun _ _ => .inl (not_le.mp hdelta)
  obtain ⟨hcompares, hmoves⟩ := hfit htx hdelta
  rw [ptlsBufferReserveAligned_eq h htx hdelta, bind_of_ok (mustMove_run hcompares)]
  by_cases hmove : Moves build s.buf (s.buf.off + delta) alignBits
  · rw [decide_eq_true hmove, runIf_of rfl]
    obtain ⟨grown, hgrown, hrequired, hlarger⟩ := growCapacity_of_capacity hdelta h.capacity_le
    rw [liftM_bind_of_ok hgrown]
    rcases bufferAlloc_cases h build (decide (tx ≠ 0)) (by omega : s.buf.off ≤ grown)
      (by omega) (hmoves hmove) with
      ⟨t, hrun, hbuf, hsound, hdenied⟩ | ⟨t, newp, hrun, hsound, hbuf⟩
    · rw [hrun]
      exact .refused (.inl rfl) hbuf hsound fun _ halign =>
        .inr ⟨grown, s.heap, hbuf ▸ hgrown, hdenied halign⟩
    · rw [hrun]
      refine .made hsound ?_ ?_ ?_ ?_
      · rw [hbuf]
      · rw [hbuf, ← htx]
        unfold PtlsBuffer.direction
        cases s.buf.tx <;> rfl
      · rw [hbuf]
        exact hrequired
      · have haligned := hsound.aligned
        rw [hbuf] at haligned ⊢
        exact haligned
  · rw [decide_eq_false hmove, runIf_of_not Bool.false_ne_true]
    obtain ⟨-, hroom, hbits⟩ : _ ∧ _ ∧ _ := by
      simpa only [Moves, not_or, not_and, not_not] using hmove
    refine .made h rfl rfl (not_lt.mp hroom) ?_
    by_cases hless : s.buf.alignBits < alignBits
    · exact hbits hless
    · exact (Nat.pow_dvd_pow 2 (not_lt.mp hless)).trans h.aligned

/-- A shift that does not fit is all that a call can go wrong with. -/
theorem ptlsBufferReserveAligned_undefined (h : IsSound octets s)
    (hfit : ¬ ShiftsFit build s.buf delta alignBits tx) :
    ptlsBufferReserveAligned delta alignBits tx build s = (.error .undefined, s) := by
  simp only [ShiftsFit, not_forall] at hfit
  obtain ⟨htx, hdelta, hfit⟩ := hfit
  rw [ptlsBufferReserveAligned_eq h htx hdelta]
  by_cases hcompares : ComparesAddress build s.buf (s.buf.off + delta) alignBits → alignBits < 64
  · have hmove : Moves build s.buf (s.buf.off + delta) alignBits := by
      by_contra hstays
      exact hfit ⟨hcompares, fun hmove => absurd hmove hstays⟩
    have hwide : 31 ≤ alignBits := by
      by_contra hsmall
      exact hfit ⟨hcompares, fun _ => by omega⟩
    obtain ⟨grown, hgrown, -⟩ := growCapacity_of_capacity hdelta h.capacity_le
    rw [bind_of_ok (mustMove_run hcompares), decide_eq_true hmove, runIf_of rfl,
      liftM_bind_of_ok hgrown, bufferAlloc_undefined hwide]
  · rw [Classical.not_imp, not_lt] at hcompares
    rw [bind_of_error (mustMove_undefined hcompares.1 hcompares.2)]

theorem shiftsFit_zero (build : Build) (buf : PtlsBuffer) (delta : ℕ) (tx : ℤ) :
    ShiftsFit build buf delta 0 tx :=
  fun _ _ => ⟨fun _ => by decide, fun _ => by decide⟩

/-- A buffer with enough room stays where it is. -/
theorem ptlsBufferReserve_inPlace (h : IsSound octets s) (hdebug : build.memoryDebug = false)
    (hroom : s.buf.off + delta ≤ s.buf.capacity) :
    ptlsBufferReserve delta s.buf.direction build s = (.ok (), s) := by
  have hdelta : s.buf.off + delta ≤ sizeMax := hroom.trans h.capacity_le
  have hmove : ¬ Moves build s.buf (s.buf.off + delta) 0 := by
    simp [Moves, hdebug, hroom]
  rw [ptlsBufferReserve, ptlsBufferReserveAligned_eq h rfl hdelta,
    bind_of_ok (mustMove_run fun _ => by decide), decide_eq_false hmove,
    runIf_of_not Bool.false_ne_true]
  rfl

/-! ## Appending -/

/-- What a call that appends octets has made of a buffer. -/
inductive Appended (build : Build) (octets src : Bytes) (s : Store) :
    Except Stop Unit × Store → Prop
  | refused {t : Store} (buf : t.buf = s.buf) (sound : IsSound octets t)
      (denied : Denied build (octets.length + src.length) t) :
      Appended build octets src s (.error (.code Error.noMemory), t)
  | appended {t : Store} (sound : IsSound (octets ++ src) t) (direction : t.buf.tx = s.buf.tx) :
      Appended build octets src s (.ok (), t)

section

variable (h : IsSound octets s)

include h

/-- Octets written into room that was made extend the contents. -/
theorem IsSound.append (hroom : s.buf.off + src.length ≤ s.buf.capacity) :
    IsSound (octets ++ src)
      { heap := s.heap.store (s.heap.memory.write (s.buf.base + s.buf.off) src)
        buf := { s.buf with off := s.buf.off + src.length } } where
  content := by
    rw [← h.content]
    exact Memory.read_write_append _ _ _ _
  off_le := hroom
  block := h.block
  base_ne := h.base_ne
  inside := h.inside
  aligned := h.aligned
  nonempty := h.nonempty

/-- The second half of appending, after room was made. -/
theorem writeBehind_run (build : Build) (hroom : s.buf.off + src.length ≤ s.buf.capacity) :
    (do
      let buf ← getBuf
      modifyMemory fun m => m.write (buf.base + buf.off) src
      let off ← addSize buf.off src.length
      setBuf { buf with off } : Proc Unit) build s =
      (.ok (), { heap := s.heap.store (s.heap.memory.write (s.buf.base + s.buf.off) src)
                 buf := { s.buf with off := s.buf.off + src.length } }) := by
  have hadd : addSize s.buf.off src.length = .ok (s.buf.off + src.length) :=
    if_pos (hroom.trans h.capacity_le)
  change ((addSize s.buf.off src.length : Proc ℕ) >>= fun off => setBuf { s.buf with off }) build
    { s with heap := s.heap.store (s.heap.memory.write (s.buf.base + s.buf.off) src) } = _
  rw [liftM_bind_of_ok hadd]
  rfl

/-- Appending octets to a sound buffer. -/
theorem ptlsBufferDoPushv_appended (build : Build) (src : Bytes) :
    Appended build octets src s (ptlsBufferDoPushv src build s) := by
  unfold ptlsBufferDoPushv
  by_cases hempty : src.length ≠ 0
  · rw [runIf_of hempty]
    change Appended build octets src s ((ptlsBufferReserve src.length s.buf.direction >>=
      fun _ => _) build s)
    have hreserved : Reserved build octets s src.length 0 s.buf.direction
        (ptlsBufferReserve src.length s.buf.direction build s) :=
      ptlsBufferReserveAligned_reserved h (shiftsFit_zero _ _ _ _)
    generalize hrun : ptlsBufferReserve src.length s.buf.direction build s = outcome at hreserved
    cases hreserved with
    | refused hcode hbuf hsound hdenied =>
      rcases hcode with rfl | ⟨-, hne⟩
      · rw [bind_of_error hrun]
        exact .refused hbuf hsound (h.off_eq ▸ hdenied rfl rfl)
      · exact absurd rfl hne
    | stopped _ hne => exact absurd rfl hne
    | made hsound hoff hdirection hroom =>
      rw [bind_of_ok hrun, writeBehind_run hsound build hroom]
      exact .appended (hsound.append hroom) hdirection
  · rw [runIf_of_not hempty]
    have hnil : src = [] := List.length_eq_zero_iff.mp (not_not.mp hempty)
    refine .appended ?_ rfl
    rw [hnil, List.append_nil]
    exact h

/-- Octets for which there is room are appended in place. -/
theorem ptlsBufferDoPushv_inPlace (hdebug : build.memoryDebug = false)
    (hroom : s.buf.off + src.length ≤ s.buf.capacity) :
    ptlsBufferDoPushv src build s =
      (.ok (), { heap := s.heap.store (s.heap.memory.write (s.buf.base + s.buf.off) src)
                 buf := { s.buf with off := s.buf.off + src.length } }) := by
  unfold ptlsBufferDoPushv
  by_cases hempty : src.length ≠ 0
  · rw [runIf_of hempty]
    change (ptlsBufferReserve src.length s.buf.direction >>= fun _ => _) build s = _
    rw [bind_of_ok (ptlsBufferReserve_inPlace h hdebug hroom), writeBehind_run h build hroom]
  · rw [runIf_of_not hempty]
    have hnil : src = [] := List.length_eq_zero_iff.mp (not_not.mp hempty)
    subst hnil
    rw [Memory.write_nil]
    rfl

end

/-- A new buffer is sound and empty. -/
theorem ptlsBufferInit_isSound {heap : Heap} {smallbuf smallbufSize : ℕ} (tx : Bool)
    (hbase : smallbuf ≠ 0) (hinside : smallbuf + smallbufSize ≤ addressLimit)
    (hblock : ⟨smallbuf, smallbufSize, owned⟩ ∈ heap.blocks) :
    IsSound [] ⟨heap, ptlsBufferInit smallbuf smallbufSize tx⟩ where
  content := rfl
  off_le := Nat.zero_le _
  block := ⟨owned, hblock, fun h => by cases h⟩
  base_ne := hbase
  inside := hinside
  aligned := Nat.one_dvd _
  nonempty := fun h => by cases h

/-! ## Writing step by step -/

variable {out : Bytes}

/-- A buffer holds what was written behind what it held at first; it is where it was if there was
room. -/
structure Holds (build : Build) (s : Store) (octets out : Bytes) (t : Store) : Prop where
  sound : IsSound (octets ++ out) t
  direction : t.buf.tx = s.buf.tx
  inPlace : build.memoryDebug = false → octets.length + out.length ≤ s.buf.capacity →
    t.buf = { s.buf with off := octets.length + out.length } ∧ t.heap.blocks = s.heap.blocks ∧
      t.heap.requests = s.heap.requests

theorem holds_nil (h : IsSound octets s) (build : Build) : Holds build s octets [] s where
  sound := by rwa [List.append_nil]
  direction := rfl
  inPlace _ _ := ⟨by simp [← h.off_eq], rfl, rfl⟩

/-- There is no memory for octets: they do not fit where the buffer was at first, and the allocator
has refused a block for some of them. -/
structure Refused (build : Build) (s : Store) (octets out : Bytes) (t : Store) : Prop where
  exceeds : build.memoryDebug = true ∨ s.buf.capacity < octets.length + out.length
  denied : ∃ required ≤ octets.length + out.length, Denied build required t

/-- Octets need no more room than longer ones. -/
theorem Refused.of_le {out' : Bytes} (h : Refused build s octets out t)
    (hle : out.length ≤ out'.length) : Refused build s octets out' t := by
  obtain ⟨hexceeds, required, hrequired, hdenied⟩ := h
  exact ⟨hexceeds.imp_right fun hless => by omega, required, by omega, hdenied⟩

theorem Refused.mono {more : Bytes} (h : Refused build s octets out t) :
    Refused build s octets (out ++ more) t := h.of_le (by simp)

/-- Appending to a buffer that holds what was written before. -/
theorem Holds.push (h : Holds build s octets out t) (src : Bytes) :
    (∃ u, ptlsBufferDoPushv src build t = (.ok (), u) ∧ Holds build s octets (out ++ src) u) ∨
    ∃ u, ptlsBufferDoPushv src build t = (.error (.code Error.noMemory), u) ∧
      Refused build s octets (out ++ src) u := by
  by_cases hfits : build.memoryDebug = false ∧
      octets.length + (out ++ src).length ≤ s.buf.capacity
  · obtain ⟨hdebug, hroom⟩ := hfits
    rw [List.length_append] at hroom
    obtain ⟨hbuf, hunchanged⟩ := h.inPlace hdebug (by omega)
    have htroom : t.buf.off + src.length ≤ t.buf.capacity := by
      rw [hbuf]
      change octets.length + out.length + src.length ≤ s.buf.capacity
      omega
    refine .inl ⟨_, ptlsBufferDoPushv_inPlace h.sound hdebug htroom, ?_, h.direction, ?_⟩
    · rw [← List.append_assoc]
      exact h.sound.append htroom
    · intro _ _
      refine ⟨?_, hunchanged⟩
      simp only [hbuf, List.length_append, Nat.add_assoc]
  · have happended := ptlsBufferDoPushv_appended h.sound build src
    generalize ptlsBufferDoPushv src build t = outcome at happended
    cases happended with
    | refused _ _ hdenied =>
      rw [not_and_or] at hfits
      refine .inr ⟨_, rfl, hfits.imp (by simp) (by omega), _, le_of_eq ?_, hdenied⟩
      simp only [List.length_append, Nat.add_assoc]
    | appended hsound hdirection =>
      refine .inl ⟨_, rfl, ?_, hdirection.trans h.direction, fun hdebug hroom => ?_⟩
      · rwa [← List.append_assoc]
      · exact absurd ⟨hdebug, hroom⟩ hfits

/-- Making room in a buffer that holds what was written before. -/
theorem Holds.reserve (h : Holds build s octets out t) (delta : ℕ) :
    (∃ u, ptlsBufferReserve delta t.buf.direction build t = (.ok (), u) ∧
      IsSound (octets ++ out) u ∧ u.buf.tx = t.buf.tx ∧ u.buf.off + delta ≤ u.buf.capacity ∧
      (build.memoryDebug = false → octets.length + out.length + delta ≤ s.buf.capacity → u = t)) ∨
    ∃ u, ptlsBufferReserve delta t.buf.direction build t = (.error (.code Error.noMemory), u) ∧
      ∀ more : Bytes, out.length + delta ≤ more.length → Refused build s octets more u := by
  by_cases hfits : build.memoryDebug = false ∧
      octets.length + out.length + delta ≤ s.buf.capacity
  · obtain ⟨hdebug, hroom⟩ := hfits
    have hbuf := (h.inPlace hdebug (by omega)).1
    have htroom : t.buf.off + delta ≤ t.buf.capacity := by
      rw [hbuf]
      exact hroom
    exact .inl ⟨t, ptlsBufferReserve_inPlace h.sound hdebug htroom, h.sound, rfl, htroom,
      fun _ _ => rfl⟩
  · have hreserved : Reserved build (octets ++ out) t delta 0 t.buf.direction
        (ptlsBufferReserve delta t.buf.direction build t) :=
      ptlsBufferReserveAligned_reserved h.sound (shiftsFit_zero _ _ _ _)
    generalize ptlsBufferReserve delta t.buf.direction build t = outcome at hreserved
    cases hreserved with
    | refused hcode hbuf hsound hdenied =>
      rcases hcode with rfl | ⟨-, hne⟩
      · rw [not_and_or] at hfits
        refine .inr ⟨_, rfl, fun more hmore => ⟨hfits.imp (by simp) (by omega), _, ?_,
          hdenied rfl rfl⟩⟩
        rw [h.sound.off_eq, List.length_append]
        omega
      · exact absurd rfl hne
    | stopped _ hne => exact absurd rfl hne
    | made hsound hoff hdirection hroom =>
      exact .inl ⟨_, rfl, hsound, hdirection, hroom,
        fun hdebug hplace => absurd ⟨hdebug, hplace⟩ hfits⟩

/-- What was written is replaced in memory, in a buffer that has room for it. -/
theorem Holds.rewrite (h : Holds build s octets out t) {out' : Bytes} {u : Store} {memory : Memory}
    (hle : out.length ≤ out'.length) (hsound : IsSound (octets ++ out) u)
    (hdirection : u.buf.tx = t.buf.tx)
    (hplace : build.memoryDebug = false → octets.length + out'.length ≤ s.buf.capacity → u = t)
    (hroom : octets.length + out'.length ≤ u.buf.capacity)
    (hread : memory.read u.buf.base (octets.length + out'.length) = octets ++ out') :
    Holds build s octets out'
      { heap := u.heap.store memory
        buf := { u.buf with off := octets.length + out'.length } } where
  sound :=
    { content := hread
      off_le := hroom
      block := hsound.block
      base_ne := hsound.base_ne
      inside := hsound.inside
      aligned := hsound.aligned
      nonempty := hsound.nonempty }
  direction := hdirection.trans h.direction
  inPlace hdebug hfits := by
    obtain rfl := hplace hdebug hfits
    obtain ⟨hbuf, hunchanged⟩ := h.inPlace hdebug (by omega)
    refine ⟨?_, hunchanged⟩
    simp only [hbuf]

/-! ## Machines -/

/-- No machine has `2 ^ 62` octets of memory: the buffer and all that the allocator hands out is
smaller. -/
structure IsAddressable (build : Build) (s : Store) : Prop where
  capacity_lt : s.buf.capacity < 2 ^ 62
  answer_lt : ∀ n size alignment p, build.answer n size alignment = some p → size < 2 ^ 62

/-- A buffer that was moved has the capacity of a block that was handed out. -/
theorem bufferAlloc_capacity {newCapacity : ℕ} {tx : Bool}
    (hrun : bufferAlloc newCapacity 0 tx build s = (.ok (), t)) :
    t.buf.capacity = newCapacity ∧ ∃ n p, build.answer n newCapacity 1 = some p := by
  obtain ⟨p, u, hblock, hmove⟩ := bind_eq_ok.mp hrun
  cases p with
  | none => cases hmove
  | some newp =>
    constructor
    · obtain ⟨_, _, -, hmove⟩ := bind_eq_ok.mp hmove
      obtain ⟨_, _, -, hmove⟩ := bind_eq_ok.mp hmove
      obtain ⟨_, _, -, hmove⟩ := bind_eq_ok.mp hmove
      obtain ⟨_, _, -, hset⟩ := bind_eq_ok.mp hmove
      cases hset
      rfl
    · rcases halloc : s.heap.allocate addressLimit build.answer newCapacity 1 with ⟨q, heap⟩
      have heq : malloc newCapacity build s = (.ok q, { s with heap }) := by
        rw [malloc, allocateBlock, halloc]
      rw [show newBlock newCapacity 0 = malloc newCapacity from rfl, heq] at hblock
      cases hblock
      exact ⟨_, newp, (Heap.allocate_eq_some halloc).1⟩

/-- Making room does not need more memory than there is. -/
theorem ptlsBufferReserve_isAddressable (h : IsSound octets s) (haddr : IsAddressable build s)
    (hrun : ptlsBufferReserve delta s.buf.direction build s = (.ok (), t)) :
    IsAddressable build t := by
  have hreserved : Reserved build octets s delta 0 s.buf.direction (.ok (), t) :=
    hrun ▸ ptlsBufferReserveAligned_reserved h (shiftsFit_zero _ _ _ _)
  cases hreserved with
  | made hsound hoff _ hroom =>
    have hdelta : s.buf.off + delta ≤ sizeMax := hoff ▸ hroom.trans hsound.capacity_le
    rw [ptlsBufferReserve, ptlsBufferReserveAligned_eq h rfl hdelta,
      bind_of_ok (mustMove_run fun _ => by decide)] at hrun
    by_cases hmove : Moves build s.buf (s.buf.off + delta) 0
    · obtain ⟨grown, hgrown, -⟩ := growCapacity_of_capacity hdelta h.capacity_le
      rw [decide_eq_true hmove, runIf_of rfl, liftM_bind_of_ok hgrown] at hrun
      obtain ⟨hcapacity, n, p, hanswer⟩ := bufferAlloc_capacity hrun
      exact ⟨hcapacity ▸ haddr.answer_lt n grown 1 p hanswer, haddr.answer_lt⟩
    · rw [decide_eq_false hmove, runIf_of_not Bool.false_ne_true] at hrun
      cases hrun
      exact haddr

/-- Neither does appending. -/
theorem ptlsBufferDoPushv_isAddressable (h : IsSound octets s) (haddr : IsAddressable build s)
    (hrun : ptlsBufferDoPushv src build s = (.ok (), t)) : IsAddressable build t := by
  unfold ptlsBufferDoPushv at hrun
  by_cases hempty : src.length ≠ 0
  · rw [runIf_of hempty] at hrun
    change (ptlsBufferReserve src.length s.buf.direction >>= fun _ => _) build s = _ at hrun
    obtain ⟨_, u, hreserve, hrun⟩ := bind_eq_ok.mp hrun
    have hu := ptlsBufferReserve_isAddressable h haddr hreserve
    obtain ⟨buf, _, hbuf, hrun⟩ := bind_eq_ok.mp hrun
    cases hbuf
    obtain ⟨_, _, -, hrun⟩ := bind_eq_ok.mp hrun
    obtain ⟨_, _, -, hset⟩ := bind_eq_ok.mp hrun
    cases hset
    exact ⟨hu.capacity_lt, hu.answer_lt⟩
  · rw [runIf_of_not hempty] at hrun
    cases hrun
    exact haddr

end Picotls.Buffers
