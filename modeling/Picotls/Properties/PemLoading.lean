import Picotls.Pem.Objects

/-!
# The memory of a loaded object

The first pass over the lines of an object counts their characters and the second one decodes them.
Decoding gives fewer octets than there are characters, so the memory that was obtained in between
is never exchanged for other memory: it is what the caller gets, or it is released.
-/

namespace Picotls.Pem

open Foundation Procedure Buffers

variable {build : Build} {s : Store} {label : Bytes} {others : List Block}
  {lines object : List Bytes} {t : Store} {capacity : ℕ}

/-- Decoding into a buffer with room for the characters of the lines leaves it in place. -/
theorem decodeInto_inPlace (hs : IsSound [] s) (hdebug : build.memoryDebug = false)
    (hroom : (objectLines label lines).flatten.length ≤ s.buf.capacity) :
    ∃ ret t off, decodeInto label lines build s = (.ok ret, t) ∧
      off ≤ (objectLines label lines).flatten.length ∧ t.buf = { s.buf with off } ∧
      t.heap.blocks = s.heap.blocks ∧ t.heap.requests = s.heap.requests := by
  have hlength := decodeLines_out_length [] (objectLines label lines)
  rw [List.length_nil, Nat.zero_add] at hlength
  have hobject : ObjectDecodes build s [] (lines.any (endsObject label)) _
      (decodeObject label lines build (s, stateOf [])) :=
    decodeObject_decodes isQuantum_nil (holds_nil hs build) lines
  rw [LineResult.behind_nil, stateOf_nil] at hobject
  have hplace {out : Bytes} {t : Store} (hholds : Holds build s [] out t)
      (hout : 4 * out.length ≤ 3 * (objectLines label lines).flatten.length) :
      out.length ≤ (objectLines label lines).flatten.length ∧
        t.buf = { s.buf with off := out.length } ∧
        t.heap.blocks = s.heap.blocks ∧ t.heap.requests = s.heap.requests := by
    have hinPlace := hholds.inPlace hdebug (by rw [List.length_nil]; omega)
    rw [List.length_nil, Nat.zero_add] at hinPlace
    exact ⟨by omega, hinPlace⟩
  rw [decodeInto]
  generalize decodeObject label lines build (s, ptlsBase64DecodeInit) = outcome at hobject
  generalize decodeLines [] (objectLines label lines) = result at hobject hlength
  cases hobject with
  | pending hholds | padded hholds | incomplete hholds | garbage hholds =>
    exact ⟨_, _, _, rfl, hplace hholds (by simp only [LineResult.out] at hlength; omega)⟩
  | refused hrefused =>
    rcases hrefused.exceeds with hmemory | hless
    · rw [hdebug] at hmemory
      cases hmemory
    · rw [List.length_nil] at hless
      omega

/-- At the end the memory is handed over if there is an object, and released otherwise. -/
theorem finishObject_run (ret : ℤ) {size : ℕ} (hbase : s.buf.base ≠ 0)
    (hblocks : s.heap.blocks = ⟨s.buf.base, size, true⟩ :: others) :
    (ret = 0 ∧ finishObject ret build s = (.ok (ret, some (s.buf.base, s.buf.off)), s)) ∨
    ∃ t, finishObject ret build s = (.ok (ret, none), t) ∧ t.buf = s.buf ∧
      t.heap.blocks = others ∧ t.heap.requests = s.heap.requests := by
  change (ret = 0 ∧ (if ret = 0 ∧ 0 < s.buf.off then _ else _ : Buffers.Proc _) build s = _) ∨
    ∃ t, (if ret = 0 ∧ 0 < s.buf.off then _ else _ : Buffers.Proc _) build s = _ ∧ _
  by_cases hobject : ret = 0 ∧ 0 < s.buf.off
  · rw [if_pos hobject]
    exact .inl ⟨hobject.1, rfl⟩
  · let cleared := s.heap.store (s.heap.memory.write s.buf.base (zeros s.buf.off))
    have hmem : ⟨s.buf.base, size, true⟩ ∈ cleared.blocks := by
      change _ ∈ s.heap.blocks
      rw [hblocks]
      exact List.mem_cons_self
    obtain ⟨heap, hfree, -, hleft⟩ := Heap.free_of_mem hmem
    have hrelease : free s.buf.base build ⟨cleared, s.buf⟩ = (.ok (), ⟨heap, s.buf⟩) := by
      refine (if_neg hbase).trans ?_
      simp only [hfree]
    have hrequests : heap.requests = cleared.requests := Heap.free_requests hfree
    refine .inr ⟨⟨heap, s.buf⟩, ?_, rfl, ?_, hrequests⟩
    · rw [if_neg hobject]
      change (free s.buf.base >>= fun _ => _) build ⟨cleared, s.buf⟩ = _
      rw [bind_of_ok hrelease]
      rfl
    · rw [hleft]
      change s.heap.blocks.eraseP _ = others
      rw [hblocks, List.eraseP_cons_of_pos (by simp)]

/-- Decoding into new memory and handing it over or releasing it. -/
theorem decodeInto_finishObject (hs : IsSound [] s) (hdebug : build.memoryDebug = false)
    (hblocks : s.heap.blocks = ⟨s.buf.base, s.buf.capacity, true⟩ :: others)
    (hroom : (objectLines label lines).flatten.length ≤ s.buf.capacity) :
    ∃ ret vec t, (decodeInto label lines >>= finishObject) build s = (.ok (ret, vec), t) ∧
      t.buf.base = s.buf.base ∧ t.buf.off ≤ (objectLines label lines).flatten.length ∧
      t.heap.requests = s.heap.requests ∧
      (ret = 0 ∧ vec = some (t.buf.base, t.buf.off) ∧ t.heap.blocks = s.heap.blocks ∨
        vec = none ∧ t.heap.blocks = others) := by
  obtain ⟨ret, u, off, hdecode, hoff, hbuf, hkept, hrequests⟩ := decodeInto_inPlace hs hdebug hroom
  have hubase : u.buf.base = s.buf.base := by rw [hbuf]
  have huoff : u.buf.off = off := by rw [hbuf]
  have hublocks : u.heap.blocks = ⟨u.buf.base, s.buf.capacity, true⟩ :: others := by
    rw [hkept, hubase, hblocks]
  rw [bind_of_ok hdecode]
  rcases finishObject_run ret (hubase ▸ hs.base_ne) hublocks with
    ⟨hret, hfinish⟩ | ⟨t, hfinish, htbuf, htblocks, htrequests⟩
  · exact ⟨ret, _, u, hfinish, hubase, huoff ▸ hoff, hrequests, .inl ⟨hret, rfl, hkept⟩⟩
  · refine ⟨ret, none, t, hfinish, ?_, ?_, htrequests.trans hrequests, .inr ⟨rfl, htblocks⟩⟩
    · rw [htbuf, hubase]
    · rw [htbuf, huoff]
      exact hoff

/-- Obtaining the memory for an object. -/
theorem ptlsPemBufferInitCapacity_run (build : Build) (s : Store) (capacity : ℕ) :
    (∃ t, ptlsPemBufferInitCapacity capacity build s = (.error (.code Error.noMemory), t) ∧
      t.heap.blocks = s.heap.blocks ∧ t.heap.requests = s.heap.requests + 1) ∨
    ∃ t base, ptlsPemBufferInitCapacity capacity build s = (.ok (), t) ∧
      build.answer s.heap.requests (max capacity 1) 1 = some base ∧
      t.buf = ptlsBufferInit base (max capacity 1) true ∧ IsSound [] t ∧
      t.heap.blocks = ⟨base, max capacity 1, true⟩ :: s.heap.blocks ∧
      t.heap.requests = s.heap.requests + 1 := by
  have hsize : (if capacity = 0 then 1 else capacity) = max capacity 1 := by
    split <;> omega
  have hrequests : (s.heap.allocate addressLimit build.answer (max capacity 1) 1).2.requests =
      s.heap.requests + 1 := Heap.allocate_requests s.heap
  rw [ptlsPemBufferInitCapacity, hsize]
  rcases halloc : s.heap.allocate addressLimit build.answer (max capacity 1) 1 with ⟨_ | base, heap⟩
  · have hmalloc : malloc (max capacity 1) build s = (.ok none, { s with heap }) := by
      rw [malloc, allocateBlock, halloc]
    rw [halloc] at hrequests
    rw [bind_of_ok hmalloc]
    exact .inl ⟨_, rfl, (Heap.allocate_eq_none halloc).2, hrequests⟩
  · have hmalloc : malloc (max capacity 1) build s = (.ok (some base), { s with heap }) := by
      rw [malloc, allocateBlock, halloc]
    obtain ⟨hanswer, ⟨hbase, -, hinside, -⟩, -, hblocks⟩ := Heap.allocate_eq_some halloc
    rw [halloc] at hrequests
    rw [bind_of_ok hmalloc]
    refine .inr ⟨_, base, rfl, hanswer, rfl, ?_, hblocks, hrequests⟩
    exact ptlsBufferInit_isSound true hbase hinside (hblocks ▸ List.mem_cons_self)

/-- The lines that the second pass reads fit into the memory that was obtained. -/
theorem objectLines_fits {sizeReads : Option ℕ} (hsize : t.buf.capacity = max capacity 1)
    (hcapacity : ptlsGetPemObjectCapacity label (readable sizeReads object) 0 = .ok capacity)
    (decodeReads : Option ℕ) :
    (objectLines label (readable decodeReads object)).flatten.length ≤ t.buf.capacity := by
  rw [hsize]
  exact (objectLines_length_le hcapacity decodeReads).trans (le_max_left capacity 1)

/-- The first pass fails with a code other than zero. -/
theorem ptlsGetPemObjectCapacity_ne_zero {before : ℕ} {c : Code}
    (h : ptlsGetPemObjectCapacity label lines before = .error c) : c ≠ 0 := by
  induction lines generalizing before with
  | nil =>
    cases h
    decide
  | cons line lines ih =>
    rw [ptlsGetPemObjectCapacity] at h
    split at h
    · cases h
    split at h
    · cases h
      decide
    · exact ih h

/-- How loading an object comes to the second pass, which decodes the object into memory that was
obtained with the capacity that the first one has computed, or does not come to it. -/
inductive Prepares (host : Host) (label : Bytes) (lines : List Bytes) (heap : Heap) :
    Except Stop (ℤ × Option (ℕ × ℕ)) × Store → Prop
  | unallocated {ret : ℤ} {t : Store} (failed : ret ≠ 0) (blocks : t.heap.blocks = heap.blocks)
      (requests : t.heap.requests = heap.requests) :
      Prepares host label lines heap (.ok (ret, none), t)
  | refused {object : List Bytes} {capacity : ℕ} {t : Store}
      (begins : findBegin label lines = some object)
      (computed : ptlsGetPemObjectCapacity label (readable host.sizeReads object) 0 = .ok capacity)
      (blocks : t.heap.blocks = heap.blocks)
      (requests : t.heap.requests = heap.requests + 1) :
      Prepares host label lines heap (.ok (Error.noMemory, none), t)
  | decodes {object : List Bytes} {capacity : ℕ} {t : Store}
      (begins : findBegin label lines = some object)
      (computed : ptlsGetPemObjectCapacity label (readable host.sizeReads object) 0 = .ok capacity)
      (base : host.answer heap.requests (max capacity 1) 1 = some t.buf.base)
      (size : t.buf.capacity = max capacity 1) (sound : IsSound [] t)
      (blocks : t.heap.blocks = ⟨t.buf.base, max capacity 1, true⟩ :: heap.blocks)
      (requests : t.heap.requests = heap.requests + 1) :
      Prepares host label lines heap
        ((decodeInto label (readable host.decodeReads object) >>= finishObject) host.build t)

/-- Loading an object comes to the second pass if all calls succeed. -/
theorem loadPemObject_eq {host : Host} {content : Bytes} {heap : Heap}
    (hbegin : host.beginFails = false) (hftell : host.ftellFails = false)
    (hfseek : host.fseekFails = false) (hfound : findBegin label (fileLines content) = some object)
    (hcapacity : ptlsGetPemObjectCapacity label (readable host.sizeReads object) 0 = .ok capacity)
    (hinit : ptlsPemBufferInitCapacity capacity host.build ⟨heap, emptyBuffer⟩ = (.ok (), t)) :
    loadPemObject host label content heap =
      (decodeInto label (readable host.decodeReads object) >>= finishObject) host.build t := by
  have hattempt : attempt (ptlsPemBufferInitCapacity capacity) host.build ⟨heap, emptyBuffer⟩ =
      (.ok (.ok ()), t) := by
    rw [attempt, hinit]
  rw [loadPemObject, ptlsGetPemObjectMalloc, hbegin, if_neg (by decide), hfound]
  dsimp only
  rw [hftell, if_neg (by decide), hcapacity]
  dsimp only
  rw [hfseek, if_neg (by decide), bind_of_ok hattempt]

/-- Loading an object up to the second pass. -/
theorem loadPemObject_prepares (host : Host) (label content : Bytes) (heap : Heap) :
    Prepares host label (fileLines content) heap (loadPemObject host label content heap) := by
  rw [loadPemObject, ptlsGetPemObjectMalloc]
  cases hbegin : if host.beginFails then none else findBegin label (fileLines content) with
  | none =>
    -- The buffer is still empty, and nothing is released at the null pointer.
    exact .unallocated (by decide) rfl rfl
  | some object =>
    have hfound : findBegin label (fileLines content) = some object := by
      split at hbegin
      · cases hbegin
      · exact hbegin
    dsimp only
    cases host.ftellFails with
    | true => exact .unallocated (by decide) rfl rfl
    | false =>
      rw [if_neg (by decide)]
      cases hcapacity : ptlsGetPemObjectCapacity label (readable host.sizeReads object) 0 with
      | error c =>
        have hfailed := ptlsGetPemObjectCapacity_ne_zero hcapacity
        exact .unallocated (by exact_mod_cast hfailed) rfl rfl
      | ok capacity =>
        cases host.fseekFails with
        | true => exact .unallocated (by decide) rfl rfl
        | false =>
          dsimp only
          rw [if_neg (by decide)]
          rcases ptlsPemBufferInitCapacity_run host.build ⟨heap, emptyBuffer⟩ capacity with
            ⟨t, hinit, hblocks, hrequests⟩ |
            ⟨t, base, hinit, hanswer, hbuf, hsound, hblocks, hrequests⟩
          · have hattempt : attempt (ptlsPemBufferInitCapacity capacity) host.build
                ⟨heap, emptyBuffer⟩ = (.ok (.error (.code Error.noMemory)), t) := by
              rw [attempt, hinit]
            rw [bind_of_ok hattempt]
            exact .refused hfound hcapacity hblocks hrequests
          · have hattempt : attempt (ptlsPemBufferInitCapacity capacity) host.build
                ⟨heap, emptyBuffer⟩ = (.ok (.ok ()), t) := by
              rw [attempt, hinit]
            have hbase : t.buf.base = base := by rw [hbuf, ptlsBufferInit]
            have hsize : t.buf.capacity = max capacity 1 := by rw [hbuf, ptlsBufferInit]
            rw [bind_of_ok hattempt]
            rw [← hbase] at hanswer hblocks
            exact .decodes hfound hcapacity hanswer hsize hsound hblocks hrequests

/-- How loading an object can end. Either it failed before memory was asked for. Or it was asked for
once, with the capacity that the first pass has computed, and was not obtained; or the buffer is
still where the allocator has put it, with at most that capacity in use, and it was handed over or
released. -/
inductive LoadsInPlace (host : Host) (label : Bytes) (lines : List Bytes) (heap : Heap) :
    Except Stop (ℤ × Option (ℕ × ℕ)) × Store → Prop
  | unallocated {ret : ℤ} {t : Store} (failed : ret ≠ 0) (blocks : t.heap.blocks = heap.blocks)
      (requests : t.heap.requests = heap.requests) :
      LoadsInPlace host label lines heap (.ok (ret, none), t)
  | refused {object : List Bytes} {capacity : ℕ} {t : Store}
      (begins : findBegin label lines = some object)
      (computed : ptlsGetPemObjectCapacity label (readable host.sizeReads object) 0 = .ok capacity)
      (blocks : t.heap.blocks = heap.blocks)
      (requests : t.heap.requests = heap.requests + 1) :
      LoadsInPlace host label lines heap (.ok (Error.noMemory, none), t)
  | allocated {object : List Bytes} {capacity : ℕ} {ret : ℤ} {vec : Option (ℕ × ℕ)} {t : Store}
      (begins : findBegin label lines = some object)
      (computed : ptlsGetPemObjectCapacity label (readable host.sizeReads object) 0 = .ok capacity)
      (requests : t.heap.requests = heap.requests + 1)
      (base : host.answer heap.requests (max capacity 1) 1 = some t.buf.base)
      (off_le : t.buf.off ≤ capacity)
      (fate : ret = 0 ∧ vec = some (t.buf.base, t.buf.off) ∧
          t.heap.blocks = ⟨t.buf.base, max capacity 1, true⟩ :: heap.blocks ∨
        vec = none ∧ t.heap.blocks = heap.blocks) :
      LoadsInPlace host label lines heap (.ok (ret, vec), t)

/-- For every file, memory is asked for at most once; what is decoded fits into it, so that the
memory that is handed over or released is the one that was obtained, and no call has undefined
behaviour, as a second release would have. -/
theorem loadPemObject_inPlace (host : Host) (label content : Bytes) (heap : Heap) :
    LoadsInPlace host label (fileLines content) heap (loadPemObject host label content heap) := by
  have hprepares := loadPemObject_prepares host label content heap
  generalize loadPemObject host label content heap = outcome at hprepares
  cases hprepares with
  | unallocated hfailed hblocks hrequests => exact .unallocated hfailed hblocks hrequests
  | refused hfound hcapacity hblocks hrequests =>
    exact .refused hfound hcapacity hblocks hrequests
  | @decodes object capacity t hfound hcapacity hanswer hsize hsound hblocks hrequests =>
    have hroom := objectLines_length_le hcapacity host.decodeReads
    have hfits := objectLines_fits hsize hcapacity host.decodeReads
    obtain ⟨ret, vec, u, hrun, hubase, huoff, hurequests, hfate⟩ :=
      decodeInto_finishObject hsound (rfl : host.build.memoryDebug = false)
        (by rw [hblocks, hsize]) hfits
    rw [hrun]
    refine .allocated hfound hcapacity (hurequests.trans hrequests) ?_ (huoff.trans hroom) ?_
    · rw [hubase]
      exact hanswer
    · rwa [hblocks, ← hubase] at hfate

end Picotls.Pem
