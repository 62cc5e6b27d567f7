import Picotls.Log.Strings
import Picotls.Properties.BufferGrowth

/-!
# Strings stay in their fields

Whatever string is written to the log, what is written for it fits the room that was made, and a
reader of JSON that starts behind the opening quote stops at the closing one with the string it was,
whatever follows. No control character is written, so a line ends at its own end.
-/

namespace Picotls.Log

open Foundation Procedure Buffers

/-! ## Reading strings -/

/-- The value of a hexadecimal digit. -/
def hexValue (digit : UInt8) : Option ℕ :=
  if hexDigits.idxOf digit < 16 then some (hexDigits.idxOf digit) else none

/-- The octet that four digits stand for, if it is one of ASCII. -/
def unicodeOctet (a b c d : UInt8) : Option UInt8 := do
  let a ← hexValue a
  let b ← hexValue b
  let c ← hexValue c
  let d ← hexValue d
  let point := ((a * 16 + b) * 16 + c) * 16 + d
  if point < 0x80 then some (UInt8.ofNat point) else none

/-- The octet that a letter behind a backslash stands for. -/
def letterOctet (letter : UInt8) : Option UInt8 :=
  (letterEscapes.find? fun p => p.2 = letter).map Prod.fst

/-- Read a string of JSON from behind its opening quote to its closing quote, and return it with
what follows. Control characters and other escapes are errors. -/
def readString : Bytes → Option (Bytes × Bytes)
  | [] => none
  | octet :: rest =>
    if octet = 0x22 then some ([], rest)
    else if octet < 0x20 then none
    else if octet = 0x5c then
      match rest with
      | [] => none
      | letter :: rest =>
        if letter = 0x75 then
          match rest with
          | a :: b :: c :: d :: rest =>
            (unicodeOctet a b c d).bind fun octet =>
              (readString rest).map (Prod.map (octet :: ·) id)
          | _ => none
        else (letterOctet letter).bind fun octet => (readString rest).map (Prod.map (octet :: ·) id)
    else (readString rest).map (Prod.map (octet :: ·) id)

/-- What is written for a string. -/
def jsonescape (s : Bytes) : Bytes := s.flatMap escapeOctet

/-- An octet has an escape of a letter that stands for it, or one of digits that do, or is none of
those that have a meaning in a string. -/
theorem escapeOctet_cases (octet : UInt8) :
    (∃ p ∈ letterEscapes, escapeOctet octet = [0x5c, p.2] ∧ p.2 ≠ 0x75 ∧
        letterOctet p.2 = some octet) ∨
      (escapeOctet octet = [0x5c, 0x75, 0x30, 0x30, hexDigits.getD (octet >>> 4).toNat 0,
          hexDigits.getD (octet &&& 0xf).toNat 0] ∧
        unicodeOctet 0x30 0x30 (hexDigits.getD (octet >>> 4).toNat 0)
          (hexDigits.getD (octet &&& 0xf).toNat 0) = some octet) ∨
      (escapeOctet octet = [octet] ∧ octet ≠ 0x22 ∧ ¬ octet < 0x20 ∧ octet ≠ 0x5c) := by
  revert octet
  apply forall_octet
  decide +kernel

theorem escapeOctet_length_le (octet : UInt8) : (escapeOctet octet).length ≤ 6 := by
  revert octet
  apply forall_octet
  decide +kernel

theorem le_of_mem_escapeOctet (octet : UInt8) : ∀ x ∈ escapeOctet octet, 0x20 ≤ x := by
  have hall : (escapeOctet octet).all (0x20 ≤ ·) = true := by
    revert octet
    apply forall_octet
    decide +kernel
  simpa using hall

theorem readString_escapeOctet (octet : UInt8) (rest : Bytes) :
    readString (escapeOctet octet ++ rest) =
      (readString rest).map (Prod.map (octet :: ·) id) := by
  rcases escapeOctet_cases octet with ⟨p, -, heq, hne, hletter⟩ | ⟨heq, hdigits⟩ |
    ⟨heq, hquote, hcontrol, hbackslash⟩
  · rw [heq, readString.eq_def]
    simp [hne, hletter]
  · generalize hexDigits.getD (octet >>> 4).toNat 0 = high,
      hexDigits.getD (octet &&& 0xf).toNat 0 = low at heq hdigits
    rw [heq, readString.eq_def]
    simp [hdigits]
  · rw [heq, readString.eq_def]
    simp [hquote, hcontrol, hbackslash]

/-- A string is read back up to its own closing quote, whatever follows. -/
theorem readString_jsonescape (s rest : Bytes) :
    readString (jsonescape s ++ 0x22 :: rest) = some (s, rest) := by
  induction s with
  | nil =>
    rw [readString.eq_def]
    simp [jsonescape]
  | cons octet s ih =>
    rw [jsonescape, List.flatMap_cons, List.append_assoc, readString_escapeOctet]
    rw [jsonescape] at ih
    rw [ih]
    rfl

theorem jsonescape_length_le (s : Bytes) : (jsonescape s).length ≤ s.length * 6 := by
  induction s with
  | nil => exact le_rfl
  | cons octet s ih =>
    have hoctet := escapeOctet_length_le octet
    rw [jsonescape] at ih
    rw [jsonescape, List.flatMap_cons, List.length_append, List.length_cons]
    omega

/-! ## Writing strings -/

variable {st : Store} {octets : Bytes}

/-- The buffer with other contents of memory. -/
def withMemory (st : Store) (m : Memory) : Store := { st with heap := st.heap.store m }

theorem storeOctets_run (build : Build) (st : Store) {p : ℕ} {src : Bytes} (hbase : st.buf.base ≤ p)
    (hroom : p + src.length ≤ st.buf.base + st.buf.capacity) :
    storeOctets p src build st = (.ok (), withMemory st (st.heap.memory.write p src)) := by
  change (stopIf _ _ >>= fun _ => _) build st = _
  rw [stopIf, runIf_of_not (not_not_intro ⟨hbase, hroom⟩)]
  rfl

/-- The escaped string and its terminator are written, if there is room for them. -/
theorem ptlsJsonescape_run (build : Build) (st : Store) {dst : ℕ} (s : Bytes)
    (hbase : st.buf.base ≤ dst)
    (hroom : dst + ((jsonescape s).length + 1) ≤ st.buf.base + st.buf.capacity) :
    ptlsJsonescape dst s build st = (.ok (dst + (jsonescape s).length),
      withMemory st (st.heap.memory.write dst (jsonescape s ++ [0]))) := by
  induction s generalizing dst st with
  | nil => exact bind_of_ok (storeOctets_run build st hbase hroom)
  | cons octet s ih =>
    have hcons : jsonescape (octet :: s) = escapeOctet octet ++ jsonescape s :=
      List.flatMap_cons
    rw [hcons, List.length_append] at hroom
    have hstore := storeOctets_run build st hbase
      (by omega : dst + (escapeOctet octet).length ≤ st.buf.base + st.buf.capacity)
    have hrest := ih (withMemory st (st.heap.memory.write dst (escapeOctet octet)))
      (hbase.trans (Nat.le_add_right _ (escapeOctet octet).length))
      (by dsimp only [withMemory]; omega)
    have hmemory := Memory.write_write_append st.heap.memory dst (escapeOctet octet)
      (jsonescape s ++ [0])
    rw [ptlsJsonescape, bind_of_ok hstore, hrest, hcons, List.length_append, List.append_assoc,
      Nat.add_assoc, ← hmemory]
    rfl

/-- A string in quotes. -/
def quoted (s : Bytes) : Bytes := [0x22] ++ (jsonescape s ++ [0x22])

/-- The closing quote replaces the terminator. -/
theorem write_quoted (m : Memory) (p : ℕ) (s : Bytes) :
    ((m.write p [0x22]).write (p + 1) (jsonescape s ++ [0])).write
      (p + 1 + (jsonescape s).length) [0x22] = m.write p (quoted s) := by
  have hopen := Memory.write_write_append m p [0x22] (jsonescape s ++ [0x22])
  rw [List.length_singleton] at hopen
  have hone : [(0 : UInt8)].length ≤ [(0x22 : UInt8)].length := le_rfl
  rw [← Memory.write_write_append, Memory.write_write_self _ _ hone, Memory.write_write_append,
    hopen, quoted]

/-- A string is appended in quotes, if there is room for the worst case. -/
theorem pushQuoted_run (build : Build) (h : IsSound octets st) {s : Bytes}
    (hroom : st.buf.off + (s.length * 6 + 2) ≤ st.buf.capacity) :
    ∃ t, pushQuoted s build st = (.ok (), t) ∧ IsSound (octets ++ quoted s) t := by
  have hlength := jsonescape_length_le s
  have hquoted : (quoted s).length = (jsonescape s).length + 2 := by
    simp only [quoted, List.length_append, List.length_singleton]
    omega
  have hend : st.buf.base + st.buf.off + 1 + (jsonescape s).length + 1 - st.buf.base =
      st.buf.off + (quoted s).length := by omega
  have hfirst := storeOctets_run build st (Nat.le_add_right st.buf.base st.buf.off)
    (by rw [List.length_singleton]; omega :
      st.buf.base + st.buf.off + [(0x22 : UInt8)].length ≤ st.buf.base + st.buf.capacity)
  have hescape := ptlsJsonescape_run build
    (withMemory st (st.heap.memory.write (st.buf.base + st.buf.off) [0x22])) s
    (by omega : st.buf.base ≤ st.buf.base + st.buf.off + 1)
    (by dsimp only [withMemory]; omega)
  have hlast (m : Memory) : storeOctets (st.buf.base + st.buf.off + 1 + (jsonescape s).length)
      [0x22] build (withMemory st m) = (.ok (), withMemory st
        (m.write (st.buf.base + st.buf.off + 1 + (jsonescape s).length) [0x22])) :=
    storeOctets_run build (withMemory st m) (by dsimp only [withMemory]; omega)
      (by dsimp only [withMemory]; rw [List.length_singleton]; omega)
  refine ⟨_, (bind_of_ok hfirst).trans ((bind_of_ok hescape).trans (bind_of_ok (hlast _))), ?_⟩
  rw [hend]
  dsimp only [withMemory, Heap.store_memory]
  rw [write_quoted]
  exact h.append (by omega)

/-- A buffer is disposed of. -/
theorem ptlsBufferDispose_run (build : Build) (h : IsSound octets st) :
    ∃ t, ptlsBufferDispose build st = (.ok (), t) ∧ t.buf.base = 0 := by
  obtain ⟨owned, hblock, howned⟩ := h.block
  change ∃ t, (runIf st.buf.isAllocated (free st.buf.base) >>= fun _ => _) build
    (withMemory st (st.heap.memory.write st.buf.base (zeros st.buf.off))) = _ ∧ _
  by_cases hallocated : st.buf.isAllocated
  · obtain ⟨heap, hfree, -⟩ := Heap.free_of_mem
      (h := st.heap.store (st.heap.memory.write st.buf.base (zeros st.buf.off)))
      (howned hallocated ▸ hblock)
    have hrun : free st.buf.base build
        (withMemory st (st.heap.memory.write st.buf.base (zeros st.buf.off))) =
          (.ok (), { st with heap }) := by
      rw [free, if_neg h.base_ne, withMemory, hfree]
    rw [runIf_of hallocated, bind_of_ok hrun]
    exact ⟨_, rfl, rfl⟩
  · rw [runIf_of_not hallocated]
    exact ⟨_, rfl, rfl⟩

/-- The allocator refuses the room that a line asks for. -/
def RoomRefused (build : Build) (st : Store) (octets : Bytes) (size : ℕ) : Prop :=
  ∃ u, ptlsBufferReserve size 1 build st = (.error (.code Error.noMemory), u) ∧
    Denied build (octets.length + size) u

/-- Room is made behind some octets, or the line is given up. -/
theorem expandLogbufOrInvalidate_run (build : Build) (h : IsSound octets st)
    (htx : st.buf.tx = true) {pre : Bytes} {capacity : ℕ}
    (hfits : pre.length + capacity ≤ sizeMax) :
    (∃ t, expandLogbufOrInvalidate pre capacity build st = (.ok true, t) ∧
      IsSound (octets ++ pre) t ∧ t.buf.off + capacity ≤ t.buf.capacity) ∨
    RoomRefused build st octets (pre.length + capacity) ∧
      ∃ t, expandLogbufOrInvalidate pre capacity build st = (.ok false, t) ∧ t.buf.base = 0 := by
  have hdirection : st.buf.direction = 1 := by rw [PtlsBuffer.direction, if_pos htx]
  have hsize : addSize pre.length capacity = .ok (pre.length + capacity) := if_pos hfits
  have hreserved : Reserved build octets st (pre.length + capacity) 0 1
      (ptlsBufferReserve (pre.length + capacity) 1 build st) :=
    ptlsBufferReserveAligned_reserved h (shiftsFit_zero _ _ _ _)
  have hrun : expandLogbufOrInvalidate pre capacity build st =
      useRoom pre (ptlsBufferReserve (pre.length + capacity) 1 build st).1 build
        (ptlsBufferReserve (pre.length + capacity) 1 build st).2 := by
    change (if st.buf.base = 0 then _ else _ : Buffers.Proc Bool) build st = _
    rw [if_neg h.base_ne, liftM_bind_of_ok hsize, attempt_bind]
  rw [hrun]
  unfold RoomRefused
  generalize ptlsBufferReserve (pre.length + capacity) 1 build st = outcome at hreserved
  cases hreserved with
  | @refused c t hcode hbuf hsound hdenied =>
    obtain ⟨u, hdispose, hbase⟩ := ptlsBufferDispose_run build hsound
    obtain rfl | ⟨-, hne⟩ := hcode
    · exact .inr ⟨⟨t, rfl, h.off_eq ▸ hdenied hdirection rfl⟩, u, bind_of_ok hdispose, hbase⟩
    · exact absurd hdirection hne
  | stopped _ hne => exact absurd hdirection hne
  | @made t hsound hoff _ hroom =>
    have hstore := storeOctets_run build t (Nat.le_add_right t.buf.base t.buf.off)
      (by omega : t.buf.base + t.buf.off + pre.length ≤ t.buf.base + t.buf.capacity)
    refine .inl ⟨_, bind_of_ok hstore, hsound.append (by omega), ?_⟩
    dsimp only [withMemory]
    omega

/-- A string of the application is appended in quotes with what leads up to it, in the room that was
made for it, or the line is given up after the allocator has refused the room. What stands between
the quotes has at most six octets for each octet of the string and no control character, and is read
back as the string up to the closing quote, whatever follows. -/
theorem log_string_stays_in_field (build : Build) (h : IsSound octets st) (htx : st.buf.tx = true)
    {pre s : Bytes} (hfits : pre.length + (s.length * 6 + 2) ≤ sizeMax) :
    ((∃ t, ptlsLogDoPushElementUnsafestr pre s build st = (.ok (), t) ∧
        IsSound (octets ++ pre ++ ([0x22] ++ (jsonescape s ++ [0x22]))) t) ∨
      RoomRefused build st octets (pre.length + (s.length * 6 + 2)) ∧
        ∃ t, ptlsLogDoPushElementUnsafestr pre s build st = (.ok (), t) ∧ t.buf.base = 0) ∧
    (jsonescape s).length ≤ 6 * s.length ∧ (∀ octet ∈ jsonescape s, 0x20 ≤ octet) ∧
      ∀ rest, readString (jsonescape s ++ 0x22 :: rest) = some (s, rest) := by
  have hmul : mulSize s.length 6 = .ok (s.length * 6) := if_pos (by omega)
  have hadd : addSize (s.length * 6) 2 = .ok (s.length * 6 + 2) := if_pos (by omega)
  refine ⟨?_, ?_, ?_, readString_jsonescape s⟩
  · rw [ptlsLogDoPushElementUnsafestr, liftM_bind_of_ok hmul, liftM_bind_of_ok hadd]
    rcases expandLogbufOrInvalidate_run build h htx hfits with
      ⟨t, hrun, ht, hroom⟩ | ⟨hrefused, t, hrun, hbase⟩
    · obtain ⟨u, hpush, hu⟩ := pushQuoted_run build ht hroom
      exact .inl ⟨u, (bind_of_ok hrun).trans hpush, hu⟩
    · exact .inr ⟨hrefused, t, bind_of_ok hrun, hbase⟩
  · rw [Nat.mul_comm]
    exact jsonescape_length_le s
  · intro octet hoctet
    obtain ⟨source, -, hmem⟩ := List.mem_flatMap.mp hoctet
    exact le_of_mem_escapeOctet source octet hmem

open Sample

/-- A newline and a quote behind a key, in a buffer that has to grow for the worst case. -/
theorem log_string_newline :
    IsSound [] smallStore ∧ smallStore.buf.tx = true ∧
    ∃ t, ptlsLogDoPushElementUnsafestr [0x22, 0x6b, 0x22, 0x3a] [0x0a, 0x22] grantingBuild
        smallStore = (.ok (), t) ∧
      IsSound ([0x22, 0x6b, 0x22, 0x3a] ++ [0x22, 0x5c, 0x6e, 0x5c, 0x22, 0x22]) t := by
  refine ⟨smallStore_isSound, rfl, ?_⟩
  have hbase : (ptlsLogDoPushElementUnsafestr [0x22, 0x6b, 0x22, 0x3a] [0x0a, 0x22]
      grantingBuild smallStore).2.buf.base = 65536 := by
    decide +kernel
  have hfits : ([0x22, 0x6b, 0x22, 0x3a] : Bytes).length + (([0x0a, 0x22] : Bytes).length * 6 + 2)
      ≤ sizeMax := by
    decide
  rcases (log_string_stays_in_field grantingBuild smallStore_isSound rfl hfits).1 with
    happended | ⟨-, t, hrun, hzero⟩
  · exact happended
  · rw [hrun, hzero] at hbase
    cases hbase

end Picotls.Log
