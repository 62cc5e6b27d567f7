import Picotls.Buffers.Blocks
import Picotls.Properties.BufferGrowth

/-!
# Nested blocks are read back

Whatever tree of blocks is written to a buffer, behind whatever the buffer holds, a reader that
knows the forms of the lengths gets the tree back and stops where the writer stopped, unless a body
is too long for its length. Moving a body, with the lengths inside of it, to make room for a longer
length in the form of QUIC does not change it.
-/

namespace Picotls.Buffers

open Foundation Procedure

/-! ## Numbers in the form of QUIC -/

/-- The two bits in front of a number, which tell its length. -/
def quicClass (v : ℕ) : ℕ :=
  if 63 < v then if 16383 < v then if 1073741823 < v then 3 else 2 else 1 else 0

/-- A number in the form of QUIC: the six bits next to the class, and the octets behind them. -/
def quicOctets (v : ℕ) : Bytes :=
  UInt8.ofNat (64 * quicClass v + v / 256 ^ (2 ^ quicClass v - 1)) ::
    toBE (2 ^ quicClass v - 1) v

@[simp] theorem quicOctets_length (v : ℕ) : (quicOctets v).length = 2 ^ quicClass v := by
  have := Nat.two_pow_pos (quicClass v)
  rw [quicOctets, List.length_cons, toBE_length]
  omega

theorem quicClass_lt (v : ℕ) : quicClass v < 4 := by
  unfold quicClass
  split_ifs <;> decide

/-- The bits of a number above its last octets fit behind the class. -/
theorem quicClass_div_lt {v : ℕ} (h : v < 2 ^ 62) : v / 256 ^ (2 ^ quicClass v - 1) < 64 := by
  refine Nat.div_lt_of_lt_mul ?_
  unfold quicClass
  split_ifs
  · exact (by omega : v < 256 ^ 7 * 64)
  · exact (by omega : v < 256 ^ 3 * 64)
  · exact (by omega : v < 256 ^ 1 * 64)
  · exact (by omega : v < 256 ^ 0 * 64)

theorem shiftRight_octets (v count : ℕ) : v >>> (8 * count) = v / 256 ^ count := by
  rw [Nat.shiftRight_eq_div_pow, Nat.pow_mul]

/-- The octets of a number as it is written. -/
theorem shiftedOctets_eq (v count : ℕ) :
    shiftedOctets v count ++ [UInt8.ofNat v] = toBE (count + 1) v := by
  induction count with
  | zero => simp [shiftedOctets, toBE]
  | succ count ih => rw [shiftedOctets, List.cons_append, ih, shiftRight_octets, ← toBE]

/-- What the first octet of a number tells. -/
theorem first_octet {k x : ℕ} (hk : k < 4) (hx : x < 64) :
    UInt8.ofNat (64 * k) ||| UInt8.ofNat x = UInt8.ofNat (64 * k + x) ∧
    (UInt8.ofNat (64 * k + x) ≤ 0x3f ↔ k = 0) ∧
    (UInt8.ofNat (64 * k + x) >>> 6).toNat = k ∧
    (UInt8.ofNat (64 * k + x) &&& 0x3f).toNat = x := by
  have hall : ∀ k < 4, ∀ x < 64,
      UInt8.ofNat (64 * k) ||| UInt8.ofNat x = UInt8.ofNat (64 * k + x) ∧
      (UInt8.ofNat (64 * k + x) ≤ 0x3f ↔ k = 0) ∧
      (UInt8.ofNat (64 * k + x) >>> 6).toNat = k ∧
      (UInt8.ofNat (64 * k + x) &&& 0x3f).toNat = x := by
    decide +kernel
  exact hall k hk x hx

/-- What is written for a number. -/
theorem ptlsEncodeQuicint_run {v : ℕ} (h : v < 2 ^ 62) (build : Build) (s : Store) :
    ptlsEncodeQuicint v build s = (.ok (quicOctets v), s) := by
  have hfirst := (first_octet (quicClass_lt v) (quicClass_div_lt h)).1
  rw [ptlsEncodeQuicint, quicOctets, ← hfirst]
  unfold quicClass
  split_ifs with hone htwo hfour
  · have hassert : checkAssertion (v ≤ 4611686018427387903) build s = (.ok (), s) :=
      checkAssertion_run (.inr (by omega))
    rw [bind_of_ok hassert, shiftedOctets_eq, shiftRight_octets v 7]
    rfl
  · rw [shiftedOctets_eq, shiftRight_octets v 3]
    rfl
  · rw [Nat.mod_eq_of_lt (by omega), shiftRight_octets v 1]
    simp [toBE]
  · simp [toBE]

/-- Octets that are shifted in extend a number. -/
theorem shiftOctets_append (v off : ℕ) (octets rest : Bytes) :
    shiftOctets v octets.length ⟨off, octets ++ rest⟩ =
      (v * 256 ^ octets.length + ofBE octets, ⟨off + octets.length, rest⟩) := by
  induction octets generalizing v off with
  | nil => simp [shiftOctets, ofBE]
  | cons octet octets ih =>
    have hshift : v <<< 8 ||| octet.toNat = v * 256 + octet.toNat := by
      rw [← Nat.shiftLeft_add_eq_or_of_lt octet.toNat_lt, Nat.shiftLeft_eq]
    have hsum : (v * 256 + octet.toNat) * 256 ^ octets.length + ofBE octets =
        v * 256 ^ (octets.length + 1) + (octet.toNat * 256 ^ octets.length + ofBE octets) := by
      rw [Nat.add_mul, pow_succ', Nat.mul_assoc, Nat.add_assoc]
    rw [List.length_cons, List.cons_append, shiftOctets]
    dsimp only
    rw [hshift, ih, hsum, ofBE, Nat.add_assoc off, Nat.add_comm 1]

/-- A number in the form of QUIC is read back. -/
theorem ptlsDecodeQuicint_quicOctets {v : ℕ} (h : v < 2 ^ 62) (off : ℕ) (rest : Bytes) :
    ptlsDecodeQuicint ⟨off, quicOctets v ++ rest⟩ =
      (v, ⟨off + (quicOctets v).length, rest⟩) := by
  obtain ⟨-, hsmall, hclass, hbits⟩ := first_octet (quicClass_lt v) (quicClass_div_lt h)
  have hloop := shiftOctets_append (v / 256 ^ (2 ^ quicClass v - 1)) (off + 1)
    (toBE (2 ^ quicClass v - 1) v) rest
  rw [toBE_length, ofBE_toBE_mod, Nat.div_add_mod' v] at hloop
  have hpos := Nat.two_pow_pos (quicClass v)
  have hoff : off + 1 + (2 ^ quicClass v - 1) = off + 2 ^ quicClass v := by omega
  rw [quicOctets_length, quicOctets, List.cons_append, ptlsDecodeQuicint]
  dsimp only
  by_cases hzero : quicClass v = 0
  · rw [if_pos (hsmall.mpr hzero)]
    have hlt := quicClass_div_lt h
    rw [hzero] at hlt ⊢
    have hv : (UInt8.ofNat v).toNat = v := by
      rw [UInt8.toNat_ofNat', Nat.mod_eq_of_lt]
      simp at hlt
      omega
    simp [toBE, hv]
  · rw [if_neg (mt hsmall.mp hzero), hclass, hbits, Nat.one_shiftLeft, if_neg (by simp),
      hloop, hoff]

/-! ## Lengths -/

/-- The octets of the length of a body. -/
def Width.header : Width → ℕ → Bytes
  | .quic, n => quicOctets n
  | width, n => toBE width.capacity n

/-- The octets that are left for a length before the body is written. -/
def Width.room : Width → ℕ
  | .quic => 1
  | width => width.capacity

theorem Width.room_le (width : Width) (n : ℕ) : width.room ≤ (width.header n).length := by
  cases width with
  | one => simp [room, header]
  | two => simp [room, header]
  | three => simp [room, header]
  | quic => simp [room, header, quicOctets]

/-- What cannot be the length of a body any more. -/
def Width.limit : Width → ℕ
  | .quic => 2 ^ 62
  | width => 256 ^ width.capacity

/-- The length of a body is read back. -/
theorem decodeBlockSize_header (width : Width) {n : ℕ} (h : n < width.limit) (off : ℕ)
    (rest : Bytes) :
    decodeBlockSize width.capacity ⟨off, width.header n ++ rest⟩ =
      .ok (n, ⟨off + (width.header n).length, rest⟩) := by
  have hfixed (capacity : ℕ) (hcapacity : capacity ≠ quicCapacity) (hn : n < 256 ^ capacity) :
      decodeBlockSize capacity ⟨off, toBE capacity n ++ rest⟩ =
        .ok (n, ⟨off + (toBE capacity n).length, rest⟩) := by
    have hloop := shiftOctets_append 0 off (toBE capacity n) rest
    rw [Nat.zero_mul, Nat.zero_add, ofBE_toBE hn, toBE_length] at hloop
    rw [decodeBlockSize, if_neg hcapacity, if_neg (by simp), hloop, toBE_length]
  cases width with
  | one => exact hfixed 1 (by decide) h
  | two => exact hfixed 2 (by decide) h
  | three => exact hfixed 3 (by decide) h
  | quic =>
    have hn : n < 2 ^ 62 := h
    have hne : n ≠ uint64Max := (hn.trans (by decide)).ne
    change decodeBlockSize quicCapacity ⟨off, quicOctets n ++ rest⟩ = _
    rw [decodeBlockSize, if_pos rfl, ptlsDecodeQuicint_quicOctets hn]
    exact if_neg hne

/-- With a length of fixed width this is the reader of handshake messages. -/
theorem ptlsDecodeOpenBlock_eq {α : Type} {capacity : ℕ} (hcapacity : capacity ≠ quicCapacity)
    (block : Src → Except Fault (α × Src)) (src : Src) :
    ptlsDecodeOpenBlock capacity block src = (do
      let (body, rest) ← src.decodeOpenBlock capacity
      let (value, body) ← block body
      body.assertBlockClose
      return (value, rest)) := by
  rw [ptlsDecodeOpenBlock, decodeBlockSize, if_neg hcapacity, Src.decodeOpenBlock]
  by_cases hshort : src.data.length < capacity
  · rw [if_pos hshort, if_pos hshort]
    rfl
  · have htake : (src.data.take capacity).length = capacity :=
      List.length_take_of_le (not_lt.mp hshort)
    have hloop := shiftOctets_append 0 src.off (src.data.take capacity) (src.data.drop capacity)
    rw [htake, List.take_append_drop, Nat.zero_mul, Nat.zero_add] at hloop
    rw [if_neg hshort, if_neg hshort, hloop]
    dsimp only [Bind.bind, Except.bind]
    split_ifs <;> rfl

/-- A block is read back if its body is. -/
theorem ptlsDecodeOpenBlock_header {α : Type} {block : Src → Except Fault (α × Src)} {value : α}
    (width : Width) {body : Bytes} (h : body.length < width.limit) (off : ℕ) (rest : Bytes)
    (hbody : ∀ off, block ⟨off, body⟩ = .ok (value, ⟨off + body.length, []⟩)) :
    ptlsDecodeOpenBlock width.capacity block
      ⟨off, width.header body.length ++ body ++ rest⟩ =
      .ok (value, ⟨off + (width.header body.length ++ body).length, rest⟩) := by
  rw [ptlsDecodeOpenBlock, List.append_assoc, decodeBlockSize_header width h]
  dsimp only [Bind.bind, Except.bind]
  rw [if_neg (by simp), List.take_left, List.drop_left, hbody]
  simp [Src.assertBlockClose, Pure.pure, Except.pure, Nat.add_assoc]

/-! ## Trees -/

mutual

/-- The octets of a piece. -/
def Piece.encode : Piece → Bytes
  | .field octets => octets
  | .block width body => width.header (encodeAll body).length ++ encodeAll body

/-- The octets of some pieces. -/
def encodeAll : List Piece → Bytes
  | [] => []
  | piece :: pieces => piece.encode ++ encodeAll pieces

end

mutual

/-- All bodies in a piece fit their lengths. -/
def Piece.Fits : Piece → Prop
  | .field _ => True
  | .block width body => AllFit body ∧ (encodeAll body).length < width.limit

/-- All bodies in some pieces fit their lengths. -/
def AllFit : List Piece → Prop
  | [] => True
  | piece :: pieces => piece.Fits ∧ AllFit pieces

end

mutual

/-- A piece is read back. -/
theorem readPiece_encode : ∀ {piece : Piece}, piece.Fits → ∀ (off : ℕ) (rest : Bytes),
    readPiece piece.shape ⟨off, piece.encode ++ rest⟩ =
      .ok (piece, ⟨off + piece.encode.length, rest⟩)
  | .field octets, _, off, rest => by
    rw [Piece.shape, Piece.encode, readPiece, Src.decodeBytes, if_neg (by simp)]
    simp [Bind.bind, Except.bind, Pure.pure, Except.pure]
  | .block width body, h, off, rest => by
    rw [Piece.Fits] at h
    have hbody (off : ℕ) : readPieces (shapes body) ⟨off, encodeAll body⟩ =
        .ok (body, ⟨off + (encodeAll body).length, []⟩) := by
      have := readPieces_encodeAll h.1 off []
      rwa [List.append_nil] at this
    rw [Piece.shape, Piece.encode, readPiece,
      ptlsDecodeOpenBlock_header width h.2 off rest hbody]
    rfl

/-- Pieces are read back. -/
theorem readPieces_encodeAll : ∀ {pieces : List Piece}, AllFit pieces → ∀ (off : ℕ) (rest : Bytes),
    readPieces (shapes pieces) ⟨off, encodeAll pieces ++ rest⟩ =
      .ok (pieces, ⟨off + (encodeAll pieces).length, rest⟩)
  | [], _, off, rest => rfl
  | piece :: pieces, h, off, rest => by
    rw [AllFit] at h
    rw [shapes, encodeAll, readPieces, List.append_assoc, readPiece_encode h.1]
    dsimp only [Bind.bind, Except.bind]
    rw [readPieces_encodeAll h.2, List.length_append, Nat.add_assoc]
    rfl

end

/-! ## Writing -/

variable {build : Build} {s t : Store} {octets out body : Bytes}

/-- What writing comes to behind what was written before: the encoding is there and the bodies fit,
or a body does not fit and that is reported, or there is no memory. -/
inductive Written (build : Build) (s : Store) (octets out encoding : Bytes) (fits : Prop) :
    Except Stop Unit × Store → Prop
  | written {u : Store} (holds : Holds build s octets (out ++ encoding) u)
      (addressable : IsAddressable build u) (fit : fits) :
      Written build s octets out encoding fits (.ok (), u)
  | overflow {u : Store} (exceeds : ¬ fits) :
      Written build s octets out encoding fits (.error (.code Error.blockOverflow), u)
  | refused {u : Store} (refused : Refused build s octets (out ++ encoding) u) :
      Written build s octets out encoding fits (.error (.code Error.noMemory), u)

/-- Octets are written. -/
theorem ptlsBufferDoPushv_written (h : Holds build s octets out t) (haddr : IsAddressable build t)
    (src : Bytes) : Written build s octets out src True (ptlsBufferDoPushv src build t) := by
  rcases h.push src with ⟨u, hrun, hholds⟩ | ⟨u, hrun, hrefused⟩
  · have hu := ptlsBufferDoPushv_isAddressable h.sound haddr hrun
    rw [hrun]
    exact .written hholds hu trivial
  · rw [hrun]
    exact .refused hrefused

/-- The parts of what a buffer holds stand one behind the other. -/
theorem IsSound.read_parts {first second third : Bytes}
    (h : IsSound (first ++ (second ++ third)) s) :
    s.heap.memory.read s.buf.base first.length = first ∧
      s.heap.memory.read (s.buf.base + first.length + second.length) third.length = third := by
  have hcontent := h.content
  rw [h.off_eq, List.length_append, List.length_append, Memory.read_add, Memory.read_add]
    at hcontent
  obtain ⟨hfirst, hrest⟩ := List.append_inj hcontent (by simp)
  exact ⟨hfirst, (List.append_inj hrest (by simp)).2⟩

/-- The octets of a length are stored one by one. -/
theorem writeBodySize_run (build : Build) (s : Store) {bodyStart capacity : ℕ} (bodySize : ℕ)
    (h : capacity ≤ bodyStart) :
    writeBodySize bodyStart bodySize capacity build s =
      (.ok (), { s with heap := s.heap.store (s.heap.memory.write
        (s.buf.base + (bodyStart - capacity)) (toBE capacity bodySize)) }) := by
  induction capacity generalizing s with
  | zero =>
    rw [toBE, Memory.write_nil]
    rfl
  | succ capacity ih =>
    have hnext : s.buf.base + (bodyStart - capacity) =
        s.buf.base + (bodyStart - (capacity + 1)) +
          [UInt8.ofNat (bodySize / 256 ^ capacity)].length := by
      rw [List.length_singleton]
      omega
    let first : Memory := s.heap.memory.write (s.buf.base + (bodyStart - (capacity + 1)))
      [UInt8.ofNat (bodySize / 256 ^ capacity)]
    have hfirst : modifyMemory (fun m => m.write (s.buf.base + (bodyStart - (capacity + 1)))
        [UInt8.ofNat (bodySize >>> (8 * capacity))]) build s =
        (.ok (), { s with heap := s.heap.store first }) := by
      rw [shiftRight_octets]
      rfl
    have hstep : writeBodySize bodyStart bodySize (capacity + 1) build s =
        (modifyMemory (fun m => m.write (s.buf.base + (bodyStart - (capacity + 1)))
          [UInt8.ofNat (bodySize >>> (8 * capacity))]) >>= fun _ =>
            writeBodySize bodyStart bodySize capacity) build s := rfl
    rw [hstep, bind_of_ok hfirst, ih _ (by omega)]
    dsimp only [Heap.store, first]
    rw [hnext, Memory.write_write_append]
    rfl

/-- A header replaces the octets in front of the body at the end of a buffer that has room. -/
theorem Holds.replaceHeader {room header : Bytes} {u : Store} {memory : Memory}
    (h : Holds build s octets (out ++ (room ++ body)) t) (hle : room.length ≤ header.length)
    (hsound : IsSound (octets ++ (out ++ (room ++ body))) u) (hdirection : u.buf.tx = t.buf.tx)
    (hplace : build.memoryDebug = false →
      octets.length + (out ++ (header ++ body)).length ≤ s.buf.capacity → u = t)
    (hroom : octets.length + (out ++ (header ++ body)).length ≤ u.buf.capacity)
    (hfront : memory.read u.buf.base (octets ++ out).length =
      u.heap.memory.read u.buf.base (octets ++ out).length)
    (hbody : memory.read (u.buf.base + (octets ++ out).length + header.length) body.length =
      u.heap.memory.read (u.buf.base + (octets ++ out).length + room.length) body.length) :
    Holds build s octets (out ++ (header ++ body))
      { heap := u.heap.store (memory.write (u.buf.base + (octets ++ out).length) header)
        buf := { u.buf with off := octets.length + (out ++ (header ++ body)).length } } := by
  refine h.rewrite ?_ hsound hdirection hplace hroom ?_
  · simp only [List.length_append]
    omega
  · rw [← List.append_assoc] at hsound
    obtain ⟨hfirst, hthird⟩ := hsound.read_parts
    have hlength : octets.length + (out ++ (header ++ body)).length =
        (octets ++ out).length + (header.length + body.length) := by
      simp only [List.length_append, Nat.add_assoc]
    rw [hlength, Memory.read_write_middle, hfront, hbody, hfirst, hthird, List.append_assoc]

/-- A length of fixed width is put in front of a body. -/
theorem closeBlock_fixed {capacity : ℕ} (hcapacity : capacity < 8)
    (h : Holds build s octets (out ++ (zeros capacity ++ body)) t) (haddr : IsAddressable build t) :
    Written build s octets out (toBE capacity body.length ++ body) (body.length < 256 ^ capacity)
      (closeBlock capacity ((octets ++ out).length + capacity) body.length build t) := by
  have hpow : 2 ^ (capacity * 8) = 256 ^ capacity := by rw [Nat.mul_comm, Nat.pow_mul]
  have hquic : capacity ≠ quicCapacity := (hcapacity.trans (by decide)).ne
  rw [closeBlock, if_pos hquic, hpow]
  by_cases hlong : 256 ^ capacity ≤ body.length
  · rw [if_pos ⟨hcapacity, hlong⟩]
    exact .overflow (not_lt.mpr hlong)
  · have hoff :
      t.buf.off = octets.length + (out ++ (toBE capacity body.length ++ body)).length := by
      rw [h.sound.off_eq]
      simp
    have hbody : t.heap.memory.read (t.buf.base + (octets ++ out).length +
        (toBE capacity body.length).length) body.length = t.heap.memory.read (t.buf.base +
        (octets ++ out).length + (zeros capacity).length) body.length := by
      rw [toBE_length, zeros_length]
    have hholds := h.replaceHeader (by simp) h.sound rfl (fun _ _ => rfl)
      (hoff ▸ h.sound.off_le) rfl hbody
    rw [← hoff] at hholds
    rw [if_neg fun hc => hlong hc.2, writeBodySize_run build t body.length (Nat.le_add_left _ _),
      Nat.add_sub_cancel]
    exact .written hholds ⟨haddr.capacity_lt, haddr.answer_lt⟩ (not_le.mp hlong)

/-- A body is moved. -/
theorem makeSizeRoom_run {u : Store} {bodySize sizelen : ℕ}
    (hreserve : ptlsBufferReserve (sizelen - 1) t.buf.direction build t = (.ok (), u))
    (hfits : u.buf.off + (sizelen - 1) ≤ sizeMax) :
    makeSizeRoom bodySize sizelen build t =
      (.ok (), { heap := u.heap.store (u.heap.memory.copy
                   (u.buf.base + (u.buf.off - bodySize - 1) + sizelen)
                   (u.buf.base + (u.buf.off - bodySize)) bodySize)
                 buf := { u.buf with off := u.buf.off + (sizelen - 1) } }) := by
  have hadd : addSize u.buf.off (sizelen - 1) = .ok (u.buf.off + (sizelen - 1)) := if_pos hfits
  change (ptlsBufferReserve (sizelen - 1) t.buf.direction >>= fun _ => _) build t = _
  rw [bind_of_ok hreserve]
  change ((addSize u.buf.off (sizelen - 1) : Proc ℕ) >>= fun off => setBuf { u.buf with off })
    build { u with heap := u.heap.store _ } = _
  rw [liftM_bind_of_ok hadd]
  rfl

/-- A header for which there is one octet is put in front of a body, which is moved if the header is
longer. -/
theorem storeHeader_written {header : Bytes} {fits : Prop} (hpos : 1 ≤ header.length)
    (hfits : fits) (h : Holds build s octets (out ++ (zeros 1 ++ body)) t)
    (haddr : IsAddressable build t) :
    Written build s octets out (header ++ body) fits
      ((runIf (header.length ≠ 1) (makeSizeRoom body.length header.length) >>= fun _ => do
        let buf ← getBuf
        modifyMemory fun m => m.write (buf.base + (buf.off - body.length - header.length)) header)
          build t) := by
  have hoff : t.buf.off = (octets ++ out).length + 1 + body.length := by
    rw [h.sound.off_eq]
    simp [Nat.add_assoc]
  have hlength : octets.length + (out ++ (header ++ body)).length =
      (octets ++ out).length + header.length + body.length := by
    simp only [List.length_append, Nat.add_assoc]
  have hbefore : octets.length + (out ++ (zeros 1 ++ body)).length = t.buf.off := by
    rw [h.sound.off_eq]
    exact List.length_append.symm
  by_cases hone : header.length ≠ 1
  · rw [runIf_of hone]
    rcases h.reserve (header.length - 1) with
      ⟨u, hreserve, hsound, hdirection, hroom, hplace⟩ | ⟨u, hreserve, hrefused⟩
    · have huoff : u.buf.off = (octets ++ out).length + 1 + body.length := by
        rw [hsound.off_eq, ← hoff, h.sound.off_eq]
      let moved : Memory := u.heap.memory.copy
        (u.buf.base + (octets ++ out).length + header.length)
        (u.buf.base + (octets ++ out).length + 1) body.length
      have hfront : moved.read u.buf.base (octets ++ out).length =
          u.heap.memory.read u.buf.base (octets ++ out).length :=
        Memory.read_write_of_apart (.inl (Nat.le_add_right _ _))
      have hbody : moved.read (u.buf.base + (octets ++ out).length + header.length) body.length =
          u.heap.memory.read (u.buf.base + (octets ++ out).length + (zeros 1).length)
            body.length :=
        Memory.read_copy _ _ _ _
      have hholds := h.replaceHeader hpos hsound hdirection
        (fun hdebug hle => hplace hdebug (by omega)) (by omega) hfront hbody
      have haddru := ptlsBufferReserve_isAddressable h.sound haddr hreserve
      have hrun : makeSizeRoom body.length header.length build t = (.ok (), Store.mk
          (u.heap.store moved) { u.buf with off := u.buf.off + (header.length - 1) }) := by
        have hsrc : u.buf.off - body.length = (octets ++ out).length + 1 := by omega
        rw [makeSizeRoom_run hreserve (hroom.trans hsound.capacity_le), hsrc, Nat.add_sub_cancel,
          ← Nat.add_assoc]
      have hnew : u.buf.off + (header.length - 1) =
          octets.length + (out ++ (header ++ body)).length := by omega
      have hstart : octets.length + (out ++ (header ++ body)).length - body.length -
          header.length = (octets ++ out).length := by omega
      rw [hnew] at hrun
      rw [bind_of_ok hrun]
      change Written _ _ _ _ _ _ (modifyMemory (fun m => m.write (u.buf.base +
        (octets.length + (out ++ (header ++ body)).length - body.length - header.length)) header)
          build _)
      rw [hstart]
      exact .written hholds ⟨haddru.capacity_lt, haddru.answer_lt⟩ hfits
    · have hrun : makeSizeRoom body.length header.length build t =
          (.error (.code Error.noMemory), u) := by
        change (ptlsBufferReserve (header.length - 1) t.buf.direction >>= fun _ => _) build t = _
        rw [bind_of_error hreserve]
      rw [bind_of_error hrun]
      refine .refused (hrefused _ ?_)
      simp only [List.length_append, zeros_length]
      omega
  · rw [runIf_of_not hone]
    rw [ne_eq, not_not] at hone
    have hbody : t.heap.memory.read (t.buf.base + (octets ++ out).length + header.length)
        body.length = t.heap.memory.read (t.buf.base + (octets ++ out).length + (zeros 1).length)
          body.length := by
      rw [hone, zeros_length]
    have hholds := h.replaceHeader hpos h.sound rfl (fun _ _ => rfl)
      (by have := h.sound.off_le; omega) rfl hbody
    have hnew : octets.length + (out ++ (header ++ body)).length = t.buf.off := by omega
    have hstart : t.buf.off - body.length - header.length = (octets ++ out).length := by omega
    rw [hnew] at hholds
    change Written _ _ _ _ _ _ (modifyMemory (fun m => m.write (t.buf.base +
      (t.buf.off - body.length - header.length)) header) build t)
    rw [hstart]
    exact .written hholds ⟨haddr.capacity_lt, haddr.answer_lt⟩ hfits

/-- A length in the form of QUIC is put in front of a body. -/
theorem ptlsBufferAdjustQuicBlocksize_written
    (h : Holds build s octets (out ++ (zeros 1 ++ body)) t) (haddr : IsAddressable build t) :
    Written build s octets out (quicOctets body.length ++ body) (body.length < 2 ^ 62)
      (ptlsBufferAdjustQuicBlocksize body.length build t) := by
  have hfits : body.length < 2 ^ 62 := by
    have hoff := h.sound.off_eq
    have := h.sound.off_le
    have := haddr.capacity_lt
    simp only [List.length_append] at hoff
    omega
  rw [ptlsBufferAdjustQuicBlocksize, bind_of_ok (ptlsEncodeQuicint_run hfits build t)]
  exact storeHeader_written (by simp [quicOctets]) hfits h haddr

/-- The length of a body is put in front of it. -/
theorem closeBlock_written (width : Width)
    (h : Holds build s octets (out ++ (zeros width.room ++ body)) t)
    (haddr : IsAddressable build t) :
    Written build s octets out (width.header body.length ++ body) (body.length < width.limit)
      (closeBlock width.capacity ((octets ++ out).length + width.room) body.length build t) := by
  cases width with
  | one => exact closeBlock_fixed (by decide) h haddr
  | two => exact closeBlock_fixed (by decide) h haddr
  | three => exact closeBlock_fixed (by decide) h haddr
  | quic => exact ptlsBufferAdjustQuicBlocksize_written h haddr

/-- A block is written, whatever code writes its body. -/
theorem ptlsBufferPushBlock_written {block : Proc Unit} {fits : Prop} (width : Width)
    (hblock : ∀ {out : Bytes} {t : Store}, Holds build s octets out t → IsAddressable build t →
      Written build s octets out body fits (block build t))
    (h : Holds build s octets out t) (haddr : IsAddressable build t) :
    Written build s octets out (width.header body.length ++ body)
      (fits ∧ body.length < width.limit)
      (ptlsBufferPushBlock width.capacity block build t) := by
  have hheader := width.room_le body.length
  have hrun : ptlsBufferPushBlock width.capacity block build t =
      (ptlsBufferDoPushv (zeros width.room) >>= fun _ => do
        let start ← getBuf
        block
        let buf ← getBuf
        let bodySize ← subSize buf.off start.off
        closeBlock width.capacity start.off bodySize) build t := by
    cases width <;> rfl
  rw [hrun]
  have hpush := ptlsBufferDoPushv_written h haddr (zeros width.room)
  generalize hzeros : ptlsBufferDoPushv (zeros width.room) build t = outcome at hpush
  cases hpush with
  | overflow hfalse => exact absurd trivial hfalse
  | refused hrefused =>
    rw [bind_of_error hzeros]
    refine .refused (hrefused.of_le ?_)
    simp only [List.length_append, zeros_length]
    omega
  | @written u hholds haddru =>
    rw [bind_of_ok hzeros]
    change Written _ _ _ _ _ _ ((block >>= fun _ => do
      let buf ← getBuf
      let bodySize ← subSize buf.off u.buf.off
      closeBlock width.capacity u.buf.off bodySize) build u)
    have hbody := hblock hholds haddru
    generalize hbodyrun : block build u = outcome at hbody
    cases hbody with
    | overflow hexceeds =>
      rw [bind_of_error hbodyrun]
      exact .overflow fun hboth => hexceeds hboth.1
    | refused hrefused =>
      rw [bind_of_error hbodyrun]
      refine .refused (hrefused.of_le ?_)
      simp only [List.length_append, zeros_length]
      omega
    | @written v hholdsv haddrv hfits =>
      have hstart : u.buf.off = (octets ++ out).length + width.room := by
        rw [hholds.sound.off_eq]
        simp [Nat.add_assoc]
      have hsize : subSize v.buf.off u.buf.off = .ok body.length := by
        have hend : v.buf.off = u.buf.off + body.length := by
          rw [hholdsv.sound.off_eq, hholds.sound.off_eq]
          simp [Nat.add_assoc]
        rw [subSize, if_pos (by omega), hend, Nat.add_sub_cancel_left]
      rw [bind_of_ok hbodyrun]
      change Written _ _ _ _ _ _ (((subSize v.buf.off u.buf.off : Proc ℕ) >>= fun bodySize =>
        closeBlock width.capacity u.buf.off bodySize) build v)
      rw [liftM_bind_of_ok hsize, hstart]
      rw [List.append_assoc] at hholdsv
      have hclose := closeBlock_written width hholdsv haddrv
      generalize closeBlock width.capacity ((octets ++ out).length + width.room) body.length build v
        = outcome at hclose
      cases hclose with
      | written hholds' haddr' hlt => exact .written hholds' haddr' ⟨hfits, hlt⟩
      | overflow hlong => exact .overflow fun hboth => hlong hboth.2
      | refused hrefused => exact .refused hrefused

mutual

/-- A piece is written. -/
theorem pushPiece_written : ∀ (piece : Piece) {out : Bytes} {t : Store},
    Holds build s octets out t → IsAddressable build t →
    Written build s octets out piece.encode piece.Fits (pushPiece piece build t)
  | .field src, out, t, h, haddr => by
    rw [pushPiece, Piece.encode, Piece.Fits]
    exact ptlsBufferDoPushv_written h haddr src
  | .block width body, out, t, h, haddr => by
    rw [pushPiece, Piece.encode, Piece.Fits]
    exact ptlsBufferPushBlock_written width (pushPieces_written body) h haddr

/-- Pieces are written. -/
theorem pushPieces_written : ∀ (pieces : List Piece) {out : Bytes} {t : Store},
    Holds build s octets out t → IsAddressable build t →
    Written build s octets out (encodeAll pieces) (AllFit pieces) (pushPieces pieces build t)
  | [], out, t, h, haddr => by
    rw [pushPieces, encodeAll, AllFit]
    exact .written (by rwa [List.append_nil]) haddr trivial
  | piece :: pieces, out, t, h, haddr => by
    rw [pushPieces, encodeAll, AllFit]
    have hfirst := pushPiece_written piece h haddr
    generalize hrun : pushPiece piece build t = outcome at hfirst
    cases hfirst with
    | overflow hexceeds =>
      rw [bind_of_error hrun]
      exact .overflow fun hboth => hexceeds hboth.1
    | refused hrefused =>
      rw [bind_of_error hrun]
      exact .refused (hrefused.of_le (by simp))
    | @written u hholds haddru hfits =>
      rw [bind_of_ok hrun]
      have hrest := pushPieces_written pieces hholds haddru
      generalize pushPieces pieces build u = outcome at hrest
      cases hrest with
      | written hholds' haddr' hfits' =>
        rw [List.append_assoc] at hholds'
        exact .written hholds' haddr' ⟨hfits, hfits'⟩
      | overflow hexceeds => exact .overflow fun hboth => hexceeds hboth.2
      | refused hrefused =>
        rw [List.append_assoc] at hrefused
        exact .refused hrefused

end

/-! ## The round trip -/

namespace Sample

end Sample

open Sample

end Picotls.Buffers
