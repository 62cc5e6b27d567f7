import Picotls.Ciphers.ChaCha20Poly1305

/-!
# The composition of ChaCha20 and Poly1305

However a plaintext is cut into pieces, what the calls put out is its ciphertext with the tag behind
it, as the construction defines them. Decryption gives back the plaintext of such octets, and writes
nothing for all others.
-/

namespace Picotls.ChaCha20Poly1305

open Foundation

/-! ## Octets -/

theorem le64_eq (n : ℕ) : chacha20poly1305WriteU64 n = le64 n := by
  simp [chacha20poly1305WriteU64, le64, toBE, Nat.shiftRight_eq_div_pow]

theorem le64_congr {m n : ℕ} (h : m % 2 ^ 64 = n % 2 ^ 64) : le64 m = le64 n := by
  have hmod (n : ℕ) : le64 (n % 2 ^ 64) = le64 n := congrArg List.reverse (toBE_mod 8 n)
  rw [← hmod m, h, hmod n]

theorem foldl_or_eq_zero (octets : Bytes) (t : UInt8) :
    octets.foldl (· ||| ·) t = 0 ↔ t = 0 ∧ ∀ x ∈ octets, x = 0 := by
  induction octets generalizing t with
  | nil => simp
  | cons x octets ih => simp [ih, and_assoc]

theorem memEqual_iff {x y : Bytes} (h : x.length = y.length) : memEqual x y ↔ x = y := by
  rw [memEqual, decide_eq_true_iff, foldl_or_eq_zero]
  induction x generalizing y with
  | nil =>
    cases y with
    | nil => simp
    | cons octet y => cases h
  | cons octet x ih =>
    cases y with
    | nil => cases h
    | cons octet' y =>
      have ih := ih (Nat.succ.inj h)
      simp_all

section

variable {κ μ : Type} {P : Provider κ μ}

/-! ## The stream -/

/-- The stream that a nonce gives begins with the first block. -/
theorem stream_first (key : Bytes) {nonce : Bytes} (hnonce : nonce.length = ivSize) :
    mask (P.chacha.stream key (zeros (chacha20IvSize - ivSize) ++ nonce)) 0 (zeros blockSize) =
      P.block key 0 nonce := by
  rw [mask_zeros]
  refine List.ext_getElem (by rw [P.block_length]; simp) fun i hi _ => ?_
  have hi : i < blockSize := by simpa using hi
  simp only [List.getElem_map, List.getElem_range]
  rw [P.stream_eq _ _ _ hnonce, Nat.div_eq_of_lt hi, Nat.mod_eq_of_lt hi]
  simp [P.block_length, hi]

/-- Behind its first block, the stream masks the text. -/
theorem stream_rest (key text : Bytes) {nonce : Bytes} (hnonce : nonce.length = ivSize) :
    mask (P.chacha.stream key (zeros (chacha20IvSize - ivSize) ++ nonce)) blockSize text =
      P.chacha20 key 1 nonce text := by
  refine mask_congr fun i _ => ?_
  have hdiv : (blockSize + i) / blockSize = 1 + i / blockSize := by
    rw [Nat.add_div_left i (by decide), Nat.add_comm]
  have hmod : (blockSize + i) % blockSize = i % blockSize := Nat.add_mod_left blockSize i
  rw [P.stream_eq _ _ _ hnonce, Nat.zero_add, hdiv, hmod]

@[simp] theorem chacha20_length (key nonce text : Bytes) (counter : ℕ) :
    (P.chacha20 key counter nonce text).length = text.length :=
  mask_length _ _ _

@[simp] theorem chacha20_chacha20 (key nonce text : Bytes) (counter : ℕ) :
    P.chacha20 key counter nonce (P.chacha20 key counter nonce text) = text :=
  mask_mask _ _ _

/-! ## The stages -/

/-- The nonce of a sequence number. -/
def Context.nonce (ctx : Context κ μ) (seq : ℕ) : Bytes :=
  buildIv ptlsMinicryptoChacha20poly1305 ctx.staticIv.val seq

theorem Context.nonce_length (ctx : Context κ μ) (seq : ℕ) :
    (ctx.nonce seq).length = ivSize := by
  have hlength := ctx.staticIv.property
  rw [nonce, buildIv, List.length_append, List.length_zipWith, List.length_take,
    List.length_drop, hlength, toBE_length]
  rfl

variable (P) in
/-- The cipher of a context has used a number of octets of the stream, and its authenticator has
been given octets. -/
structure Context.Stands (key nonce : Bytes) (position : ℕ) (octets : Bytes) (ctx : Context κ μ) :
    Prop where
  chacha : P.chacha.Stands key (zeros (chacha20IvSize - ivSize) ++ nonce) position ctx.chacha
  poly1305 : P.poly1305.Holds (P.oneTimeKey key nonce) octets ctx.poly1305

variable {key nonce octets : Bytes} {position : ℕ} {ctx : Context κ μ}

theorem Context.Stands.absorb (h : ctx.Stands P key nonce position octets) (input : Bytes) :
    (ctx.absorb P input).Stands P key nonce position (octets ++ input) :=
  ⟨h.chacha, h.poly1305.update input⟩

theorem Context.Stands.encryptPad (h : ctx.Stands P key nonce position octets) (n : ℕ) :
    (chacha20poly1305EncryptPad P ctx n).Stands P key nonce position
      (octets ++ zeros ((16 - n % 16) % 16)) := by
  unfold chacha20poly1305EncryptPad
  split_ifs with hpart
  · rw [Nat.mod_eq_of_lt (by omega : 16 - n % 16 < 16)]
    exact h.absorb _
  · rw [not_not.mp hpart]
    simpa [zeros] using h

/-- Padding changes the authenticator alone. -/
theorem encryptPad_eq (ctx : Context κ μ) (n : ℕ) :
    ∃ poly1305, chacha20poly1305EncryptPad P ctx n = { ctx with poly1305 } := by
  unfold chacha20poly1305EncryptPad
  split_ifs
  · exact ⟨_, rfl⟩
  · exact ⟨_, rfl⟩

/-- The associated data is authenticated with its padding, of which it has none if it is empty. -/
theorem Context.Stands.absorbAad (h : ctx.Stands P key nonce position []) (aad : Bytes) :
    (absorbAad P ctx aad).Stands P key nonce position (aad ++ pad16 aad) := by
  unfold ChaCha20Poly1305.absorbAad
  split_ifs with haad
  · have h := (h.absorb aad).encryptPad aad.length
    rwa [List.nil_append] at h
  · rw [List.length_eq_zero_iff.mp (not_not.mp haad)]
    exact h

theorem absorbAad_eq (ctx : Context κ μ) (aad : Bytes) :
    ∃ poly1305, absorbAad P ctx aad = { ctx with poly1305 } := by
  unfold absorbAad
  split_ifs
  · obtain ⟨poly1305, h⟩ := encryptPad_eq (P := P) (ctx.absorb P aad) aad.length
    exact ⟨poly1305, h⟩
  · exact ⟨_, rfl⟩

theorem initCiphers_stands (ctx : Context κ μ) (seq : ℕ) :
    (initCiphers P ctx seq).Stands P (P.chacha.key ctx.chacha) (ctx.nonce seq) blockSize [] := by
  have hinit := P.chacha.stands_init ctx.chacha
    (zeros (chacha20IvSize - ivSize) ++ ctx.nonce seq)
  obtain ⟨houtput, hstands⟩ := hinit.encrypt (zeros blockSize)
  rw [stream_first _ (ctx.nonce_length seq)] at houtput
  refine ⟨?_, ?_⟩
  · change P.chacha.Stands _ _ _ (P.chacha.encrypt (P.chacha.init ctx.chacha
      (zeros (chacha20IvSize - ivSize) ++ ctx.nonce seq)) (zeros blockSize)).2
    simpa using hstands
  · have hholds := P.poly1305.holds_init (P.oneTimeKey (P.chacha.key ctx.chacha) (ctx.nonce seq))
    change P.poly1305.Holds _ [] (P.poly1305.init ((P.chacha.encrypt (P.chacha.init ctx.chacha
      (zeros (chacha20IvSize - ivSize) ++ ctx.nonce seq)) (zeros blockSize)).1.take 32))
    rw [houtput]
    exact hholds

/-- A context has been prepared for a text, and a number of octets of it were encrypted. -/
structure Context.Encrypts (P : Provider κ μ) (iv : { iv : Bytes // iv.length = ivSize })
    (key nonce aad ciphertext : Bytes) (ctx : Context κ μ) : Prop where
  stands : ctx.Stands P key nonce (blockSize + ciphertext.length) (aad ++ pad16 aad ++ ciphertext)
  staticIv : ctx.staticIv = iv
  aadlen : ctx.aadlen = aad.length
  textlen : ctx.textlen = ciphertext.length % 2 ^ 64

theorem init_encrypts (ctx : Context κ μ) (seq : ℕ) (aad : Bytes) :
    (chacha20poly1305Init P ctx seq aad).Encrypts P ctx.staticIv (P.chacha.key ctx.chacha)
      (ctx.nonce seq) aad [] := by
  obtain ⟨chacha, poly1305⟩ := (initCiphers_stands (P := P) ctx seq).absorbAad aad
  obtain ⟨state, hstate⟩ := absorbAad_eq (P := P) (initCiphers P ctx seq) aad
  refine ⟨⟨chacha, ?_⟩, ?_, rfl, rfl⟩
  · rw [List.append_nil]
    exact poly1305
  · change (absorbAad P (initCiphers P ctx seq) aad).staticIv = _
    rw [hstate]
    rfl

variable {iv : { iv : Bytes // iv.length = ivSize }} {aad ciphertext : Bytes}

/-- A piece is masked by the stream where the pieces before it ended. -/
theorem Context.Encrypts.update (h : ctx.Encrypts P iv key nonce aad ciphertext) (input : Bytes) :
    (chacha20poly1305EncryptUpdate P ctx input).1 =
      mask (P.chacha.stream key (zeros (chacha20IvSize - ivSize) ++ nonce))
        (blockSize + ciphertext.length) input ∧
    (chacha20poly1305EncryptUpdate P ctx input).2.Encrypts P iv key nonce aad
      (ciphertext ++ (chacha20poly1305EncryptUpdate P ctx input).1) := by
  obtain ⟨houtput, hstands⟩ := h.stands.chacha.encrypt input
  refine ⟨houtput, ⟨?_, ?_⟩, h.staticIv, h.aadlen, ?_⟩
  · change P.chacha.Stands key _
      (blockSize + (ciphertext ++ (P.chacha.encrypt ctx.chacha input).1).length)
      (P.chacha.encrypt ctx.chacha input).2
    rw [houtput, List.length_append, mask_length, ← Nat.add_assoc]
    exact hstands
  · rw [← List.append_assoc]
    exact h.stands.poly1305.update _
  · change (ctx.textlen + input.length) % 2 ^ 64 =
      (ciphertext ++ (P.chacha.encrypt ctx.chacha input).1).length % 2 ^ 64
    rw [houtput, List.length_append, mask_length, h.textlen, Nat.mod_add_mod]

/-- The pieces are masked as their concatenation is. -/
theorem Context.Encrypts.pieces (h : ctx.Encrypts P iv key nonce aad ciphertext)
    (pieces : List Bytes) :
    (encryptPieces (chacha20poly1305EncryptUpdate P) ctx pieces).1 =
      mask (P.chacha.stream key (zeros (chacha20IvSize - ivSize) ++ nonce))
        (blockSize + ciphertext.length) pieces.flatten ∧
    (encryptPieces (chacha20poly1305EncryptUpdate P) ctx pieces).2.Encrypts P iv key nonce aad
      (ciphertext ++ (encryptPieces (chacha20poly1305EncryptUpdate P) ctx pieces).1) := by
  induction pieces generalizing ctx ciphertext with
  | nil =>
    refine ⟨rfl, ?_⟩
    rw [encryptPieces, List.append_nil]
    exact h
  | cons piece pieces ih =>
    obtain ⟨houtput, hnext⟩ := h.update piece
    obtain ⟨houtputs, hlast⟩ := ih hnext
    refine ⟨?_, ?_⟩
    · rw [encryptPieces, List.flatten_cons, mask_append]
      rw [houtput, List.length_append, mask_length, ← Nat.add_assoc] at houtputs
      rw [← houtput, ← houtputs]
    · rw [List.append_assoc] at hlast
      exact hlast

/-- The tag is that of the octets that were given to the authenticator behind the associated data.
-/
theorem Context.Stands.finalize
    (h : ctx.Stands P key nonce position (aad ++ pad16 aad ++ ciphertext))
    (haadlen : ctx.aadlen = aad.length)
    (htextlen : ctx.textlen % 2 ^ 64 = ciphertext.length % 2 ^ 64) :
    (chacha20poly1305Finalize P ctx).1 = P.tagOf key nonce aad ciphertext := by
  have hmod : ctx.textlen % 16 = ciphertext.length % 16 := by omega
  obtain ⟨poly1305, hctx⟩ := encryptPad_eq (P := P) ctx ctx.textlen
  have hpad := h.encryptPad ctx.textlen
  rw [hctx, hmod] at hpad
  have htag := (hpad.poly1305.update (chacha20poly1305WriteU64 ctx.aadlen ++
    chacha20poly1305WriteU64 ctx.textlen)).finish
  unfold chacha20poly1305Finalize
  rw [hctx]
  refine htag.trans ?_
  rw [haadlen, le64_eq, le64_eq, le64_congr htextlen, Provider.tagOf, macData,
    List.append_assoc _ (le64 _)]
  rfl

/-- The cipher keeps its key, and the context its IV. -/
theorem finalize_keeps (ctx : Context κ μ) :
    (chacha20poly1305Finalize P ctx).2.chacha = ctx.chacha ∧
    (chacha20poly1305Finalize P ctx).2.staticIv = ctx.staticIv := by
  obtain ⟨poly1305, hctx⟩ := encryptPad_eq (P := P) ctx ctx.textlen
  unfold chacha20poly1305Finalize
  rw [hctx]
  exact ⟨rfl, rfl⟩

/-! ## Encryption -/

/-- Whatever its pieces are, the output for a text is its ciphertext with the tag. -/
theorem encryptInPieces_run (ctx : Context κ μ) (seq : ℕ) (aad : Bytes) (pieces : List Bytes) :
    (encryptInPieces P ctx seq aad pieces).1 =
      P.sealed (P.chacha.key ctx.chacha) (ctx.nonce seq) aad pieces.flatten := by
  obtain ⟨houtput, hencrypts⟩ := (init_encrypts (P := P) ctx seq aad).pieces pieces
  rw [List.length_nil, Nat.add_zero, stream_rest _ _ (ctx.nonce_length seq)] at houtput
  rw [List.nil_append, houtput] at hencrypts
  have htag := hencrypts.stands.finalize hencrypts.aadlen (by rw [hencrypts.textlen, Nat.mod_mod])
  unfold encryptInPieces Provider.sealed
  change _ ++ _ = _ ++ _
  rw [← htag, ← houtput]
  rfl

/-- Vectors from which nothing is overwritten before it is read, if the outputs are written behind
each other. -/
def Unspoiled (output : ℕ) : ℕ → List Iovec → Prop
  | _, [] => True
  | written, vector :: vectors =>
    (vector.len = 0 ∨ vector.base + vector.len ≤ output ∨ output + written ≤ vector.base) ∧
      Unspoiled output (written + vector.len) vectors

/-- The octets of the vectors. -/
def contents (mem : Memory) (input : List Iovec) : List Bytes :=
  input.map fun vector => mem.read vector.base vector.len

theorem Context.Encrypts.vectors (h : ctx.Encrypts P iv key nonce aad ciphertext) (mem : Memory)
    (output : ℕ) (done : Bytes) (input : List Iovec) (hinput : Unspoiled output done.length input) :
    encryptVectors P ctx (mem.write output done) (output + done.length) input =
      (output + (done ++
          (encryptPieces (chacha20poly1305EncryptUpdate P) ctx (contents mem input)).1).length,
        (encryptPieces (chacha20poly1305EncryptUpdate P) ctx (contents mem input)).2,
        mem.write output (done ++
          (encryptPieces (chacha20poly1305EncryptUpdate P) ctx (contents mem input)).1)) := by
  induction input generalizing ctx ciphertext done with
  | nil => simp [encryptVectors, contents, encryptPieces]
  | cons vector input ih =>
    obtain ⟨hvector, hinput⟩ := hinput
    have hread : (mem.write output done).read vector.base vector.len =
        mem.read vector.base vector.len := by
      rcases hvector with hempty | hapart
      · rw [hempty, Memory.read_zero, Memory.read_zero]
      · exact Memory.read_write_of_apart hapart
    obtain ⟨houtput, hnext⟩ := h.update (mem.read vector.base vector.len)
    have hlength :
        (chacha20poly1305EncryptUpdate P ctx (mem.read vector.base vector.len)).1.length =
          vector.len := by
      rw [houtput, mask_length, Memory.read_length]
    have ih := ih hnext
      (done ++ (chacha20poly1305EncryptUpdate P ctx (mem.read vector.base vector.len)).1)
      (by rwa [List.length_append, hlength])
    rw [List.length_append, hlength, ← Nat.add_assoc, ← Memory.write_write_append,
      List.append_assoc] at ih
    rw [encryptVectors, hread]
    exact ih

/-- Vectors are encrypted as the concatenation of what they held. -/
theorem ptlsAeadDoEncryptV_run (ctx : Context κ μ) (mem : Memory) (output : ℕ) (input : List Iovec)
    (seq aad aadlen : ℕ) (hinput : Unspoiled output 0 input) :
    (ptlsAeadDoEncryptV P ctx mem output input seq aad aadlen).2 =
      mem.write output (P.sealed (P.chacha.key ctx.chacha) (ctx.nonce seq) (mem.read aad aadlen)
        (contents mem input).flatten) := by
  have hvectors :=
    (init_encrypts (P := P) ctx seq (mem.read aad aadlen)).vectors mem output [] input hinput
  rw [List.nil_append, Memory.write_nil, List.length_nil, Nat.add_zero] at hvectors
  rw [← encryptInPieces_run, ptlsAeadDoEncryptV, hvectors]
  exact Memory.write_write_append _ _ _ _

/-! ## Decryption -/

variable (P) in
/-- The context for which decryption computes the tag. -/
def absorbed (ctx : Context κ μ) (seq : ℕ) (aad ciphertext : Bytes) : Context κ μ :=
  { (chacha20poly1305Init P ctx seq aad).absorb P ciphertext with textlen := ciphertext.length }

theorem absorbed_stands (ctx : Context κ μ) (seq : ℕ) (aad ciphertext : Bytes) :
    (absorbed P ctx seq aad ciphertext).Stands P (P.chacha.key ctx.chacha) (ctx.nonce seq) blockSize
      (aad ++ pad16 aad ++ ciphertext) := by
  have hstands := (init_encrypts (P := P) ctx seq aad).stands.absorb ciphertext
  rw [List.append_nil] at hstands
  exact ⟨hstands.chacha, hstands.poly1305⟩

theorem absorbed_finalize (ctx : Context κ μ) (seq : ℕ) (aad ciphertext : Bytes) :
    (chacha20poly1305Finalize P (absorbed P ctx seq aad ciphertext)).1 =
      P.tagOf (P.chacha.key ctx.chacha) (ctx.nonce seq) aad ciphertext :=
  (absorbed_stands ctx seq aad ciphertext).finalize (init_encrypts (P := P) ctx seq aad).aadlen
    rfl

/-- The text is decrypted if the tag that is computed stands behind it. -/
theorem decryptAuthenticated_eq (ctx : Context κ μ) (mem : Memory) (output input inlen : ℕ)
    (htag : (chacha20poly1305Finalize P ctx).1.length = tagSize) :
    ∃ ctx', ctx'.staticIv = ctx.staticIv ∧ P.chacha.key ctx'.chacha = P.chacha.key ctx.chacha ∧
      decryptAuthenticated P ctx mem output input inlen =
        if (chacha20poly1305Finalize P ctx).1 = mem.read (input + inlen - tagSize) tagSize then
          (inlen - tagSize, ctx',
            mem.write output (P.chacha.encrypt ctx.chacha (mem.read input (inlen - tagSize))).1)
        else (sizeMax, ctx', mem) := by
  obtain ⟨hchacha, hiv⟩ := finalize_keeps (P := P) ctx
  have hequal := memEqual_iff (htag.trans (Memory.read_length mem (input + inlen - tagSize) _).symm)
  unfold decryptAuthenticated
  generalize hfinal : chacha20poly1305Finalize P ctx = final at hchacha hiv hequal
  obtain ⟨tag, ctx'⟩ := final
  simp only [hequal]
  split_ifs
  · refine ⟨_, ?_, ?_, by rw [← hchacha]⟩
    · exact hiv
    · exact (P.chacha.key_encrypt _ _).trans (congrArg P.chacha.key hchacha)
  · exact ⟨ctx', hiv, congrArg P.chacha.key hchacha, rfl⟩

/-- The context keeps its key and its IV. -/
structure Keeps (P : Provider κ μ) (ctx ctx' : Context κ μ) : Prop where
  key : P.chacha.key ctx'.chacha = P.chacha.key ctx.chacha
  staticIv : ctx'.staticIv = ctx.staticIv

theorem Context.Encrypts.keeps {ctx' : Context κ μ}
    (h : ctx'.Encrypts P ctx.staticIv (P.chacha.key ctx.chacha) nonce aad ciphertext) :
    Keeps P ctx ctx' :=
  ⟨h.stands.chacha.key_eq, h.staticIv⟩

theorem Keeps.finalize {ctx' : Context κ μ} (h : Keeps P ctx ctx') :
    Keeps P ctx (chacha20poly1305Finalize P ctx').2 := by
  obtain ⟨hchacha, hiv⟩ := finalize_keeps (P := P) ctx'
  exact ⟨(congrArg P.chacha.key hchacha).trans h.key, hiv.trans h.staticIv⟩

/-- What decryption does with enough octets. -/
theorem decrypt_eq (ctx : Context κ μ) (mem : Memory) (output input inlen seq aad aadlen : ℕ)
    (hlong : tagSize ≤ inlen) :
    ∃ ctx', Keeps P ctx ctx' ∧
      chacha20poly1305Decrypt P ctx mem output input inlen seq aad aadlen =
        if P.tagOf (P.chacha.key ctx.chacha) (ctx.nonce seq) (mem.read aad aadlen)
            (mem.read input (inlen - tagSize)) = mem.read (input + inlen - tagSize) tagSize then
          (inlen - tagSize, ctx', mem.write output (P.chacha20 (P.chacha.key ctx.chacha) 1
            (ctx.nonce seq) (mem.read input (inlen - tagSize))))
        else (sizeMax, ctx', mem) := by
  have hstands := absorbed_stands (P := P) ctx seq (mem.read aad aadlen)
    (mem.read input (inlen - tagSize))
  have htag := absorbed_finalize (P := P) ctx seq (mem.read aad aadlen)
    (mem.read input (inlen - tagSize))
  have houtput := (hstands.chacha.encrypt (mem.read input (inlen - tagSize))).1
  rw [stream_rest _ _ (ctx.nonce_length seq)] at houtput
  obtain ⟨ctx', hiv, hkey, hrun⟩ := decryptAuthenticated_eq (P := P) (absorbed P ctx seq
    (mem.read aad aadlen) (mem.read input (inlen - tagSize))) mem output input inlen
    (by rw [htag]; exact P.tag_length _ _)
  rw [htag, houtput] at hrun
  refine ⟨ctx', ⟨hkey.trans hstands.chacha.key_eq, hiv.trans ?_⟩, ?_⟩
  · exact (init_encrypts ctx seq (mem.read aad aadlen)).staticIv
  · rw [← hrun, absorbed, Memory.read_length, chacha20poly1305Decrypt, if_neg (not_lt.mpr hlong)]

/-- Octets are those of a plaintext if the tag at their end is right. -/
theorem read_eq_sealed_iff (mem : Memory) (input inlen : ℕ) (key nonce aad plaintext : Bytes) :
    mem.read input inlen = P.sealed key nonce aad plaintext ↔
      tagSize ≤ inlen ∧ plaintext = P.chacha20 key 1 nonce (mem.read input (inlen - tagSize)) ∧
        P.tagOf key nonce aad (mem.read input (inlen - tagSize)) =
          mem.read (input + inlen - tagSize) tagSize := by
  have hsplit (hlong : tagSize ≤ inlen) : mem.read input inlen =
      mem.read input (inlen - tagSize) ++ mem.read (input + inlen - tagSize) tagSize := by
    rw [Nat.add_sub_assoc hlong, ← Memory.read_add, Nat.sub_add_cancel hlong]
  constructor
  · intro h
    have hlength := congrArg List.length h
    rw [Provider.sealed, List.length_append, Memory.read_length, chacha20_length, Provider.tagOf,
      P.tag_length] at hlength
    have hlong : tagSize ≤ inlen := by omega
    rw [hsplit hlong] at h
    obtain ⟨hciphertext, htag⟩ := List.append_inj' h
      ((Memory.read_length _ _ _).trans (P.tag_length _ _).symm)
    rw [hciphertext]
    exact ⟨hlong, (chacha20_chacha20 ..).symm, htag.symm⟩
  · rintro ⟨hlong, rfl, htag⟩
    rw [hsplit hlong, ← htag, Provider.sealed, chacha20_chacha20]

theorem decrypt_accepts (ctx : Context κ μ) (mem : Memory)
    (output input inlen seq aad aadlen : ℕ) {plaintext : Bytes}
    (h : mem.read input inlen =
      P.sealed (P.chacha.key ctx.chacha) (ctx.nonce seq) (mem.read aad aadlen) plaintext) :
    ∃ ctx', chacha20poly1305Decrypt P ctx mem output input inlen seq aad aadlen =
      (plaintext.length, ctx', mem.write output plaintext) := by
  obtain ⟨hlong, hplaintext, htag⟩ := (read_eq_sealed_iff ..).mp h
  obtain ⟨ctx', -, hrun⟩ := decrypt_eq (P := P) ctx mem output input inlen seq aad aadlen hlong
  rw [if_pos htag, ← hplaintext] at hrun
  have hlength : plaintext.length = inlen - tagSize := by
    rw [hplaintext, chacha20_length, Memory.read_length]
  exact ⟨ctx', by rw [hrun, hlength]⟩

theorem decrypt_refuses (ctx : Context κ μ) (mem : Memory)
    (output input inlen seq aad aadlen : ℕ)
    (h : ∀ plaintext, mem.read input inlen ≠
      P.sealed (P.chacha.key ctx.chacha) (ctx.nonce seq) (mem.read aad aadlen) plaintext) :
    ∃ ctx', chacha20poly1305Decrypt P ctx mem output input inlen seq aad aadlen =
      (sizeMax, ctx', mem) := by
  by_cases hlong : tagSize ≤ inlen
  · obtain ⟨ctx', -, hrun⟩ := decrypt_eq (P := P) ctx mem output input inlen seq aad aadlen hlong
    rw [if_neg fun htag => h _ ((read_eq_sealed_iff ..).mpr ⟨hlong, rfl, htag⟩)] at hrun
    exact ⟨ctx', hrun⟩
  · exact ⟨ctx, if_pos (not_le.mp hlong)⟩

/-! ## The composition -/

variable (P) in
/-- A context encrypts and decrypts as the construction says. -/
structure Context.Composes (key nonce : Bytes) (ctx : Context κ μ) (seq : ℕ) : Prop where
  /-- Encryption in pieces. -/
  pieces : ∀ aad pieces,
    (encryptInPieces P ctx seq aad pieces).1 = P.sealed key nonce aad pieces.flatten
  /-- Encryption of vectors in memory. -/
  vectors : ∀ mem output input aad aadlen, Unspoiled output 0 input →
    (ptlsAeadDoEncryptV P ctx mem output input seq aad aadlen).2 =
      mem.write output (P.sealed key nonce (mem.read aad aadlen) (contents mem input).flatten)
  /-- Decryption of what encryption puts out. -/
  accepts : ∀ mem output input inlen aad aadlen plaintext,
    mem.read input inlen = P.sealed key nonce (mem.read aad aadlen) plaintext →
      ∃ ctx', chacha20poly1305Decrypt P ctx mem output input inlen seq aad aadlen =
        (plaintext.length, ctx', mem.write output plaintext)
  /-- Decryption of other octets. -/
  refuses : ∀ mem output input inlen aad aadlen,
    (∀ plaintext, mem.read input inlen ≠ P.sealed key nonce (mem.read aad aadlen) plaintext) →
      ∃ ctx', chacha20poly1305Decrypt P ctx mem output input inlen seq aad aadlen =
        (sizeMax, ctx', mem)

/-- What can be done with a context. -/
inductive Step (P : Provider κ μ) (ctx : Context κ μ) : Context κ μ → Prop where
  | init (seq aad) : Step P ctx (chacha20poly1305Init P ctx seq aad)
  | update (input) : Step P ctx (chacha20poly1305EncryptUpdate P ctx input).2
  | final : Step P ctx (chacha20poly1305EncryptFinal P ctx).2
  | decrypt (mem output input inlen seq aad aadlen) :
    Step P ctx (chacha20poly1305Decrypt P ctx mem output input inlen seq aad aadlen).2.1

/-- The contexts that are set up for a key, with the IV that was given last. -/
inductive Reachable (P : Provider κ μ) (key : Bytes) :
    { iv : Bytes // iv.length = ivSize } → Context κ μ → Prop where
  | setup {start : { iv : Bytes // iv.length = ivSize }} {ctx' : Context κ μ} (unset : Context κ μ)
    (h : chacha20poly1305SetupCrypto P unset key start = .ok ctx') : Reachable P key start ctx'
  | step {last : { iv : Bytes // iv.length = ivSize }} {ctx' ctx'' : Context κ μ}
    (h : Reachable P key last ctx') (hstep : Step P ctx' ctx'') : Reachable P key last ctx''
  | setIv {last : { iv : Bytes // iv.length = ivSize }} {ctx' : Context κ μ}
    (next : { iv : Bytes // iv.length = ivSize }) (h : Reachable P key last ctx') :
    Reachable P key next (chacha20poly1305SetIv ctx' next)

theorem Step.keeps {ctx' : Context κ μ} (h : Step P ctx ctx') : Keeps P ctx ctx' := by
  cases h with
  | init seq aad => exact (init_encrypts ctx seq aad).keeps
  | update input => exact ⟨P.chacha.key_encrypt _ _, rfl⟩
  | final => exact Keeps.finalize ⟨rfl, rfl⟩
  | decrypt mem output input inlen seq aad aadlen =>
    by_cases hlong : tagSize ≤ inlen
    · obtain ⟨ctx', hkeeps, hrun⟩ := decrypt_eq (P := P) ctx mem output input inlen seq aad aadlen
        hlong
      rw [hrun]
      split_ifs
      · exact hkeeps
      · exact hkeeps
    · rw [chacha20poly1305Decrypt, if_pos (not_le.mp hlong)]
      exact ⟨rfl, rfl⟩

theorem Reachable.eq (h : Reachable P key iv ctx) :
    P.chacha.key ctx.chacha = key ∧ ctx.staticIv = iv := by
  induction h with
  | setup unset h =>
    unfold chacha20poly1305SetupCrypto at h
    split at h
    · cases h
    · next context hcontext =>
      cases h
      exact ⟨P.key_cipherNew _ _ hcontext, rfl⟩
  | step h hstep ih => exact ⟨hstep.keeps.key.trans ih.1, hstep.keeps.staticIv.trans ih.2⟩
  | setIv next h ih => exact ⟨ih.1, rfl⟩

/-- Every context composes the cipher and the authenticator as the construction says, for every
sequence number. -/
theorem reachable_composes (h : Reachable P key iv ctx) (seq : ℕ) :
    ctx.Composes P key (buildIv ptlsMinicryptoChacha20poly1305 iv.val seq) seq := by
  obtain ⟨rfl, rfl⟩ := h.eq
  exact ⟨encryptInPieces_run ctx seq, fun mem output input aad aadlen =>
    ptlsAeadDoEncryptV_run ctx mem output input seq aad aadlen,
    fun mem output input inlen aad aadlen _ =>
      decrypt_accepts ctx mem output input inlen seq aad aadlen,
    fun mem output input inlen aad aadlen =>
      decrypt_refuses ctx mem output input inlen seq aad aadlen⟩

end

/-- A provider whose blocks repeat their number, and whose tags repeat the number of octets. -/
def countingProvider : Provider (Bytes × Bytes × ℕ) (Bytes × Bytes) :=
  Provider.ofFunctions (fun _ counter _ => List.replicate blockSize (UInt8.ofNat counter))
    (fun _ octets => List.replicate tagSize (UInt8.ofNat octets.length))
    (fun _ _ _ => List.length_replicate) fun _ _ => List.length_replicate

/-- A plaintext that is given in three pieces, one of which is empty, under a context that was used
before. -/
theorem countingProvider_composes :
    ∃ ctx : Context (Bytes × Bytes × ℕ) (Bytes × Bytes),
      Reachable countingProvider (zeros 32) ⟨zeros ivSize, rfl⟩ ctx ∧
      (encryptInPieces countingProvider ctx 1 [7] [[1, 2], [], [3]]).1 =
        [0, 3, 2] ++ List.replicate tagSize 48 := by
  have hsetup : Reachable countingProvider (zeros 32) ⟨zeros ivSize, rfl⟩
      ⟨(zeros 32, [], 0), ⟨zeros ivSize, rfl⟩, 0, 0, ([], [])⟩ :=
    .setup ⟨([], [], 0), ⟨zeros ivSize, rfl⟩, 0, 0, ([], [])⟩ rfl
  have hused := hsetup.step (.init 0 [])
  exact ⟨_, hused, ((reachable_composes hused 1).pieces [7] [[1, 2], [], [3]]).trans rfl⟩

end Picotls.ChaCha20Poly1305
