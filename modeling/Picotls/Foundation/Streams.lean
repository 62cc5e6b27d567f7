import Picotls.Foundation.Octets
import Mathlib.Data.List.Induction

/-!
# Ciphers and authenticators that work in pieces

A stream cipher masks the octets that it is given by the octets of a stream, and an authenticator
computes a tag. Both take octets in pieces and keep in their contexts what they need to go on. All
that is assumed of them is that the pieces do not matter: the outputs together, and the tag, are
those of the concatenation.
-/

namespace Foundation

/-! ## Masks -/

/-- Octets masked by a stream, from a position of the stream on. -/
def mask (stream : ℕ → UInt8) (position : ℕ) (octets : Bytes) : Bytes :=
  octets.mapIdx fun i octet => octet ^^^ stream (position + i)

section

variable (stream : ℕ → UInt8) (position : ℕ)

@[simp] theorem mask_length (octets : Bytes) :
    (mask stream position octets).length = octets.length :=
  List.length_mapIdx

theorem mask_append (first second : Bytes) :
    mask stream position (first ++ second) =
      mask stream position first ++ mask stream (position + first.length) second := by
  rw [mask, List.mapIdx_append]
  refine congrArg (mask stream position first ++ ·) ?_
  have hposition (i : ℕ) : position + (i + first.length) = position + first.length + i := by omega
  simp only [mask, hposition]

/-- A mask is taken off by applying it again. -/
@[simp] theorem mask_mask (octets : Bytes) :
    mask stream position (mask stream position octets) = octets := by
  refine List.ext_getElem (by simp) fun i _ _ => ?_
  simp only [mask, List.getElem_mapIdx]
  exact xor_xor_cancel _ _

end

/-- Only the octets of the stream that are used matter. -/
theorem mask_congr {stream stream' : ℕ → UInt8} {position position' : ℕ} {octets : Bytes}
    (h : ∀ i < octets.length, stream (position + i) = stream' (position' + i)) :
    mask stream position octets = mask stream' position' octets := by
  refine List.ext_getElem (by simp) fun i hi _ => ?_
  have hi : i < octets.length := by simpa using hi
  simp [mask, h i hi]

/-- Zeros become the stream itself. -/
theorem mask_zeros (stream : ℕ → UInt8) (n : ℕ) :
    mask stream 0 (zeros n) = (List.range n).map stream := by
  refine List.ext_getElem (by simp) fun i _ _ => ?_
  simp [mask, zeros]

/-! ## Stream ciphers -/

/-- One call after the other, with the outputs together and the context at the end. -/
def encryptPieces {κ : Type} (encrypt : κ → Bytes → Bytes × κ) : κ → List Bytes → Bytes × κ
  | context, [] => ([], context)
  | context, piece :: pieces =>
    let (output, context) := encrypt context piece
    let (outputs, context) := encryptPieces encrypt context pieces
    (output ++ outputs, context)

theorem encryptPieces_concat {κ : Type} (encrypt : κ → Bytes → Bytes × κ) (context : κ)
    (pieces : List Bytes) (piece : Bytes) :
    encryptPieces encrypt context (pieces ++ [piece]) =
      ((encryptPieces encrypt context pieces).1 ++
          (encrypt (encryptPieces encrypt context pieces).2 piece).1,
        (encrypt (encryptPieces encrypt context pieces).2 piece).2) := by
  induction pieces generalizing context with
  | nil => simp [encryptPieces]
  | cons first pieces ih => simp [encryptPieces, ih]

/-- A stream cipher, with contexts that are made for a key and set to an IV. -/
structure StreamCipher (κ : Type) where
  key : κ → Bytes
  init : κ → Bytes → κ
  encrypt : κ → Bytes → Bytes × κ
  /-- The stream of a key and an IV. -/
  stream : Bytes → Bytes → ℕ → UInt8
  key_init : ∀ context iv, key (init context iv) = key context
  key_encrypt : ∀ context input, key (encrypt context input).2 = key context
  encrypt_pieces : ∀ context iv pieces,
    (encryptPieces encrypt (init context iv) pieces).1 =
      mask (stream (key context) iv) 0 pieces.flatten

/-- A context has been set to an IV and has used a number of octets of the stream since then. -/
def StreamCipher.Stands {κ : Type} (C : StreamCipher κ) (key iv : Bytes) (position : ℕ)
    (context : κ) : Prop :=
  ∃ start pieces, C.key start = key ∧ pieces.flatten.length = position ∧
    context = (encryptPieces C.encrypt (C.init start iv) pieces).2

section

variable {κ : Type} (C : StreamCipher κ) {key iv : Bytes} {position : ℕ} {context : κ}

theorem StreamCipher.stands_init (context : κ) (iv : Bytes) :
    C.Stands (C.key context) iv 0 (C.init context iv) :=
  ⟨context, [], rfl, rfl, rfl⟩

variable {C}

/-- A call masks its input from the position on. -/
theorem StreamCipher.Stands.encrypt (h : C.Stands key iv position context) (input : Bytes) :
    (C.encrypt context input).1 = mask (C.stream key iv) position input ∧
    C.Stands key iv (position + input.length) (C.encrypt context input).2 := by
  obtain ⟨start, pieces, rfl, rfl, rfl⟩ := h
  have hbefore := C.encrypt_pieces start iv pieces
  have hafter := C.encrypt_pieces start iv (pieces ++ [input])
  have hflatten : (pieces ++ [input]).flatten = pieces.flatten ++ input := by simp
  rw [hflatten, mask_append, encryptPieces_concat, hbefore, Nat.zero_add] at hafter
  refine ⟨List.append_cancel_left hafter, start, pieces ++ [input], rfl, ?_, ?_⟩
  · rw [hflatten, List.length_append]
  · rw [encryptPieces_concat]

theorem StreamCipher.Stands.key_eq (h : C.Stands key iv position context) :
    C.key context = key := by
  obtain ⟨start, pieces, rfl, -, rfl⟩ := h
  induction pieces using List.reverseRecOn with
  | nil => exact C.key_init start iv
  | append_singleton pieces piece ih => rw [encryptPieces_concat, C.key_encrypt, ih]

end

/-- The stream cipher whose contexts hold the key, the IV and the position. -/
def StreamCipher.positional (stream : Bytes → Bytes → ℕ → UInt8) :
    StreamCipher (Bytes × Bytes × ℕ) where
  key context := context.1
  init context iv := (context.1, iv, 0)
  encrypt context input :=
    (mask (stream context.1 context.2.1) context.2.2 input,
      (context.1, context.2.1, context.2.2 + input.length))
  stream := stream
  key_init _ _ := rfl
  key_encrypt _ _ := rfl
  encrypt_pieces context iv pieces := by
    -- Every context on the way is of this form, with the position that the pieces before it reach.
    suffices h : ∀ position, (encryptPieces (fun (context : Bytes × Bytes × ℕ) input =>
        (mask (stream context.1 context.2.1) context.2.2 input,
          (context.1, context.2.1, context.2.2 + input.length)))
            (context.1, iv, position) pieces).1 =
        mask (stream context.1 iv) position pieces.flatten from h 0
    induction pieces with
    | nil => exact fun _ => rfl
    | cons piece pieces ih =>
      intro position
      rw [List.flatten_cons, mask_append, ← ih]
      rfl

/-! ## Authenticators -/

/-- An authenticator, which is given a key and then octets in pieces. -/
structure Authenticator (μ : Type) where
  init : Bytes → μ
  update : μ → Bytes → μ
  finish : μ → Bytes × μ
  /-- The tag of octets under a key. -/
  tag : Bytes → Bytes → Bytes
  finish_pieces : ∀ (key : Bytes) (pieces : List Bytes),
    (finish (pieces.foldl update (init key))).1 = tag key pieces.flatten

/-- A context has been given a key and octets. -/
def Authenticator.Holds {μ : Type} (A : Authenticator μ) (key octets : Bytes) (context : μ) :
    Prop :=
  ∃ pieces : List Bytes, pieces.flatten = octets ∧ context = pieces.foldl A.update (A.init key)

section

variable {μ : Type} (A : Authenticator μ) {key octets : Bytes} {context : μ}

theorem Authenticator.holds_init (key : Bytes) : A.Holds key [] (A.init key) := ⟨[], rfl, rfl⟩

variable {A}

theorem Authenticator.Holds.update (h : A.Holds key octets context) (input : Bytes) :
    A.Holds key (octets ++ input) (A.update context input) := by
  obtain ⟨pieces, rfl, rfl⟩ := h
  exact ⟨pieces ++ [input], by simp, by simp⟩

theorem Authenticator.Holds.finish (h : A.Holds key octets context) :
    (A.finish context).1 = A.tag key octets := by
  obtain ⟨pieces, rfl, rfl⟩ := h
  exact A.finish_pieces key pieces

end

/-- The authenticator whose contexts hold the key and the octets so far. -/
def Authenticator.collecting (tag : Bytes → Bytes → Bytes) : Authenticator (Bytes × Bytes) where
  init key := (key, [])
  update context input := (context.1, context.2 ++ input)
  finish context := (tag context.1 context.2, context)
  tag := tag
  finish_pieces key pieces := by
    suffices h : ∀ octets, pieces.foldl (fun (context : Bytes × Bytes) input =>
        (context.1, context.2 ++ input)) (key, octets) = (key, octets ++ pieces.flatten) by
      rw [h, List.nil_append]
    induction pieces with
    | nil => simp
    | cons piece pieces ih =>
      intro octets
      rw [List.foldl_cons, ih, List.flatten_cons, List.append_assoc]

end Foundation
