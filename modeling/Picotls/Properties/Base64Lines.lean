import Picotls.Pem.Decoding
import Picotls.Properties.BufferGrowth

/-!
# Base64 text in lines

The text of octets may be cut into lines anywhere but inside of a padding group, and the lines may
stand between blanks: decoding them one after the other gives the octets back. What is decoded from
a quantum that is cut is kept until the rest of it arrives.
-/

namespace Picotls.Pem

open Foundation Buffers

variable {chars pad : Bytes} {pieces : List Bytes} {sextets values : List ℕ} {c d₀ d₁ d₂ : UInt8}
  {count n : ℕ}

/-! ## Encoded octets -/

/-- A padding group that completes a quantum of so many characters. -/
def IsPadding (count : ℕ) (pad : Bytes) : Prop :=
  count = 2 ∧ pad = [padSign, padSign] ∨ count = 3 ∧ pad = [padSign]

theorem IsPadding.eq_padSign (h : IsPadding count pad) (hc : c ∈ pad) : c = padSign := by
  rcases h with ⟨-, rfl⟩ | ⟨-, rfl⟩ <;> simpa using hc

/-- The octets of a quantum that is completed by padding. -/
def paddedOctets (sextets : List ℕ) : Bytes :=
  leadingOctets (sextets.length - 1) (sextetValue sextets * 64 ^ (4 - sextets.length))

/-- A padding group ends the encoding. -/
theorem decodeText_padding (hpad : IsPadding sextets.length pad) (rest : Bytes) :
    decodeText sextets (pad ++ rest) = .padded (paddedOctets sextets) rest := by
  have hdigit : ¬ IsDigit padSign := by decide
  rcases hpad with ⟨htwo, rfl⟩ | ⟨hthree, rfl⟩
  · rw [List.cons_append, decodeText, if_neg hdigit, if_pos ⟨htwo, rfl, rfl⟩, paddedOctets, htwo]
    rfl
  · rw [List.cons_append, decodeText, if_neg hdigit, if_neg (by omega), if_pos ⟨hthree, rfl⟩,
      paddedOctets, hthree, Nat.pow_one]
    rfl

/-- A line of text: a piece of it between blanks. -/
structure Line where
  lead : Bytes
  piece : Bytes
  trail : Bytes
  lead_blank : ∀ c ∈ lead, isBlank c
  trail_blank : ∀ c ∈ trail, isBlank c

/-- The characters of a line. -/
def Line.text (line : Line) : Bytes := line.lead ++ line.piece ++ line.trail

/-- Pieces that were not cut between two padding signs. -/
def KeepsPadding (pieces : List Bytes) : Prop :=
  ∀ before after, pieces = before ++ after →
    ¬ (before.flatten.getLast? = some padSign ∧ after.flatten.head? = some padSign)

theorem isFinalBlank_of_isBlank (hc : isBlank c) : isFinalBlank c := by
  simp [isFinalBlank, hc]

theorem isBlank_eq_false (hc : IsDigit c ∨ c = padSign) : isBlank c = false :=
  Bool.eq_false_iff.mpr fun h =>
    Bool.eq_false_iff.mp (isFinalBlank_eq_false c hc) (isFinalBlank_of_isBlank h)

theorem KeepsPadding.tail {piece : Bytes} (h : KeepsPadding (piece :: pieces)) :
    KeepsPadding pieces := by
  rintro before after rfl ⟨hlast, hhead⟩
  refine h (piece :: before) after rfl ⟨?_, hhead⟩
  rw [List.flatten_cons, List.getLast?_append, hlast]
  rfl

theorem padSign_not_isDigit : ¬ IsDigit padSign := by decide

namespace Sample

end Sample

end Picotls.Pem
