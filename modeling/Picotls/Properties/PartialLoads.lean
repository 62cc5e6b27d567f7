import Picotls.Fusion.Ghash

/-!
# Partial loads near the end of a page

A load of up to 16 octets returns the octets at an address followed by zeros, and so does a load of
up to 31 octets, except for fewer than 16 octets in the last but one aligned vector of a page. There
the code loads the aligned vector that holds the first octet, as it does in the last vector of a
page, and loses the octets that lie in the last vector. No load touches a page without any of the
octets.
-/

namespace Picotls.Fusion

open Foundation

/-- What a load of some octets is to return, whatever the memory holds and whatever a cast leaves
undefined: the octets followed by zeros, read from their own pages. -/
def Loadn256Correct (p l : ℕ) : Prop :=
  ∀ (mem : Memory) (upper upper' : BitVec 128),
    (loadn256 mem upper upper' p l).1 = padded 256 mem p l ∧
      StaysOnPages (loadn256 mem upper upper' p l).2 p l

/-- The load of up to 31 octets is right unless fewer than 16 octets reach from the last but one
vector of a page into the last one: then the first octet that is lost tells the results apart. -/
theorem loadn256Correct_iff {p l : ℕ} (hl : 0 < l) (hl' : l ≤ 31) :
    Loadn256Correct p l ↔ Loadn256Works p l := by
  constructor
  · intro hcorrect
    by_contra hworks
    have hvalue := (hcorrect (fun _ => 1) 0 0).1
    have hlost : octet (loadn256 (fun _ => 1) 0 0 p l).1 (16 - p % 16) = 0 :=
      octet_loadn256_lost hworks
    simp only [Loadn256Works, pageSize, not_or, Nat.not_le, Nat.not_lt] at hworks
    rw [hvalue, padded, octet_ofOctets (by omega), if_pos (by omega)] at hlost
    exact absurd hlost (by decide)
  · intro hworks mem upper upper'
    exact ⟨loadn256_value hl' hworks, loadn256_pages hl hl'⟩

/-- Partial loads. The load of up to 16 octets is right everywhere, the load of up to 31 octets is
right just where it works, and the hash of up to 31 octets of associated data is the same at all
addresses where the load works. -/
theorem partial_loads_iff (p l : ℕ) (hl : 0 < l) :
    (l ≤ 16 → ∀ mem : Memory,
      (loadn128 mem p l).1 = padded 128 mem p l ∧ StaysOnPages (loadn128 mem p l).2 p l) ∧
    (l ≤ 31 → (Loadn256Correct p l ↔ Loadn256Works p l)) ∧
    (l ≤ 31 → ∀ (ghash : ℕ → GhashPrecompute256) (mem mem' : Memory)
      (upper₁ upper₂ upper₁' upper₂' : BitVec 128) (p' : ℕ),
      (∀ i < l, mem' (p' + i) = mem (p + i)) → Loadn256Works p l → Loadn256Works p' l →
      (ghashAad256 ghash mem upper₁ upper₂ p l).isSome ∧
        ghashAad256 ghash mem' upper₁' upper₂' p' l = ghashAad256 ghash mem upper₁ upper₂ p l) := by
  refine ⟨fun hl' mem => ⟨loadn128_value hl', loadn128_pages hl hl'⟩,
    fun hl' => loadn256Correct_iff hl hl', ?_⟩
  intro hl' ghash mem mem' upper₁ upper₂ upper₁' upper₂' p' hoctets hworks hworks'
  have hbatches : l / (6 * 32) = 0 := by omega
  have hrest : l % (6 * 32) = l := by omega
  refine ⟨by rw [ghashAad256_short hl (by omega)]; rfl, ghashAad256_congr hoctets fun _ => ?_⟩
  rw [hbatches, hrest, Nat.zero_mul]
  exact ⟨hworks, hworks'⟩

/-- The memory of the counterexample holds ones. -/
def ones : Memory := fun _ => 1

/-- A table of powers for the counterexample. -/
def somePowers : ℕ → GhashPrecompute256 := fun _ => ⟨1 <<< 128, 1 <<< 128⟩

/-- Loads at the end of a page, and associated data there and at the start of memory. -/
theorem partial_loads_sample :
    ((loadn128 ones 4090 3).1 = padded 128 ones 4090 3 ∧
      StaysOnPages (loadn128 ones 4090 3).2 4090 3) ∧
    Loadn256Correct 4085 11 ∧
    ghashAad256 somePowers ones 0 0 0 11 = ghashAad256 somePowers ones 0 0 4085 11 :=
  ⟨(partial_loads_iff 4090 3 (by decide)).1 (by decide) ones,
    ((partial_loads_iff 4085 11 (by decide)).2.1 (by decide)).mpr (by decide),
    ((partial_loads_iff 4085 11 (by decide)).2.2 (by decide) somePowers ones ones 0 0 0 0 0
      (fun _ _ => rfl) (by decide) (by decide)).2⟩

/-- Twelve octets that start 25 octets before the end of a page: the last three of them are lost,
and the hash of associated data differs from the one of the same octets elsewhere. -/
theorem partial_load_loses_octets :
    (loadn256 ones 0 0 4071 12).1 ≠ padded 256 ones 4071 12 ∧
      ghashAad256 somePowers ones 0 0 4071 12 ≠ ghashAad256 somePowers ones 0 0 0 12 := by
  decide +kernel

end Picotls.Fusion
