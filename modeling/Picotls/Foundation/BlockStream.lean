import Picotls.Foundation.Memory

/-!
# Output that is computed block by block

A function gives the blocks of a stream, all of one size. A number of octets at its beginning takes
as many blocks as are needed, the last of which is cut. Written block by block they are written as
they would be at once.
-/

namespace Foundation

/-- The first blocks of a stream. -/
def blocks (f : ℕ → Bytes) (n : ℕ) : Bytes := (List.range n).flatMap f

/-- The first octets of a stream of blocks of a size. -/
def streamOctets (f : ℕ → Bytes) (size len : ℕ) : Bytes :=
  (blocks f ((len + size - 1) / size)).take len

@[simp] theorem blocks_zero (f : ℕ → Bytes) : blocks f 0 = [] := rfl

theorem blocks_succ (f : ℕ → Bytes) (n : ℕ) : blocks f (n + 1) = blocks f n ++ f n := by
  simp [blocks, List.range_succ]

section

variable {f : ℕ → Bytes} {size : ℕ} (hf : ∀ i, (f i).length = size)

include hf

theorem blocks_length (n : ℕ) : (blocks f n).length = n * size := by
  induction n with
  | zero => simp
  | succ n ih => rw [blocks_succ, List.length_append, ih, hf, Nat.succ_mul]

/-- More blocks than needed do not matter. -/
theorem blocks_take_add {len n : ℕ} (hn : len ≤ n * size) (k : ℕ) :
    (blocks f (n + k)).take len = (blocks f n).take len := by
  induction k with
  | zero => rfl
  | succ k ih =>
    rw [← Nat.add_assoc, blocks_succ, List.take_append_of_le_length, ih]
    rw [blocks_length hf, Nat.add_mul]
    omega

/-- The first octets are those of any number of blocks that is enough. -/
theorem streamOctets_eq (hsize : 0 < size) {len n : ℕ} (hn : len ≤ n * size) :
    streamOctets f size len = (blocks f n).take len := by
  have hneeded : (len + size - 1) / size ≤ n := by
    rw [Nat.div_le_iff_le_mul_add_pred hsize, Nat.mul_comm]
    omega
  have hdiv := Nat.div_add_mod (len + size - 1) size
  have hmod := Nat.mod_lt (len + size - 1) hsize
  have henough : len ≤ (len + size - 1) / size * size := by
    rw [Nat.mul_comm]
    omega
  obtain ⟨k, rfl⟩ := Nat.exists_eq_add_of_le hneeded
  rw [streamOctets, blocks_take_add hf henough]

theorem streamOctets_length (hsize : 0 < size) (len : ℕ) :
    (streamOctets f size len).length = len := by
  have henough : len ≤ len * size := Nat.le_mul_of_pos_right len hsize
  rw [streamOctets_eq hf hsize henough, List.length_take, blocks_length hf]
  omega

/-- Writing the next block behind the ones before it, as far as it is asked for. -/
theorem write_blocks_succ (m : Memory) (p : ℕ) {len n : ℕ} (hn : n * size ≤ len) :
    (m.write p (blocks f n)).write (p + n * size) ((f n).take (len - n * size)) =
      m.write p ((blocks f (n + 1)).take len) := by
  have hlength := blocks_length hf n
  rw [← hlength, Memory.write_write_append, blocks_succ, List.take_append,
    List.take_of_length_le (by omega : (blocks f n).length ≤ len)]

end

end Foundation
