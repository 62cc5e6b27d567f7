import Picotls.Foundation.Octets

/-!
# Memory, live blocks and an allocator that may refuse

Memory holds an octet at every address. The blocks that are in use are disjoint; an allocator that
is asked for a block answers with an address or refuses, and an address counts only if the block
there is aligned as asked for, inside of the address space and apart from all blocks in use. The
rules say what is read after a write and what an allocation and a release leave alone.
-/

namespace Foundation

/-- The octet at every address. -/
abbrev Memory := ℕ → UInt8

namespace Memory

/-- A number of octets from an address on. -/
def read (m : Memory) (p n : ℕ) : Bytes := (List.range' p n).map m

/-- Store octets from an address on. -/
def write (m : Memory) (p : ℕ) (octets : Bytes) : Memory := fun a =>
  if p ≤ a then octets.getD (a - p) (m a) else m a

/-- Copy octets from one address to another; the two ranges may overlap. -/
def copy (m : Memory) (dst src n : ℕ) : Memory := m.write dst (m.read src n)

variable {m m' : Memory} {p q n k : ℕ} {octets : Bytes}

@[simp] theorem read_length (m : Memory) (p n : ℕ) : (m.read p n).length = n := by
  simp [read]

@[simp] theorem read_zero (m : Memory) (p : ℕ) : m.read p 0 = [] := rfl

/-- What is read in two parts. -/
theorem read_add (m : Memory) (p n k : ℕ) : m.read p (n + k) = m.read p n ++ m.read (p + n) k := by
  rw [read, ← List.range'_append_1, List.map_append]
  rfl

/-- The first of the octets that are read. -/
theorem read_take (m : Memory) (p : ℕ) (h : k ≤ n) : (m.read p n).take k = m.read p k := by
  obtain ⟨j, rfl⟩ := Nat.exists_eq_add_of_le h
  rw [read_add, List.take_append_of_le_length (by simp), List.take_of_length_le (by simp)]

theorem read_congr (h : ∀ a, p ≤ a → a < p + n → m a = m' a) : m.read p n = m'.read p n := by
  refine List.map_congr_left fun a ha => ?_
  obtain ⟨hle, hlt⟩ := List.mem_range'_1.mp ha
  exact h a hle hlt

/-- A write changes nothing outside of its range. -/
theorem write_apply_of_not_mem {a : ℕ} (h : a < p ∨ p + octets.length ≤ a) :
    m.write p octets a = m a := by
  rw [write]
  split
  · rw [List.getD_eq_getElem?_getD, List.getElem?_eq_none (by omega), Option.getD_none]
  · rfl

/-- What was written is read back. -/
@[simp] theorem read_write_self (m : Memory) (p : ℕ) (octets : Bytes) :
    (m.write p octets).read p octets.length = octets := by
  refine List.ext_getElem (by simp) fun i _ hi => ?_
  simp only [read, List.getElem_map, List.getElem_range', write]
  rw [if_pos (by omega), Nat.one_mul, Nat.add_sub_cancel_left, List.getD_eq_getElem?_getD,
    List.getElem?_eq_getElem hi, Option.getD_some]

/-- A write keeps what is read elsewhere. -/
theorem read_write_of_apart (h : q + n ≤ p ∨ p + octets.length ≤ q) :
    (m.write p octets).read q n = m.read q n :=
  read_congr fun a hle hlt => write_apply_of_not_mem (by omega)

@[simp] theorem write_nil (m : Memory) (p : ℕ) : m.write p [] = m := by
  funext a
  exact write_apply_of_not_mem (by simp only [List.length_nil]; omega)

/-- Octets written behind what is read extend it. -/
theorem read_write_append (m : Memory) (p n : ℕ) (octets : Bytes) :
    (m.write (p + n) octets).read p (n + octets.length) = m.read p n ++ octets := by
  rw [read_add, read_write_of_apart (.inl le_rfl), read_write_self]

/-- Octets written in the middle of what is read. -/
theorem read_write_middle (m : Memory) (p k n : ℕ) (octets : Bytes) :
    (m.write (p + k) octets).read p (k + (octets.length + n)) =
      m.read p k ++ (octets ++ m.read (p + k + octets.length) n) := by
  rw [read_add, read_add, read_write_of_apart (.inl le_rfl), read_write_self,
    read_write_of_apart (.inr le_rfl)]

/-- Two writes behind each other are one. -/
theorem write_write_append (m : Memory) (p : ℕ) (first second : Bytes) :
    (m.write p first).write (p + first.length) second = m.write p (first ++ second) := by
  funext a
  simp only [write, List.getD_eq_getElem?_getD]
  by_cases hbefore : p ≤ a
  · by_cases hbehind : p + first.length ≤ a
    · rw [if_pos hbehind, if_pos hbefore, if_pos hbefore, List.getElem?_append_right (by omega),
        List.getElem?_eq_none (by omega : first.length ≤ a - p), Option.getD_none, Nat.sub_add_eq]
    · rw [if_neg hbehind, if_pos hbefore, if_pos hbefore, List.getElem?_append_left (by omega),
        List.getElem?_eq_getElem (by omega : a - p < first.length), Option.getD_some]
  · rw [if_neg (by omega), if_neg hbefore, if_neg hbefore]

/-- A write hides an earlier one that is not longer. -/
theorem write_write_self (m : Memory) (p : ℕ) {first second : Bytes}
    (h : first.length ≤ second.length) :
    (m.write p first).write p second = m.write p second := by
  funext a
  simp only [write, List.getD_eq_getElem?_getD]
  by_cases hbefore : p ≤ a
  · rw [if_pos hbefore, if_pos hbefore, if_pos hbefore]
    by_cases hinside : a - p < second.length
    · rw [List.getElem?_eq_getElem hinside, Option.getD_some, Option.getD_some]
    · rw [List.getElem?_eq_none (by omega : second.length ≤ a - p), Option.getD_none,
        Option.getD_none, List.getElem?_eq_none (by omega : first.length ≤ a - p), Option.getD_none]
  · rw [if_neg hbefore, if_neg hbefore, if_neg hbefore]

/-- Copied octets are read at their new place. -/
@[simp] theorem read_copy (m : Memory) (dst src n : ℕ) :
    (m.copy dst src n).read dst n = m.read src n := by
  have h := read_write_self m dst (m.read src n)
  rwa [read_length] at h

end Memory

/-! ## Blocks in use -/

/-- A block of memory in use, obtained from the allocator or not. -/
structure Block where
  base : ℕ
  size : ℕ
  owned : Bool
  deriving DecidableEq

namespace Block

/-- Two blocks have no octet in common. -/
def Apart (b c : Block) : Prop := b.base + b.size ≤ c.base ∨ c.base + c.size ≤ b.base

instance (b c : Block) : Decidable (b.Apart c) :=
  inferInstanceAs (Decidable (_ ∨ _))

end Block

/-- Memory with the blocks that are in use, and the number of requests made to the allocator. -/
structure Heap where
  memory : Memory
  blocks : List Block
  requests : ℕ
  apart : blocks.Pairwise Block.Apart

namespace Heap

/-- An address at which a block can be granted: aligned, in the address space, and apart from
everything in use. -/
def CanGrant (h : Heap) (limit size alignment p : ℕ) : Prop :=
  p ≠ 0 ∧ alignment ∣ p ∧ p + size ≤ limit ∧ ∀ b ∈ h.blocks, Block.Apart ⟨p, size, true⟩ b

instance (h : Heap) (limit size alignment p : ℕ) : Decidable (h.CanGrant limit size alignment p) :=
  inferInstanceAs (Decidable (_ ∧ _ ∧ _ ∧ _))

/-- The same blocks with other contents. -/
def store (h : Heap) (memory : Memory) : Heap := { h with memory }

@[simp] theorem store_memory (h : Heap) (memory : Memory) : (h.store memory).memory = memory := rfl

@[simp] theorem store_blocks (h : Heap) (memory : Memory) : (h.store memory).blocks = h.blocks :=
  rfl

/-- Ask for a block. The answer depends on the number of requests so far, the size and the
alignment. -/
def allocate (limit : ℕ) (answer : ℕ → ℕ → ℕ → Option ℕ) (size alignment : ℕ) (h : Heap) :
    Option ℕ × Heap :=
  match answer h.requests size alignment with
  | none => (none, { h with requests := h.requests + 1 })
  | some p =>
    if hgrant : h.CanGrant limit size alignment p then
      (some p,
        { memory := h.memory
          blocks := ⟨p, size, true⟩ :: h.blocks
          requests := h.requests + 1
          apart := List.pairwise_cons.mpr ⟨hgrant.2.2.2, h.apart⟩ })
    else (none, { h with requests := h.requests + 1 })

/-- Release a block that was obtained from the allocator; there is no result if there is none at
the address. -/
def free (p : ℕ) (h : Heap) : Option Heap :=
  if h.blocks.any fun b => b.owned ∧ b.base = p then
    some { h with
      blocks := h.blocks.eraseP fun b => b.owned ∧ b.base = p
      apart := h.apart.sublist List.eraseP_sublist }
  else none

variable {limit size alignment p : ℕ} {answer : ℕ → ℕ → ℕ → Option ℕ} {h h' : Heap}

/-- Where a block is granted, and what the request has changed. -/
theorem allocate_eq_some (hrun : h.allocate limit answer size alignment = (some p, h')) :
    answer h.requests size alignment = some p ∧ h.CanGrant limit size alignment p ∧
      h'.memory = h.memory ∧ h'.blocks = ⟨p, size, true⟩ :: h.blocks := by
  unfold allocate at hrun
  cases hanswer : answer h.requests size alignment with
  | none => simp [hanswer] at hrun
  | some q =>
    simp only [hanswer] at hrun
    by_cases hgrant : h.CanGrant limit size alignment q
    · rw [dif_pos hgrant] at hrun
      cases hrun
      exact ⟨rfl, hgrant, rfl, rfl⟩
    · rw [dif_neg hgrant] at hrun
      cases hrun

/-- A refused request changes nothing. -/
theorem allocate_eq_none (hrun : h.allocate limit answer size alignment = (none, h')) :
    h'.memory = h.memory ∧ h'.blocks = h.blocks := by
  unfold allocate at hrun
  cases hanswer : answer h.requests size alignment with
  | none =>
    simp only [hanswer] at hrun
    cases hrun
    exact ⟨rfl, rfl⟩
  | some q =>
    simp only [hanswer] at hrun
    by_cases hgrant : h.CanGrant limit size alignment q
    · rw [dif_pos hgrant] at hrun
      cases hrun
    · rw [dif_neg hgrant] at hrun
      cases hrun
      exact ⟨rfl, rfl⟩

/-- An address at which a block can be granted is granted. -/
theorem allocate_of_canGrant (hanswer : answer h.requests size alignment = some p)
    (hgrant : h.CanGrant limit size alignment p) :
    ∃ h', h.allocate limit answer size alignment = (some p, h') := by
  simp only [allocate, hanswer, dif_pos hgrant]
  exact ⟨_, rfl⟩

/-- Every request is counted. -/
theorem allocate_requests (h : Heap) :
    (h.allocate limit answer size alignment).2.requests = h.requests + 1 := by
  unfold allocate
  cases answer h.requests size alignment with
  | none => rfl
  | some q =>
    dsimp only
    split <;> rfl

/-- Releasing a block is not a request. -/
theorem free_requests (hrun : h.free p = some h') : h'.requests = h.requests := by
  unfold free at hrun
  split at hrun
  · cases hrun
    rfl
  · cases hrun

/-- A block that was obtained from the allocator can be released. -/
theorem free_of_mem (hmem : ⟨p, size, true⟩ ∈ h.blocks) :
    ∃ h', h.free p = some h' ∧ h'.memory = h.memory ∧
      h'.blocks = h.blocks.eraseP fun b => b.owned ∧ b.base = p := by
  have hany : (h.blocks.any fun b => b.owned ∧ b.base = p) = true :=
    List.any_eq_true.mpr ⟨_, hmem, by simp⟩
  exact ⟨_, if_pos hany, rfl, rfl⟩

end Heap

end Foundation
