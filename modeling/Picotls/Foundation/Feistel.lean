import Picotls.Foundation.Octets
import Mathlib.Logic.Function.Basic

/-!
# Passes over a state

A block cipher of the kind of Feistel makes passes over its state, each of which can be undone by
making it again. A sequence of such passes is undone by the passes in reverse order, whatever they
mix in. What a pass does not look at may differ: a relation that each pass keeps is kept by all.
-/

namespace Foundation

variable {ι σ α β κ : Type}

/-- Make the passes of a list, in order. -/
def passes (pass : ι → σ → σ) (order : List ι) (s : σ) : σ := order.foldl (fun s i => pass i s) s

section Passes

variable {pass : ι → σ → σ}

@[simp] theorem passes_nil (s : σ) : passes pass [] s = s := rfl

@[simp] theorem passes_cons (i : ι) (order : List ι) (s : σ) :
    passes pass (i :: order) s = passes pass order (pass i s) := rfl

theorem passes_append (order order' : List ι) (s : σ) :
    passes pass (order ++ order') s = passes pass order' (passes pass order s) :=
  List.foldl_append

/-- Passes that undo themselves are undone in reverse order. -/
theorem passes_reverse (h : ∀ i, Function.Involutive (pass i)) (order : List ι) (s : σ) :
    passes pass order.reverse (passes pass order s) = s := by
  induction order generalizing s with
  | nil => rfl
  | cons i order ih => rw [passes_cons, List.reverse_cons, passes_append, ih, passes_cons, h i s,
      passes_nil]

/-- A relation that each pass keeps is kept by all. -/
theorem passes_rel {r : σ → σ → Prop} (h : ∀ i s t, r s t → r (pass i s) (pass i t))
    (order : List ι) {s t : σ} (hst : r s t) : r (passes pass order s) (passes pass order t) := by
  induction order generalizing s t with
  | nil => exact hst
  | cons i order ih => exact ih (h i s t hst)

/-- What each pass preserves is preserved by all. -/
theorem passes_inv {p : σ → Prop} (h : ∀ i s, p s → p (pass i s)) (order : List ι) {s : σ}
    (hs : p s) : p (passes pass order s) := by
  induction order generalizing s with
  | nil => exact hs
  | cons i order ih => exact ih (h i s hs)

end Passes

/-! ## Mixing one half into the other -/

/-- Mix something that is made from the right half into the left half. -/
def mixLeft (mix : α → κ → α) (key : β → κ) (s : α × β) : α × β := (mix s.1 (key s.2), s.2)

/-- Mix something that is made from the left half into the right half. -/
def mixRight (mix : β → κ → β) (key : α → κ) (s : α × β) : α × β := (s.1, mix s.2 (key s.1))

theorem mixLeft_involutive {mix : α → κ → α} (h : ∀ a k, mix (mix a k) k = a) (key : β → κ) :
    Function.Involutive (mixLeft mix key) :=
  fun s => Prod.ext (h s.1 (key s.2)) rfl

theorem mixRight_involutive {mix : β → κ → β} (h : ∀ b k, mix (mix b k) k = b) (key : α → κ) :
    Function.Involutive (mixRight mix key) :=
  fun s => Prod.ext rfl (h s.2 (key s.1))

/-! ## Blocks of sixteen octets -/

/-- An array of sixteen octets. -/
abbrev Block16 := Fin 16 → UInt8

/-! ## Octets under a mask -/

theorem and_or_and_not (x l m : UInt8) : ((x &&& m) ||| (l &&& ~~~m)) &&& m = x &&& m := by
  apply UInt8.eq_of_toBitVec_eq
  ext i hi
  simp
  cases x.toBitVec[i] <;> cases m.toBitVec[i] <;> cases l.toBitVec[i] <;> rfl

theorem and_not_or_and (x l m : UInt8) : ((x &&& m) ||| (l &&& ~~~m)) &&& ~~~m = l &&& ~~~m := by
  apply UInt8.eq_of_toBitVec_eq
  ext i hi
  simp
  cases x.toBitVec[i] <;> cases m.toBitVec[i] <;> cases l.toBitVec[i] <;> rfl

theorem and_or_self (x m : UInt8) : (x &&& m) ||| (x &&& ~~~m) = x := by
  apply UInt8.eq_of_toBitVec_eq
  ext i hi
  simp
  cases x.toBitVec[i] <;> cases m.toBitVec[i] <;> rfl

/-- A mask applies to both octets of a sum. -/
theorem xor_and (x y m : UInt8) : (x ^^^ y) &&& m = (x &&& m) ^^^ (y &&& m) := by
  apply UInt8.eq_of_toBitVec_eq
  ext i hi
  simp
  cases x.toBitVec[i] <;> cases m.toBitVec[i] <;> cases y.toBitVec[i] <;> rfl

theorem and_ff (a : UInt8) : a &&& 0xff = a := by
  rw [show (0xff : UInt8) = -1 by decide, UInt8.and_neg_one]

end Foundation
