import Mathlib.Logic.Relation
import Mathlib.Order.Defs.Unbundled

/-!
# Procedures with an environment, a state, and failures that keep the state

An imperative procedure reads an environment, updates a state, and either returns a value or
stops with a failure. The state reached before a failure is kept, because a caller can observe
it. The rules here are the ones later proofs are assembled from: how a run decomposes at a
sequencing point, and how a preorder on states that every primitive step respects is respected
by every procedure built from those steps.
-/

namespace Foundation

/-- A procedure over environments `ρ`, states `σ`, failures `ε`, and results `α`. -/
def Procedure (ρ σ ε α : Type) : Type := ρ → σ → Except ε α × σ

namespace Procedure

variable {ρ σ ε α β : Type}

/-- Run a procedure and continue with its result; a failure skips the continuation. -/
protected def bind (m : Procedure ρ σ ε α) (f : α → Procedure ρ σ ε β) :
    Procedure ρ σ ε β := fun r s =>
  match m r s with
  | (.ok a, s') => f a r s'
  | (.error e, s') => (.error e, s')

instance : Monad (Procedure ρ σ ε) where
  pure a := fun _ s => (.ok a, s)
  bind := Procedure.bind

/-- Stop with a failure in the current state. -/
def fail (e : ε) : Procedure ρ σ ε α := fun _ s => (.error e, s)

/-- Observe the environment and the state through a function. -/
def observe (f : ρ → σ → α) : Procedure ρ σ ε α := fun r s => (.ok (f r s), s)

/-- Update the state by a function that may consult the environment. -/
def update (f : ρ → σ → σ) : Procedure ρ σ ε Unit := fun r s => (.ok (), f r s)

/-- Run a procedure and return its failure as a value. -/
def attempt (m : Procedure ρ σ ε α) : Procedure ρ σ ε (Except ε α) := fun r s =>
  (.ok (m r s).1, (m r s).2)

/-- A stateless fallible computation as a procedure. -/
def ofExcept (x : Except ε α) : Procedure ρ σ ε α := fun _ s => (x, s)

instance : MonadLift (Except ε) (Procedure ρ σ ε) where
  monadLift := ofExcept

/-- Run a body once for every element of a list, in order. -/
def forEach (body : α → Procedure ρ σ ε Unit) : List α → Procedure ρ σ ε Unit
  | [] => pure ()
  | a :: as => do
    body a
    forEach body as

variable {m : Procedure ρ σ ε α} {f : α → Procedure ρ σ ε β} {r : ρ} {s s' : σ}

@[simp] theorem pure_run (a : α) (r : ρ) (s : σ) :
    (pure a : Procedure ρ σ ε α) r s = (.ok a, s) := rfl

@[simp] theorem fail_run (e : ε) (r : ρ) (s : σ) :
    (fail e : Procedure ρ σ ε α) r s = (.error e, s) := rfl

@[simp] theorem observe_run (f : ρ → σ → α) (r : ρ) (s : σ) :
    (observe f : Procedure ρ σ ε α) r s = (.ok (f r s), s) := rfl

@[simp] theorem update_run (f : ρ → σ → σ) (r : ρ) (s : σ) :
    (update f : Procedure ρ σ ε Unit) r s = (.ok (), f r s) := rfl

@[simp] theorem attempt_run (m : Procedure ρ σ ε α) (r : ρ) (s : σ) :
    attempt m r s = (.ok (m r s).1, (m r s).2) := rfl

@[simp] theorem ofExcept_run (x : Except ε α) (r : ρ) (s : σ) :
    (ofExcept x : Procedure ρ σ ε α) r s = (x, s) := rfl

@[simp] theorem liftM_run (x : Except ε α) (r : ρ) (s : σ) :
    (liftM x : Procedure ρ σ ε α) r s = (x, s) := rfl

/-- A sequenced run after its first procedure returned. -/
theorem bind_of_ok {a : α} (h : m r s = (.ok a, s')) : (m >>= f) r s = f a r s' := by
  change Procedure.bind m f r s = _
  simp only [Procedure.bind, h]

/-- A sequenced run after its first procedure failed. -/
theorem bind_of_error {e : ε} (h : m r s = (.error e, s')) : (m >>= f) r s = (.error e, s') := by
  change Procedure.bind m f r s = _
  simp only [Procedure.bind, h]

/-- A sequenced run as a case distinction on its first procedure. -/
theorem bind_run (m : Procedure ρ σ ε α) (f : α → Procedure ρ σ ε β) (r : ρ) (s : σ) :
    (m >>= f) r s = match m r s with
      | (.ok a, s') => f a r s'
      | (.error e, s') => (.error e, s') := rfl

/-- A sequenced run returns exactly if both parts do. -/
theorem bind_eq_ok {s'' : σ} {b : β} : (m >>= f) r s = (.ok b, s'') ↔
    ∃ a s', m r s = (.ok a, s') ∧ f a r s' = (.ok b, s'') := by
  rw [bind_run]
  rcases m r s with ⟨e | a, s'⟩
  · simp
  · exact ⟨fun h => ⟨a, s', rfl, h⟩, by rintro ⟨_, _, ⟨⟩, h⟩; exact h⟩

/-- Sequences are independent of how they are grouped. -/
theorem bind_assoc {γ : Type} (m : Procedure ρ σ ε α) (f : α → Procedure ρ σ ε β)
    (g : β → Procedure ρ σ ε γ) : m >>= f >>= g = m >>= fun a => f a >>= g := by
  funext r s
  rw [bind_run, bind_run, bind_run]
  rcases m r s with ⟨e | a, s'⟩ <;> rfl

/-- A stateless sequence returns exactly if both parts do. -/
theorem except_bind_eq_ok {x : Except ε α} {f : α → Except ε β} {b : β} :
    (x >>= f) = .ok b ↔ ∃ a, x = .ok a ∧ f a = .ok b := by
  cases x with
  | error e =>
    constructor
    · intro h
      cases h
    · rintro ⟨a, h, -⟩
      cases h
  | ok a =>
    constructor
    · intro h
      exact ⟨a, rfl, h⟩
    · rintro ⟨a', h, hf⟩
      cases h
      exact hf

/-- A stateless computation that succeeds leaves the state alone. -/
theorem liftM_eq_ok {x : Except ε α} {a : α} :
    (liftM x : Procedure ρ σ ε α) r s = (.ok a, s') ↔ x = .ok a ∧ s' = s := by
  rw [liftM_run, Prod.mk.injEq, eq_comm (a := s)]

/-- A sequenced run behind a result. -/
theorem liftM_bind_of_ok {x : Except ε α} {a : α} (h : x = .ok a) :
    ((liftM x : Procedure ρ σ ε α) >>= f) r s = f a r s :=
  bind_of_ok (liftM_eq_ok.mpr ⟨h, rfl⟩)

theorem liftM_bind_eq_ok {x : Except ε α} {b : β}
    (h : ((liftM x : Procedure ρ σ ε α) >>= f) r s = (.ok b, s')) :
    ∃ a, x = .ok a ∧ f a r s = (.ok b, s') := by
  obtain ⟨a, s₁, hx, hf⟩ := bind_eq_ok.mp h
  obtain ⟨hok, rfl⟩ := liftM_eq_ok.mp hx
  exact ⟨a, hok, hf⟩

theorem observe_bind (g : ρ → σ → α) (f : α → Procedure ρ σ ε β) (r : ρ) (s : σ) :
    (observe g >>= f) r s = f (g r s) r s := rfl

theorem attempt_bind (m : Procedure ρ σ ε α) (f : Except ε α → Procedure ρ σ ε β) (r : ρ) (s : σ) :
    (attempt m >>= f) r s = f (m r s).1 r (m r s).2 := rfl

/-- What holds of a sequenced run, shown for its first part failing and for its second part. -/
theorem bind_cases {Q : Except ε β × σ → Prop}
    (herror : ∀ e s', m r s = (.error e, s') → Q (.error e, s'))
    (hok : ∀ a s', m r s = (.ok a, s') → Q (f a r s')) : Q ((m >>= f) r s) := by
  rw [bind_run]
  rcases hm : m r s with ⟨e | a, s'⟩
  · exact herror e s' hm
  · exact hok a s' hm

/-- What holds of a sequenced run, when the first part establishes a condition on the state that
suffices if it fails. -/
theorem bind_post {P : σ → Prop} {Q : Except ε β × σ → Prop} (hm : P (m r s).2)
    (herror : ∀ e s', P s' → Q (.error e, s'))
    (hok : ∀ a s', m r s = (.ok a, s') → P s' → Q (f a r s')) : Q ((m >>= f) r s) := by
  refine bind_cases (fun e s' hrun => ?_) fun a s' hrun => ?_ <;> rw [hrun] at hm
  · exact herror e s' hm
  · exact hok a s' hrun hm

/-! ## Relations respected by all runs -/

/-- Every run of the procedure, failed runs included, relates its first state to its last. The
rules of composition are instances, so a procedure built from parts that respect a preorder is
found to respect it. -/
class Respects (R : σ → σ → Prop) (m : Procedure ρ σ ε α) : Prop where
  relates : ∀ r s, R s (m r s).2

namespace Respects

variable {R : σ → σ → Prop}

/-- The states of a run are related. -/
theorem run [h : Respects R m] {s t : σ} {x : Except ε α} (hrun : m r s = (x, t)) : R s t := by
  have hrelates := h.relates r s
  rwa [hrun] at hrelates

/-- Catching a failure changes no state. -/
instance attempt (m : Procedure ρ σ ε α) [h : Respects R m] : Respects R (Procedure.attempt m) :=
  ⟨h.relates⟩

/-- A conditional respects what both branches respect. -/
instance ite (c : Prop) [Decidable c] (m m' : Procedure ρ σ ε α) [h : Respects R m]
    [h' : Respects R m'] : Respects R (if c then m else m') := by
  split
  · exact h
  · exact h'

variable [IsPreorder σ R]

instance pure (a : α) : Respects R (Pure.pure a : Procedure ρ σ ε α) :=
  ⟨fun _ s => refl_of R s⟩

instance fail (e : ε) : Respects R (Procedure.fail e : Procedure ρ σ ε α) :=
  ⟨fun _ s => refl_of R s⟩

instance observe (f : ρ → σ → α) : Respects R (Procedure.observe f : Procedure ρ σ ε α) :=
  ⟨fun _ s => refl_of R s⟩

instance liftM (x : Except ε α) : Respects R (MonadLiftT.monadLift x : Procedure ρ σ ε α) :=
  ⟨fun _ s => refl_of R s⟩

/-- Sequencing respects a preorder that both parts respect. -/
theorem seq (h : Respects R m) (hf : ∀ a, Respects R (f a)) : Respects R (m >>= f) := by
  constructor
  intro r s
  rw [bind_run]
  have hm := h.relates r s
  rcases hrun : m r s with ⟨x, s'⟩
  rw [hrun] at hm
  cases x with
  | ok a => exact trans_of R hm ((hf a).relates r s')
  | error e => exact hm

instance bind (m : Procedure ρ σ ε α) (f : α → Procedure ρ σ ε β) [h : Respects R m]
    [hf : ∀ a, Respects R (f a)] : Respects R (m >>= f) := seq h hf

/-- A part whose result is not used, which keeps the search for instances short. -/
instance andThen (m : Procedure ρ σ ε α) (n : Procedure ρ σ ε β) [h : Respects R m]
    [hn : Respects R n] : Respects R (m >>= fun _ => n) := seq h fun _ => hn

instance map (g : α → β) (m : Procedure ρ σ ε α) [h : Respects R m] : Respects R (g <$> m) :=
  inferInstanceAs (Respects R (m >>= fun a => Pure.pure (g a)))

/-- A loop over a list respects what its body respects. -/
instance forEach (body : α → Procedure ρ σ ε Unit) [h : ∀ a, Respects R (body a)] (as : List α) :
    Respects R (Procedure.forEach body as) := by
  induction as with
  | nil => exact pure ()
  | cons a as ih => exact bind (body a) fun _ => Procedure.forEach body as

end Respects

/-- Every run of the procedure relates its first state to its last, or ends in a given failure. -/
class RespectsUnless (R : σ → σ → Prop) (e : ε) (m : Procedure ρ σ ε α) : Prop where
  relates : ∀ r s, R s (m r s).2 ∨ (m r s).1 = .error e

namespace RespectsUnless

variable {R : σ → σ → Prop} {e : ε}

instance (priority := low) of_respects (m : Procedure ρ σ ε α) [h : Respects R m] :
    RespectsUnless R e m :=
  ⟨fun r s => .inl (h.relates r s)⟩

instance ite (c : Prop) [Decidable c] (m m' : Procedure ρ σ ε α) [h : RespectsUnless R e m]
    [h' : RespectsUnless R e m'] : RespectsUnless R e (if c then m else m') := by
  split
  · exact h
  · exact h'

/-- A sequenced run from a state, when the rest of it is known only for what the first part
returns. -/
theorem bind_run [IsPreorder σ R] (h : RespectsUnless R e m)
    (hf : ∀ a s', m r s = (.ok a, s') → R s' (f a r s').2 ∨ (f a r s').1 = .error e) :
    R s ((m >>= f) r s).2 ∨ ((m >>= f) r s).1 = .error e := by
  have hm := h.relates r s
  refine bind_cases (Q := fun p => R s p.2 ∨ p.1 = .error e) (fun e' s' hrun => ?_)
    fun a s' hrun => ?_ <;> rw [hrun] at hm
  · exact hm.imp_right fun heq => by rw [Except.error.inj heq]
  · rcases hm with hm | heq
    · exact (hf a s' hrun).imp_left (trans_of R hm)
    · cases heq

/-- Sequencing adds no failures in which a preorder is not respected. -/
theorem seq [IsPreorder σ R] (h : RespectsUnless R e m) (hf : ∀ a, RespectsUnless R e (f a)) :
    RespectsUnless R e (m >>= f) :=
  ⟨fun r _ => h.bind_run fun a s' _ => (hf a).relates r s'⟩

instance bind [IsPreorder σ R] (m : Procedure ρ σ ε α) (f : α → Procedure ρ σ ε β)
    [h : RespectsUnless R e m] [hf : ∀ a, RespectsUnless R e (f a)] :
    RespectsUnless R e (m >>= f) :=
  seq h hf

instance andThen [IsPreorder σ R] (m : Procedure ρ σ ε α) (n : Procedure ρ σ ε β)
    [h : RespectsUnless R e m] [hn : RespectsUnless R e n] :
    RespectsUnless R e (m >>= fun _ => n) :=
  seq h fun _ => hn

end RespectsUnless

/-! ## Failures -/

/-- Every failure of the procedure is of a given kind, which may depend on the environment. -/
class FailsWith (F : ρ → ε → Prop) (m : Procedure ρ σ ε α) : Prop where
  failure : ∀ r s e s', m r s = (.error e, s') → F r e

namespace FailsWith

variable {F : ρ → ε → Prop}

instance pure (a : α) : FailsWith F (Pure.pure a : Procedure ρ σ ε α) :=
  ⟨fun _ _ _ _ h => by cases h⟩

instance observe (f : ρ → σ → α) : FailsWith F (Procedure.observe f : Procedure ρ σ ε α) :=
  ⟨fun _ _ _ _ h => by cases h⟩

instance update (f : ρ → σ → σ) : FailsWith F (Procedure.update f : Procedure ρ σ ε Unit) :=
  ⟨fun _ _ _ _ h => by cases h⟩

/-- A caught failure is none. -/
instance attempt (m : Procedure ρ σ ε α) : FailsWith F (Procedure.attempt m) :=
  ⟨fun _ _ _ _ h => by cases h⟩

instance ite (c : Prop) [Decidable c] (m m' : Procedure ρ σ ε α) [h : FailsWith F m]
    [h' : FailsWith F m'] : FailsWith F (if c then m else m') := by
  split
  · exact h
  · exact h'

/-- A sequence fails where one of its parts does. -/
theorem seq (h : FailsWith F m) (hf : ∀ a, FailsWith F (f a)) : FailsWith F (m >>= f) := by
  constructor
  intro r s e s'
  refine bind_cases (Q := fun p => p = (.error e, s') → F r e) (fun e' s₁ hrun heq => ?_)
    fun a s₁ hrun heq => ?_
  · cases heq
    exact h.failure r s e s' hrun
  · exact (hf a).failure r s₁ e s' heq

instance bind (m : Procedure ρ σ ε α) (f : α → Procedure ρ σ ε β) [h : FailsWith F m]
    [hf : ∀ a, FailsWith F (f a)] : FailsWith F (m >>= f) := seq h hf

instance andThen (m : Procedure ρ σ ε α) (n : Procedure ρ σ ε β) [h : FailsWith F m]
    [hn : FailsWith F n] : FailsWith F (m >>= fun _ => n) := seq h fun _ => hn

instance forEach (body : α → Procedure ρ σ ε Unit) [h : ∀ a, FailsWith F (body a)] (as : List α) :
    FailsWith F (Procedure.forEach body as) := by
  induction as with
  | nil => exact pure ()
  | cons a as ih => exact bind (body a) fun _ => Procedure.forEach body as

end FailsWith

/-! ## Outcomes -/

/-- The run failed with a failure that is allowed for, or returned with what is demanded. -/
def Ends (F : ε → Prop) (Q : α → σ → Prop) : Except ε α × σ → Prop
  | (.ok a, s) => Q a s
  | (.error e, _) => F e

namespace Ends

variable {F F' : ε → Prop} {P : α → σ → Prop} {Q : β → σ → Prop} {r : ρ} {s : σ}

theorem mono {P' : α → σ → Prop} {outcome : Except ε α × σ} (h : Ends F P outcome)
    (hF : ∀ e, F e → F' e) (hP : ∀ a s, P a s → P' a s) : Ends F' P' outcome := by
  rcases outcome with ⟨e | a, s⟩
  · exact hF e h
  · exact hP a s h

theorem ok {outcome : Except ε α × σ} {a : α} (h : Ends F P outcome) (hrun : outcome = (.ok a, s)) :
    P a s := by
  rw [hrun] at h
  exact h

theorem error {outcome : Except ε α × σ} {e : ε} (h : Ends F P outcome)
    (hrun : outcome = (.error e, s)) : F e := by
  rw [hrun] at h
  exact h

/-- The second part of a sequence starts with what the first part returns with. -/
theorem bind (hm : Ends F P (m r s)) (hf : ∀ a s', P a s' → Ends F Q (f a r s')) :
    Ends F Q ((m >>= f) r s) := by
  refine bind_cases (fun e s' hrun => ?_) fun a s' hrun => ?_
  · exact hm.error hrun
  · exact hf a s' (hm.ok hrun)

/-- A procedure that fails only in a known way ends with what its returning runs satisfy. -/
theorem of_failsWith {G : ρ → ε → Prop} [hm : FailsWith G m]
    (hP : ∀ a s', m r s = (.ok a, s') → P a s') : Ends (G r) P (m r s) := by
  rcases hrun : m r s with ⟨e | a, s'⟩
  · exact hm.failure r s e s' hrun
  · exact hP a s' hrun

end Ends

/-! ## Pairs of runs -/

/-- If both procedures return from related states, they return the same value in related states,
whatever their environments are. -/
class Agrees (R : σ → σ → Prop) (m m' : Procedure ρ σ ε α) : Prop where
  agree : ∀ {r r' s s' a a' t t'}, R s s' → m r s = (.ok a, t) → m' r' s' = (.ok a', t') →
    a = a' ∧ R t t'

namespace Agrees

variable {R : σ → σ → Prop}

instance pure (a : α) : Agrees R (Pure.pure a : Procedure ρ σ ε α) (Pure.pure a) where
  agree hs h h' := by
    cases h
    cases h'
    exact ⟨rfl, hs⟩

instance fail (e : ε) (m : Procedure ρ σ ε α) : Agrees R (Procedure.fail e) m :=
  ⟨fun _ h _ => by cases h⟩

instance ite (c : Prop) [Decidable c] (m m' n n' : Procedure ρ σ ε α) [h : Agrees R m n]
    [h' : Agrees R m' n'] : Agrees R (if c then m else m') (if c then n else n') := by
  split
  · exact h
  · exact h'

/-- Sequences agree whose parts agree. -/
theorem seq {m n : Procedure ρ σ ε α} {f g : α → Procedure ρ σ ε β} (h : Agrees R m n)
    (hf : ∀ a, Agrees R (f a) (g a)) : Agrees R (m >>= f) (n >>= g) where
  agree hs hrun hrun' := by
    obtain ⟨a, t, hm, hft⟩ := bind_eq_ok.mp hrun
    obtain ⟨a', t', hn, hgt⟩ := bind_eq_ok.mp hrun'
    obtain ⟨rfl, ht⟩ := h.agree hs hm hn
    exact (hf a).agree ht hft hgt

instance bind (m n : Procedure ρ σ ε α) (f g : α → Procedure ρ σ ε β) [h : Agrees R m n]
    [hf : ∀ a, Agrees R (f a) (g a)] : Agrees R (m >>= f) (n >>= g) := seq h hf

instance andThen (m n : Procedure ρ σ ε α) (m' n' : Procedure ρ σ ε β) [h : Agrees R m n]
    [h' : Agrees R m' n'] : Agrees R (m >>= fun _ => m') (n >>= fun _ => n') := seq h fun _ => h'

end Agrees

/-! ## Effects -/

section Effects

variable {ι : Type} {Step : ι → σ → σ → Prop} {E F : List ι}

/-- Finitely many steps, each of one of the given effects. -/
def Steps (Step : ι → σ → σ → Prop) (E : List ι) : σ → σ → Prop :=
  Relation.ReflTransGen fun s s' => ∃ e ∈ E, Step e s s'

instance : IsPreorder σ (Steps Step E) where
  refl _ := .refl
  trans _ _ _ := .trans

/-- What every step of the given effects preserves is preserved by finitely many of them. -/
theorem Steps.preserves {P : σ → Prop} (h : Steps Step E s s')
    (hstep : ∀ e ∈ E, ∀ t t', Step e t t' → P t → P t') (hs : P s) : P s' := by
  induction h with
  | refl => exact hs
  | tail _ hlast ih =>
    obtain ⟨e, he, hlast⟩ := hlast
    exact hstep e he _ _ hlast ih

/-- More effects allow more steps. -/
theorem Steps.mono (h : Steps Step F s s') (hFE : ∀ e ∈ F, e ∈ E) : Steps Step E s s' := by
  refine Relation.ReflTransGen.mono ?_ s s' h
  rintro t t' ⟨e, he, hstep⟩
  exact ⟨e, hFE e he, hstep⟩

/-- Membership in a list of effects, for instance search. -/
class Listed (e : ι) (E : List ι) : Prop where
  mem : e ∈ E

instance (e : ι) (E : List ι) : Listed e (e :: E) := ⟨List.mem_cons_self⟩

instance (e e' : ι) (E : List ι) [h : Listed e E] : Listed e (e' :: E) :=
  ⟨List.mem_cons_of_mem e' h.mem⟩

/-- Inclusion of lists of effects, for instance search. -/
class Included (F E : List ι) : Prop where
  subset : ∀ e ∈ F, e ∈ E

instance (E : List ι) : Included [] E := ⟨fun _ h => absurd h List.not_mem_nil⟩

instance (priority := low) (e : ι) (F E : List ι) [he : Listed e E] [hF : Included F E] :
    Included (e :: F) E where
  subset e' h := by
    rcases List.mem_cons.mp h with rfl | h
    · exact he.mem
    · exact hF.subset e' h

instance (e : ι) (F E : List ι) [h : Included F E] : Included F (e :: E) :=
  ⟨fun e' he => List.mem_cons_of_mem e (h.subset e' he)⟩

instance (e : ι) (F E : List ι) [h : Included F E] : Included (e :: F) (e :: E) :=
  ⟨List.cons_subset_cons e h.subset⟩

/-- The effects declared for a procedure: all its runs consist of steps of these. -/
class Performs (Step : ι → σ → σ → Prop) (E : outParam (List ι)) (m : Procedure ρ σ ε α) :
    Prop where
  steps : Respects (Steps Step E) m

/-- A procedure keeps to every list of effects that includes the declared one. -/
instance (m : Procedure ρ σ ε α) [h : Performs Step F m] [hFE : Included F E] :
    Respects (Steps Step E) m where
  relates r s := (h.steps.relates r s).mono hFE.subset

end Effects

end Procedure

section

variable {ρ σ ε : Type} {c : Prop} [Decidable c] {step : Procedure ρ σ ε Unit}

/-- Run a step only if a condition holds. -/
def runIf (condition : Prop) [Decidable condition] (step : Procedure ρ σ ε Unit) :
    Procedure ρ σ ε Unit :=
  if condition then step else pure ()

theorem runIf_of (hc : c) : runIf c step = step := if_pos hc

theorem runIf_of_not (hc : ¬ c) : runIf c step = pure () := if_neg hc

end

end Foundation
