/-
  Boundary.Proofs.Triple — what computations leave behind.

  `Ends P x Q`: from a state that meets `P`, what `x` answers and the state it leaves
  meet `Q`. `Does P x Q E` is the same for a computation that may fail: its failure and
  the state it leaves then meet `E`. There is one rule for every way computations are put together
  here, so a function is followed step by step, with what is known in between.
-/
import Boundary.Host.Resolve

namespace Boundary

variable {σ ρ τ ε α β : Type}

/-- From states that meet `P`, the answer and the state left meet `Q`. -/
def Ends (P : σ → Prop) (x : StateM σ ρ) (Q : ρ → σ → Prop) : Prop :=
  ∀ s, P s → Q (x s).1 (x s).2

def Either (Q : α → σ → Prop) (E : ε → σ → Prop) : Except ε α → σ → Prop
  | .ok a, s => Q a s
  | .error e, s => E e s

/-- From states that meet `P`, an answer and the state left meet `Q`, a failure and the state
    left meet `E`. -/
def Does (P : σ → Prop) (x : ExceptT ε (StateM σ) α) (Q : α → σ → Prop) (E : ε → σ → Prop) :
    Prop :=
  Ends P x.run (Either Q E)

/-! ## Computations that answer -/

namespace Ends

variable {P P' : σ → Prop} {Q Q' : ρ → σ → Prop} {x : StateM σ ρ}

theorem pure {a : ρ} (h : ∀ s, P s → Q a s) : Ends P (pure a : StateM σ ρ) Q := h

theorem bind {f : ρ → StateM σ τ} {R : τ → σ → Prop} (hx : Ends P x Q)
    (hf : ∀ a, Ends (Q a) (f a) R) : Ends P (x >>= f) R :=
  fun s hs => hf _ _ (hx s hs)

theorem mono (hx : Ends P x Q) (hP : ∀ s, P' s → P s) (hQ : ∀ a s, Q a s → Q' a s) :
    Ends P' x Q' :=
  fun s hs => hQ _ _ (hx s (hP s hs))

theorem post (hx : Ends P x Q) (hQ : ∀ a s, Q a s → Q' a s) : Ends P x Q' :=
  hx.mono (fun _ h => h) hQ

theorem pre (hx : Ends P x Q) (hP : ∀ s, P' s → P s) : Ends P' x Q :=
  hx.mono hP fun _ _ h => h

theorem modify {f : σ → σ} {Q : PUnit → σ → Prop} (h : ∀ s, P s → Q ⟨⟩ (f s)) :
    Ends P (modify f : StateM σ PUnit) Q := h

/-- What is known apart from the state is known in between. -/
theorem assume {φ : Prop} (h : φ → Ends P x Q) : Ends (fun s => φ ∧ P s) x Q :=
  fun s hs => h hs.1 s hs.2

end Ends

/-! ## Computations that may fail -/

namespace Does

variable {P P' : σ → Prop} {Q Q' : α → σ → Prop} {E E' : ε → σ → Prop}
  {x : ExceptT ε (StateM σ) α}

/-- From the run itself. -/
theorem of_run (h : ∀ s, P s → (∃ a s', x.run s = (.ok a, s') ∧ Q a s')
    ∨ ∃ e s', x.run s = (.error e, s') ∧ E e s') : Does P x Q E := by
  intro s hs
  rcases h s hs with ⟨a, s', hr, hq⟩ | ⟨e, s', hr, he⟩
  · rw [hr]
    exact hq
  · rw [hr]
    exact he

theorem pure {a : α} (h : ∀ s, P s → Q a s) :
    Does P (pure a : ExceptT ε (StateM σ) α) Q E := h

theorem throw {e : ε} (h : ∀ s, P s → E e s) :
    Does P (throw e : ExceptT ε (StateM σ) α) Q E := h

/-- What comes after a failure is not run. -/
theorem throw_bind {e : ε} {f : α → ExceptT ε (StateM σ) β} {R : β → σ → Prop}
    (h : ∀ s, P s → E e s) : Does P (MonadExcept.throw e >>= f) R E := h

theorem bind {f : α → ExceptT ε (StateM σ) β} {R : β → σ → Prop} (hx : Does P x Q E)
    (hf : ∀ a, Does (Q a) (f a) R E) : Does P (x >>= f) R E := by
  intro s hs
  have h := hx s hs
  show Either R E ((ExceptT.bindCont f (x s).1) (x s).2).1 ((ExceptT.bindCont f (x s).1) (x s).2).2
  change Either Q E (x s).1 (x s).2 at h
  revert h
  generalize (x s).1 = r, (x s).2 = s'
  intro h
  cases r with
  | ok a => exact hf a s' h
  | error e => exact h

theorem mono (hx : Does P x Q E) (hP : ∀ s, P' s → P s) (hQ : ∀ a s, Q a s → Q' a s)
    (hE : ∀ e s, E e s → E' e s) : Does P' x Q' E' := by
  intro s hs
  have h := hx s (hP s hs)
  revert h
  generalize (x.run s).1 = r, (x.run s).2 = s'
  intro h
  cases r with
  | ok a => exact hQ a s' h
  | error e => exact hE e s' h

theorem pre (hx : Does P x Q E) (hP : ∀ s, P' s → P s) : Does P' x Q E :=
  hx.mono hP (fun _ _ h => h) fun _ _ h => h

theorem post (hx : Does P x Q E) (hQ : ∀ a s, Q a s → Q' a s) : Does P x Q' E :=
  hx.mono (fun _ h => h) hQ fun _ _ h => h

theorem failing (hx : Does P x Q E) (hE : ∀ e s, E e s → E' e s) : Does P x Q E' :=
  hx.mono (fun _ h => h) (fun _ _ h => h) hE

/-- A failure that is told in other words. -/
theorem adapt {ε' : Type} {f : ε → ε'} {E : ε' → σ → Prop} (hx : Does P x Q fun e => E (f e)) :
    Does P (x.adapt f) Q E := by
  intro s hs
  have h := hx s hs
  show Either Q E ((x s).1.mapError f) (x s).2
  change Either Q (fun e => E (f e)) (x s).1 (x s).2 at h
  revert h
  cases (x s).1 <;> exact id

/-- What is left behind either way. -/
theorem leaves {R : σ → Prop} (hx : Does P x (fun _ => R) fun _ => R) {s : σ} (hs : P s) :
    R (x.run s).2 := by
  have h := hx s hs
  revert h
  cases (x.run s).1 <;> exact id

/-- A failure that does not depend on the state. -/
theorem lift {r : Except ε α} (hok : ∀ a, r = .ok a → ∀ s, P s → Q a s)
    (herr : ∀ e, r = .error e → ∀ s, P s → E e s) :
    Does P (liftM r : ExceptT ε (StateM σ) α) Q E := by
  cases r with
  | ok a => exact hok a rfl
  | error e => exact herr e rfl

/-- A computation that does not fail, among others that may. -/
theorem monadLift {y : StateM σ α} (h : Ends P y Q) :
    Does P (liftM y : ExceptT ε (StateM σ) α) Q E := h

theorem assume {φ : Prop} (h : φ → Does P x Q E) : Does (fun s => φ ∧ P s) x Q E :=
  Ends.assume h

/-- A branch, with its condition known on either side. -/
theorem ite {c : Prop} [Decidable c] {y : ExceptT ε (StateM σ) α} (hx : c → Does P x Q E)
    (hy : ¬ c → Does P y Q E) : Does P (if c then x else y) Q E := by
  split
  · next h => exact hx h
  · next h => exact hy h

/-- A check that goes on when it is passed, or when there was nothing to check. -/
theorem check {c : Prop} [Decidable c] {y : ExceptT ε (StateM σ) PUnit}
    {f : PUnit → ExceptT ε (StateM σ) α} (hy : c → Does P y (fun _ => P) E)
    (hf : ∀ b, Does P (f b) Q E) : Does P (if c then y >>= f else f ⟨⟩) Q E :=
  .ite (fun h => .bind (hy h) hf) fun _ => hf ⟨⟩

end Does

/-! ## Single runs -/

/-- A computation that always answers: what comes after it is run from the state it left. -/
theorem state_bind {x : StateM σ α} {f : α → StateM σ β} {a : α} {s s' : σ} (h : x s = (a, s')) :
    (x >>= f) s = f a s' := by
  show f (x s).1 (x s).2 = _
  rw [h]

/-- What comes after a success is run from the state it left. -/
theorem run_bind_ok {x : ExceptT ε (StateM σ) α} {f : α → ExceptT ε (StateM σ) β} {a : α} {s s' : σ}
    (h : x s = (.ok a, s')) : (x >>= f) s = f a s' := by
  show (ExceptT.bindCont f (x s).1) (x s).2 = _
  rw [h]
  rfl

/-- What comes after a failure is not run. -/
theorem run_bind_error {x : ExceptT ε (StateM σ) α} {f : α → ExceptT ε (StateM σ) β} {e : ε}
    {s s' : σ} (h : x s = (.error e, s')) : (x >>= f) s = (.error e, s') := by
  show (ExceptT.bindCont f (x s).1) (x s).2 = _
  rw [h]
  rfl

theorem run_lift {x : StateM σ α} {a : α} {s s' : σ} (h : x s = (a, s')) :
    (liftM x : ExceptT ε (StateM σ) α) s = (.ok a, s') := by
  show (Except.ok (x s).1, (x s).2) = _
  rw [h]

theorem run_lift_ok {r : Except ε α} {a : α} (h : r = .ok a) (s : σ) :
    (liftM r : ExceptT ε (StateM σ) α) s = (.ok a, s) := by
  rw [h]
  rfl

theorem run_lift_error {r : Except ε α} {e : ε} (h : r = .error e) (s : σ) :
    (liftM r : ExceptT ε (StateM σ) α) s = (.error e, s) := by
  rw [h]
  rfl

theorem run_adapt {ε' : Type} {x : ExceptT ε (StateM σ) α} {r : Except ε α} {s s' : σ}
    (f : ε → ε') (h : x s = (r, s')) : x.adapt f s = (r.mapError f, s') := by
  show ((x s).1.mapError f, (x s).2) = _
  rw [h]

/-- What comes after a success counts only where there is one. -/
theorem run_bind_congr {x : ExceptT ε (StateM σ) α} {f g : α → ExceptT ε (StateM σ) β} {s : σ}
    (h : ∀ a s', x s = (.ok a, s') → f a s' = g a s') : (x >>= f) s = (x >>= g) s := by
  cases hx : x s with
  | mk r s' =>
    cases r with
    | ok a => rw [run_bind_ok hx, run_bind_ok hx, h a s' hx]
    | error e => rw [run_bind_error hx, run_bind_error hx]

/-- What is known to succeed is run first. -/
theorem Does.bind_run {x : ExceptT ε (StateM σ) α} {f : α → ExceptT ε (StateM σ) β}
    {R : β → σ → Prop} {E : ε → σ → Prop} {a : α} {s s' : σ} (h : x s = (.ok a, s'))
    (hf : Does (fun u => u = s') (f a) R E) : Does (fun u => u = s) (x >>= f) R E := by
  rintro _ rfl
  show Either R E ((x >>= f) _).1 ((x >>= f) _).2
  rw [run_bind_ok h]
  exact hf s' rfl

section

variable {P : σ → Prop} {x : ExceptT ε (StateM σ) α} {Q : α → σ → Prop} {E : ε → σ → Prop}
  {s s' : σ} (h : Does P x Q E) (hs : P s)
include h hs

/-- What is known of successes, of a run that succeeded. -/
theorem Does.after_ok {a : α} (hx : x s = (.ok a, s')) : Q a s' := by
  have hafter : Either Q E (x s).1 (x s).2 := h s hs
  rwa [hx] at hafter

theorem Does.after_error {e : ε} (hx : x s = (.error e, s')) : E e s' := by
  have hafter : Either Q E (x s).1 (x s).2 := h s hs
  rwa [hx] at hafter

end

/-- A computation that cannot fail has an answer. -/
theorem Does.run_ok {P : σ → Prop} {x : ExceptT ε (StateM σ) α} {Q : α → σ → Prop} {s : σ}
    (h : Does P x Q fun _ _ => False) (hs : P s) : ∃ a s', x s = (.ok a, s') ∧ Q a s' := by
  have hafter : Either _ _ (x s).1 (x s).2 := h s hs
  revert hafter
  generalize x s = r
  obtain ⟨r, s'⟩ := r
  cases r with
  | ok a => exact fun hQ => ⟨a, s', rfl, hQ⟩
  | error e => exact False.elim

theorem Op.outcome_run {op : Op σ α} {r : Except Fault α} {s s' : σ} (h : op s = (r, s')) :
    op.outcome s = (.ok r, s') := by
  show (Except.ok (op s).1, (op s).2) = _
  rw [h]

/-- The outcome of a computation as an answer of its own. -/
theorem Does.outcome {P : σ → Prop} {op : Op σ α} {Q : α → σ → Prop}
    {E E' : Fault → σ → Prop} (h : Does P op Q E) : Does P op.outcome (Either Q E) E' := h

end Boundary
