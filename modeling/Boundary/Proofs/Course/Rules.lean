/-
  Boundary.Proofs.Course.Rules — the course of a guarded function.

  A guarded function runs an operation and records a failure on its target. So all it does
  to what is known of a state `P` is done by the operation, made of a few moves on a store
  (`OutlastsInserts`), and by the record. `Fares P op`: the operation keeps `P`, and fails with codes
  that are not success. `Routed p h P x`: the function `x` runs such an operation on `h`.

  Proved: a routed function answers success and keeps `P`, or it answers a code of its own
  and the record of that failure is the last thing it did (`Routed.tells`).
-/
import Boundary.Fixed
import Boundary.Proofs.Store

namespace Boundary

variable {σ O α β ρ : Type} {P : σ → Prop}

/-! ## Operations -/

/-- The operation keeps what is known, whether it succeeds or fails, and its failures have
    codes of their own. -/
def Fares (P : σ → Prop) (op : Op σ α) : Prop :=
  Does P op (fun _ => P) fun why s => why.code ≠ Status.ok ∧ P s

/-- What is read is a live object. -/
theorem Part.get_finds (p : Part σ O) (x : Handle) :
    Does P (p.get x) (fun o s => P s ∧ (p.view s).table.get? x = some o)
      fun why s => why.code ≠ Status.ok ∧ P s := by
  intro s hs
  show Either _ _ ((p.view s).table.get x) s
  cases hg : (p.view s).table.get x with
  | ok o => exact ⟨hs, Table.get_ok hg⟩
  | error why => exact ⟨Table.get_code hg, hs⟩

namespace Fares

theorem pure (a : α) : Fares P (pure a : Op σ α) := Does.pure fun _ h => h

theorem throw {e : Fault} (h : e.code ≠ Status.ok) : Fares P (throw e : Op σ α) :=
  Does.throw fun _ hs => ⟨h, hs⟩

theorem throw_bind {e : Fault} {f : α → Op σ β} (h : e.code ≠ Status.ok) :
    Fares P (MonadExcept.throw e >>= f : Op σ β) :=
  Does.throw_bind fun _ hs => ⟨h, hs⟩

theorem bind {op : Op σ α} {f : α → Op σ β} (h : Fares P op) (hf : ∀ a, Fares P (f a)) :
    Fares P (op >>= f) :=
  Does.bind h hf

theorem ite {c : Prop} [Decidable c] {x y : Op σ α} (hx : c → Fares P x) (hy : ¬ c → Fares P y) :
    Fares P (if c then x else y) :=
  Does.ite hx hy

theorem check {c : Prop} [Decidable c] {y : Op σ PUnit} {f : PUnit → Op σ α}
    (hy : c → Fares P y) (hf : ∀ b, Fares P (f b)) : Fares P (if c then y >>= f else f ⟨⟩) :=
  Does.check hy hf

theorem lift {r : Except Fault α} (h : ∀ e, r = .error e → e.code ≠ Status.ok) :
    Fares P (liftM r : Op σ α) :=
  Does.lift (fun _ _ _ hs => hs) fun e he _ hs => ⟨h e he, hs⟩

theorem monadLift {y : StateM σ α} (h : Ends P y fun _ => P) : Fares P (liftM y : Op σ α) :=
  Does.monadLift h

/-- An operation that never fails. -/
theorem of_ok {op : Op σ α} (h : ∀ s, P s → ∃ a s', op s = (.ok a, s') ∧ P s') : Fares P op :=
  Does.of_run fun s hs => .inl (h s hs)

/-- The outcome as an answer of its own. -/
theorem outcome {op : Op σ α} (h : Fares P op) :
    Does P op.outcome (fun r s => (∀ e, r = .error e → e.code ≠ Status.ok) ∧ P s)
      fun why s => why.code ≠ Status.ok ∧ P s := by
  refine Does.post (Does.outcome h) fun r s hr => ?_
  cases r with
  | ok a => exact ⟨fun _ he => (by cases he), hr⟩
  | error why => exact ⟨fun _ he => Except.error.inj he ▸ hr.1, hr.2⟩

theorem get (p : Part σ O) (x : Handle) : Fares P (p.get x) :=
  (p.get_finds x).post fun _ _ h => h.1

end Fares

/-! ## Codes of their own -/

theorem Fixed.require_neutral {c : Exchange.Cell α} {e : Fault} (h : Fixed.require c = .error e) :
    e.Neutral := by
  unfold Fixed.require at h
  split at h
  · cases h
    exact ⟨by decide, by decide⟩
  · cases h

theorem Fixed.require_code {c : Exchange.Cell α} {e : Fault} (h : Fixed.require c = .error e) :
    e.code ≠ Status.ok :=
  (require_neutral h).failed

theorem TextArg.read_neutral {a : TextArg} {e : Fault} (h : a.read = .error e) : e.Neutral := by
  cases a with
  | text s => cases h
  | _ =>
    cases h
    exact ⟨by decide, by decide⟩

theorem TextArg.read_code {a : TextArg} {e : Fault} (h : a.read = .error e) :
    e.code ≠ Status.ok :=
  (read_neutral h).failed

theorem Exchange.serveText_neutral {text : String} {capacity : UInt32}
    {place : Exchange.Place UInt32 UInt8} {e : Fault}
    (h : Exchange.serveText text capacity place = .error e) : e.Neutral := by
  unfold Exchange.serveText at h
  dsimp only [bind, Except.bind, pure, Except.pure, throw, throwThe, MonadExceptOf.throw] at h
  split at h
  · cases h
    exact ⟨by decide, by decide⟩
  · revert h
    cases hs : Exchange.serveArray (Text.Utf8.write text ++ [0]) capacity.toUInt64
        ⟨place.needed.map fun _ => 0, place.buffer⟩ with
    | ok wide =>
      intro h
      cases h
    | error why =>
      intro h
      cases h
      exact Exchange.serveArray_neutral hs

theorem Exchange.serveText_code {text : String} {capacity : UInt32}
    {place : Exchange.Place UInt32 UInt8} {e : Fault}
    (h : Exchange.serveText text capacity place = .error e) : e.code ≠ Status.ok :=
  (serveText_neutral h).failed

/-- What a cascade answers is a failure only if there was nothing to release. -/
theorem Release.answer_neutral {calls : List Release} {e : Fault}
    (h : Release.answer calls = .error e) : e.Neutral := by
  unfold Release.answer at h
  split at h
  · cases h
    exact .unknownHandle _
  · cases h

/-! ## Moves -/

/-- References that come and go keep what is known. -/
structure OutlastsRefs [Resource O] (p : Part σ O) (P : σ → Prop) : Prop where
  acquire : ∀ x s, P s → P (p.acquire x s).2
  release : ∀ x s, P s → P (p.release x s).2
  /-- A reference that could not be given back is noted. -/
  lost : ∀ x why s, P s → P (p.note (fun c => .rollbackFailed c x why) s).2

structure OutlastsInserts [Resource O] (p : Part σ O) (P : σ → Prop) : Prop
    extends OutlastsRefs p P where
  insert : ∀ o s, P s → P (p.insert o s).2

theorem Part.insert_fares [Resource O] {p : Part σ O} {o : O}
    (h : ∀ s, P s → P (p.insert o s).2) : Fares P (p.insert o) :=
  .of_ok fun s hs => ⟨_, _, rfl, h s hs⟩

theorem OutlastsInserts.insert_fares [Resource O] {p : Part σ O} (m : OutlastsInserts p P) (o : O) :
    Fares P (p.insert o) :=
  Part.insert_fares (m.insert o)

namespace OutlastsRefs

variable [Resource O] {p : Part σ O} (m : OutlastsRefs p P)
include m

theorem acquire_fares (x : Handle) : Fares P (p.acquire x) := by
  refine Does.of_run fun s hs => ?_
  have h := m.acquire x s hs
  cases ha : (p.view s).table.acquire x with
  | ok t =>
    rw [Part.acquire_ok ha] at h
    exact .inl ⟨_, _, Part.acquire_ok ha, h⟩
  | error why =>
    rw [Part.acquire_error ha] at h
    exact .inr ⟨_, _, Part.acquire_error ha, Table.acquire_code ha, h⟩

theorem release_fares (x : Handle) : Fares P (p.release x) := by
  refine Does.of_run fun s hs => ?_
  have h := m.release x s hs
  show (∃ a s', (Release.answer ((p.view s).table.release x).2, (p.release x s).2) = _ ∧ _) ∨ _
  cases hans : Release.answer ((p.view s).table.release x).2 with
  | ok a => exact .inl ⟨a, _, rfl, h⟩
  | error why =>
    exact .inr ⟨why, _, by rw [← hans]; rfl, (Release.answer_neutral hans).failed, h⟩

/-- Giving references back always comes to an end. -/
theorem rollBack_answers (hs : List Handle) :
    Does P (p.rollBack hs) (fun _ => P) fun _ _ => False := by
  induction hs with
  | nil => exact .pure fun _ h => h
  | cons x rest ih =>
    refine Does.bind (Does.outcome (m.release_fares x)) fun r => ?_
    cases r with
    | ok _ => exact ih
    | error why =>
      refine Does.bind (Q := fun _ => P) (.of_run fun s h => ?_) fun _ => ih
      exact .inl ⟨_, _, rfl, m.lost x why s h.2⟩

theorem rollBack_fares (hs : List Handle) : Fares P (p.rollBack hs) :=
  (m.rollBack_answers hs).failing fun _ _ h => h.elim

end OutlastsRefs

/-! ## Beside a store -/

section

variable {p : Part σ O} {π : σ → β} (hp : ∀ st s, π (p.put st s) = π s)
include hp

/-- Objects and references come and go beside what is kept apart from the store. -/
theorem OutlastsInserts.beside [Resource O] (R : β → Prop) : OutlastsInserts p fun s => R (π s) where
  insert o s h := by
    show R (π (p.put _ s))
    rwa [hp]
  acquire x s h := by
    show R (π (p.acquire x s).2)
    unfold Part.acquire
    dsimp only
    split
    · show R (π (p.put _ s))
      rwa [hp]
    · exact h
  release x s h := by
    show R (π (p.put _ s))
    rwa [hp]
  lost x why s h := by
    show R (π (p.put _ s))
    rwa [hp]

/-- So are failures recorded. -/
theorem Part.fail_beside (x : Handle) (why : Fault) (s : σ) : π (p.fail x why s).2 = π s := by
  have hrun (t : σ) (message : String) : π (p.recordError x message t).2 = π t := by
    unfold Part.recordError
    dsimp only
    split <;> exact hp _ _
  exact (hrun _ _).trans (hp _ _)

end

/-! ## Guarded functions -/

structure Runs (p : Part σ O) (h : Handle) (op : Op σ α) (x : StateM σ (Status × ρ)) : Prop where
  ok : ∀ s a s', op s = (.ok a, s') → (x s).1.1 = Status.ok ∧ (x s).2 = s'
  error : ∀ s why s', op s = (.error why, s') →
    (x s).1.1 = why.code ∧ (x s).2 = (p.fail h why s').2

theorem Part.guard_runs (p : Part σ O) (h : Handle) (cells : ρ) (op : Op σ ρ) :
    Runs p h op (p.guard h cells op) := by
  refine ⟨fun s a s' hop => ?_, fun s why s' hop => ?_⟩
  · rw [Part.guard_of_ok hop]
    exact ⟨rfl, rfl⟩
  · rw [Part.guard_of_error hop]
    exact ⟨rfl, rfl⟩

/-- What an operation leaves behind either way, the function leaves behind. -/
theorem Part.guard_leaves {p : Part σ O} {h : Handle} {cells : ρ} {op : Op σ ρ} {R : σ → Prop}
    (hop : Does P op (fun _ => R) fun _ => R) (hfail : ∀ why s, R s → R (p.fail h why s).2) :
    Ends P (p.guard h cells op) fun _ => R := by
  refine .bind hop fun r => ?_
  cases r with
  | ok a => exact .pure fun _ h => h
  | error why => exact .bind (Q := fun _ => R) (fun s h => hfail why s h) fun _ => .pure fun _ h => h

/-- The function answers what the operation did, or records its failure in the end. -/
theorem Part.guard_ends {p : Part σ O} {h : Handle} {cells : ρ} {op : Op σ ρ}
    {Q : ρ → σ → Prop} {E : Fault → σ → Prop} (hop : Does P op Q E) :
    Ends P (p.guard h cells op) fun r s => (r.1 = Status.ok ∧ Q r.2 s) ∨
      ∃ why s', r.1 = why.code ∧ E why s' ∧ s = (p.fail h why s').2 := by
  intro s hs
  have hafter : Either _ _ (op s).1 (op s).2 := hop s hs
  revert hafter
  rw [Part.guard_run]
  cases (op s).1 with
  | ok a => exact fun h => .inl ⟨rfl, h⟩
  | error why => exact fun h => .inr ⟨why, _, rfl, h, rfl⟩

/-- Where its failures have codes of their own, what is known of the operation's successes is
    known of the function's. -/
theorem Part.guard_succeeds {p : Part σ O} {h : Handle} {cells : ρ} {op : Op σ ρ}
    {Q : ρ → σ → Prop} (hop : Does P op Q fun why _ => why.code ≠ Status.ok) :
    Ends P (p.guard h cells op) fun r s => r.1 = Status.ok → Q r.2 s := by
  refine (Part.guard_ends hop).post fun r s hr hok => ?_
  rcases hr with ⟨-, hQ⟩ | ⟨why, s', hcode, hne, -⟩
  · exact hQ
  · exact absurd (hcode.symm.trans hok) hne

/-- What an operation leaves behind where it fails, the function leaves behind where it answers
    no success. -/
theorem Part.guard_failed {p : Part σ O} {h : Handle} {cells : ρ} {op : Op σ ρ} {E : σ → Prop}
    (hop : Does P op (fun _ _ => True) fun _ => E) (hfail : ∀ why s, E s → E (p.fail h why s).2) :
    Ends P (p.guard h cells op) fun r s => r.1 ≠ Status.ok → E s := by
  refine (Part.guard_ends hop).post fun r s hr hne => ?_
  rcases hr with ⟨hok, -⟩ | ⟨why, s', -, hE, rfl⟩
  · exact absurd hok hne
  · exact hfail why s' hE

/-- Where its failures have codes of their own, the status tells what the operation did. -/
theorem Part.guard_told {p : Part σ O} {h : Handle} {cells : ρ} {op : Op σ ρ}
    {Q : ρ → σ → Prop} {E : σ → Prop}
    (hop : Does P op Q fun why s => why.code ≠ Status.ok ∧ E s)
    (hfail : ∀ why s, E s → E (p.fail h why s).2) :
    Ends P (p.guard h cells op) fun r s => if r.1 = Status.ok then Q r.2 s else E s := by
  refine (Part.guard_ends hop).post fun r s hr => ?_
  rcases hr with ⟨hok, hQ⟩ | ⟨why, s', hcode, ⟨hne, hE⟩, rfl⟩
  · rwa [if_pos hok]
  · rw [if_neg (hcode ▸ hne)]
    exact hfail why s' hE

/-- What is done to the outputs afterwards changes neither status nor state. -/
theorem Runs.map {p : Part σ O} {h : Handle} {op : Op σ α} {x : StateM σ (Status × β)}
    (hx : Runs p h op x) (f : Status × β → ρ) :
    Runs p h op (do
      let r ← x
      return (r.1, f r) : StateM σ (Status × ρ)) :=
  ⟨hx.ok, hx.error⟩

def Routed (p : Part σ O) (h : Handle) (P : σ → Prop) (x : StateM σ (Status × ρ)) : Prop :=
  ∃ (α : Type) (op : Op σ α), Runs p h op x ∧ Fares P op

namespace Routed

variable {p : Part σ O} {h : Handle}

theorem guard {cells : ρ} {op : Op σ ρ} (hop : Fares P op) : Routed p h P (p.guard h cells op) :=
  ⟨ρ, op, p.guard_runs h cells op, hop⟩

/-- It succeeded, or it failed and recorded that in the end. -/
theorem tells {x : StateM σ (Status × ρ)} (hx : Routed p h P x) :
    Ends P x fun r s => (r.1 = Status.ok ∧ P s) ∨
      ∃ why s', r.1 = why.code ∧ why.code ≠ Status.ok ∧ P s' ∧ s = (p.fail h why s').2 := by
  obtain ⟨α, op, hrun, hop⟩ := hx
  intro s hs
  have hafter : Either _ _ (op s).1 (op s).2 := hop s hs
  revert hafter
  cases hr : op s with
  | mk r s' =>
    intro hafter
    cases r with
    | ok a =>
      obtain ⟨hstatus, hstate⟩ := hrun.ok s a s' hr
      exact .inl ⟨hstatus, hstate ▸ hafter⟩
    | error why =>
      obtain ⟨hstatus, hstate⟩ := hrun.error s why s' hr
      exact .inr ⟨why, s', hstatus, hafter.1, hafter.2, hstate⟩

/-- Where the record keeps what is known, the function does. -/
theorem keeps {x : StateM σ (Status × ρ)} (hx : Routed p h P x)
    (hfail : ∀ why s, P s → P (p.fail h why s).2) : Ends P x fun _ => P := by
  refine hx.tells.post fun r s hr => ?_
  rcases hr with ⟨-, h⟩ | ⟨why, s', -, -, h, rfl⟩
  · exact h
  · exact hfail why s' h

end Routed

end Boundary
