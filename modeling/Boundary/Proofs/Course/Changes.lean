/-
  Boundary.Proofs.Course.Changes — what calls make of objects.

  Calls make few kinds of objects and change them in few ways. A variable has a finite value
  from the start and gets no other; a calculator starts without variables, and what is
  enlisted are variables; a result of a sieve is short and ascends. What is known of objects
  has to outlast these, and no others.

  Proved: variables stay variables when one more reference is taken (`Variables.acquire`) and
  when one more variable is made (`Variables.insert`), and no change makes another class of an
  object (`Change.className`).
-/
import Boundary.Perform
import Boundary.Proofs.Store

namespace Boundary

variable {ω : Type}

def Process.className? (s : Process ω) (c : Component) (x : Handle) : Option String :=
  match c with
  | .zoo => (s.zoo.get? x).map Zoo.Object.className
  | .calculator => (s.calculator.get? x).map Calculator.Object.className
  | .primes => (s.primes.get? x).map Primes.Object.className

namespace Zoo

inductive Change : (Object → Object) → Prop
  | push (animal : Handle) : Change (pushAnimal animal)
  | step : Change stepOn

theorem Change.className {f : Object → Object} (hf : Change f) (o : Object) :
    (f o).className = o.className := by
  cases hf <;> cases o <;> rfl

end Zoo

namespace Calculator

def Object.Fresh : Object → Prop
  | .var value => value.isFinite = true
  | .calculator enlisted => enlisted = []

def Variables (t : Table Object) (vs : List Handle) : Prop :=
  ∀ v ∈ vs, ∃ value, t.get? v = some (.var value)

inductive Change (t : Table Object) : (Object → Object) → Prop
  | store {value : Float} (h : value.isFinite = true) : Change t (store value)
  | extend {vs : List Handle} (h : Variables t vs) : Change t (extend vs)
  | clear : Change t clear

namespace Change

variable {t : Table Object} {f : Object → Object}

theorem className (hf : Change t f) (o : Object) : (f o).className = o.className := by
  cases hf <;> cases o <;> rfl

/-- What is enlisted afterwards was before, or it is a variable. -/
theorem enlists (hf : Change t f) {o : Object} {ws : List Handle} (h : f o = .calculator ws) :
    ∃ vs, o = .calculator vs ∧ ∀ v ∈ ws, v ∈ vs ∨ ∃ value, t.get? v = some (.var value) := by
  cases hf with
  | store _ =>
    cases o with
    | var _ => cases h
    | calculator vs =>
      cases h
      exact ⟨_, rfl, fun _ hv => .inl hv⟩
  | extend hvs =>
    cases o with
    | var _ => cases h
    | calculator vs =>
      cases h
      exact ⟨_, rfl, fun v hv => (List.mem_append.mp hv).imp_right (hvs v)⟩
  | clear =>
    cases o with
    | var _ => cases h
    | calculator vs =>
      cases h
      exact ⟨_, rfl, fun _ hv => by cases hv⟩

end Change

section

variable {t t' : Table Object} {vs : List Handle}

theorem Variables.nil (t : Table Object) : Variables t [] := fun _ hv => by cases hv

theorem Variables.same (h : Variables t vs) (ho : ∀ x, t'.get? x = t.get? x) : Variables t' vs :=
  fun v hv => (ho v).symm ▸ h v hv

theorem Variables.acquire {v : Handle} (h : Variables t vs) (ha : t.acquire v = .ok t') :
    Variables t' vs := by
  obtain ⟨a, -, -, rfl⟩ := Table.acquire_ok ha
  exact h.same (Table.object_setCount t v _)

/-- A new variable is one more of them, whatever had its handle before. -/
theorem Variables.insert (h : Variables t vs) (x : Handle) (n : Nat) (value : Float) :
    Variables (t.insert x n (.var value)) (x :: vs) := by
  intro v hv
  rw [Table.get?_insert]
  split
  · exact ⟨value, rfl⟩
  · next hx => exact h v ((List.mem_cons.mp hv).resolve_left (Ne.symm hx))

end

end Calculator

namespace Primes

inductive Change : (Object → Object) → Prop
  | value (value : UInt64) : Change fun o => { o with value := value, result := none }
  | callback (callback : Option Foreign) : Change fun o => { o with callback := callback }

theorem Change.className {f : Object → Object} (hf : Change f) (o : Object) :
    (f o).className = o.className := by
  cases hf <;> rfl

def found (outcome : Outcome) : Object → Object := fun o => { o with result := some outcome }

/-- What a sieve answers: ascending numbers, no more than its largest bound allows. -/
structure Listing (ps : List UInt64) : Prop where
  short : ps.length ≤ sieveLimit.toNat
  ascending : ps.Pairwise (· < ·)

def Outcome.Listed (outcome : Outcome) : Prop := ∀ ps, outcome = .primes ps → Listing ps

end Primes

end Boundary
