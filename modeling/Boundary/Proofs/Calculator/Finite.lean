/-
  Boundary.Proofs.Calculator.Finite — variables hold finite numbers only.

  A variable gets its value where it is made or where it is set, computed or put through a
  callable. On each of these ways the value is checked before it is stored, but for primes:
  an integer of 64 bits is finite without a check. A failure on the way stores nothing.

  Proved: in every state that calls lead to, whatever numbers they are given and whatever
  callables and an injected component answer, the value of every variable is finite
  (`variables_finite`).
-/
import Boundary.Proofs.Reached.Objects

namespace Boundary.Calculator

open Process (calculatorPart)

variable {ω : Type}

def AllFinite (t : Table Object) : Prop :=
  ∀ x value, t.get? x = some (.var value) → value.isFinite = true

variable {t t' : Table Object}

theorem AllFinite.fewer (h : AllFinite t) (ho : ∀ x o, t'.get? x = some o → t.get? x = some o) :
    AllFinite t' :=
  fun x value hx => h x value (ho x _ hx)

theorem AllFinite.insert (h : AllFinite t) (x : Handle) (n : Nat) {o : Object} (ho : o.Fresh) :
    AllFinite (t.insert x n o) := by
  intro y value hy
  rw [Table.get?_insert] at hy
  split at hy
  · cases hy
    exact ho
  · exact h y value hy

/-- A change that makes a value makes a finite one. -/
theorem Change.finite {f : Object → Object} (hf : Change t f) {o : Object} {value : Float}
    (ho : ∀ v, o = .var v → v.isFinite = true) (h : f o = .var value) : value.isFinite = true := by
  cases hf with
  | store hv =>
    cases o with
    | var _ =>
      cases h
      exact hv
    | calculator _ => cases h
  | extend _ =>
    cases o with
    | var v => exact ho value h
    | calculator _ => cases h
  | clear =>
    cases o with
    | var v => exact ho value h
    | calculator _ => cases h

theorem AllFinite.change (h : AllFinite t) (x : Handle) {f : Object → Object} (hf : Change t f) :
    AllFinite (t.update x f) := by
  intro y value hy
  rw [Table.object_update] at hy
  split at hy
  · obtain ⟨o, ho, hfo⟩ := Option.map_eq_some_iff.mp hy
    exact hf.finite (fun v hv => h y v (hv ▸ ho)) hfo
  · exact h y value hy

theorem allFinite_outlastsChanges :
    OutlastsChanges fun s : Process ω => AllFinite s.calculator where
  subside h l := h.fewer l.calculator
  makeZoo _ _ h := h
  makeCalculator _ ho _ h := h.insert _ _ ho
  makePrimes _ _ h := h
  changeZoo _ _ _ _ h := h
  changeCalculator x _ _ hf h := h.change x hf
  changePrimes _ _ _ _ h := h
  found _ _ _ _ _ h := h

/-- In every state that calls lead to, each with functions outside the components that make
    calls as they like, the variables have finite values. -/
theorem variables_finite {w : ω} {s : Process ω} (r : Reaches { outer := w } s) {x : Handle}
    {value : Float} (h : s.calculator.get? x = some (.var value)) : value.isFinite = true := by
  have hstart : AllFinite ({ outer := w } : Process ω).calculator := by
    intro y v hy
    simp [Table.get?] at hy
  exact allFinite_outlastsChanges.reaches r hstart x value h

def squaring : Outside Unit := { idle with apply := fun _ x => pure (x * x) }

theorem squaring_calling : squaring.Calling :=
  ⟨fun _ _ s => .refl s, fun _ _ s => .refl s, fun _ _ s => .refl s⟩

def strained : Process Unit :=
  squaring.after { outer := () }
    [⟨_, .registerSymbol (.text "math") (.text "square") (some (.function .square))⟩,
     ⟨_, .createVariable 1e200 (some Handle.null)⟩,
     ⟨_, .createVariable (0 / 0) (some Handle.null)⟩,
     ⟨_, .setVariable ⟨1⟩ (1 / 0)⟩,
     ⟨_, .createCalculator (some Handle.null)⟩,
     ⟨_, .enlistVariable ⟨2⟩ ⟨1⟩⟩,
     ⟨_, .enlistVariable ⟨2⟩ ⟨1⟩⟩,
     ⟨_, .multiply ⟨2⟩ (some Handle.null)⟩,
     ⟨_, .add ⟨2⟩ (some Handle.null)⟩,
     ⟨_, .apply ⟨2⟩ (.text "math") (.text "square")⟩]

theorem strained_evaluates :
    strained.calculator.get? ⟨1⟩ = some (.var 1e200) ∧
    strained.calculator.get? ⟨3⟩ = some (.var 2e200) ∧ strained.shared.issued = 3 := by
  decide +kernel

theorem variables_strained :
    strained.calculator.get? ⟨3⟩ = some (.var 2e200) ∧ (2e200 : Float).isFinite = true := by
  have h := strained_evaluates.2.1
  exact ⟨h, variables_finite (squaring_calling.after (.refl _) _) h⟩

end Boundary.Calculator
