/-
  Boundary.Proofs.Reached.Classes — a handle keeps naming what it named.

  Calls change objects, but not their classes, and the handle of a new object is one that was
  never issued. So of two states, one of which calls lead to from the other, the later one has
  under a handle of the earlier one nothing or an object of the same class (`Kindred`). What is
  in the list of a calculator was a variable when it was enlisted, so it is none of another class.

  Proved: states are kin when calls lead from one to the other, as long as fewer objects were
  made than there are handles (`Reaches.kindred`).
-/
import Boundary.Proofs.Books
import Boundary.Proofs.Reached.Objects

namespace Boundary

open Process (zooPart calculatorPart primesPart)

variable {ω : Type} {s u u' : Process ω}

def Process.Enlists (s : Process ω) (v : Handle) : Prop :=
  ∃ x vs, s.calculator.get? x = some (.calculator vs) ∧ v ∈ vs

/-- What `u` has under the handles of `s` is of the class it had there. -/
structure Kindred (s u : Process ω) : Prop where
  issued : s.shared.issued ≤ u.shared.issued
  numbered : ∀ c x n, u.className? c x = some n →
    0 < x.raw.toNat ∧ x.raw.toNat ≤ u.shared.issued
  same : ∀ c x n, x.raw.toNat ≤ s.shared.issued → u.className? c x = some n →
    s.className? c x = some n
  enlisted : ∀ v, u.Enlists v → v.raw.toNat ≤ u.shared.issued ∧
    ∀ n, u.className? .calculator v = some n → n = "Calculator::Variable"

namespace Kindred

/-- An object has the class it had, or its handle is the next one; and what is enlisted was
    before, or it was a variable. -/
theorem step (k : Kindred s u) (hi : u.shared.issued ≤ u'.shared.issued)
    (hclass : ∀ c x n, u'.className? c x = some n →
      (x.raw.toNat = u.shared.issued + 1 ∧ x.raw.toNat ≤ u'.shared.issued) ∨
        u.className? c x = some n)
    (hlist : ∀ v, u'.Enlists v →
      u.Enlists v ∨ u.className? .calculator v = some "Calculator::Variable") :
    Kindred s u' where
  issued := k.issued.trans hi
  numbered c x n h := by
    rcases hclass c x n h with ⟨hx, hle⟩ | h
    · exact ⟨hx ▸ Nat.succ_pos _, hle⟩
    · exact ⟨(k.numbered c x n h).1, (k.numbered c x n h).2.trans hi⟩
  same c x n hx h := by
    rcases hclass c x n h with ⟨hx', -⟩ | h
    · have := k.issued
      omega
    · exact k.same c x n hx h
  enlisted v hv := by
    have hbefore : v.raw.toNat ≤ u.shared.issued ∧
        ∀ n, u.className? .calculator v = some n → n = "Calculator::Variable" := by
      rcases hlist v hv with hv | hv
      · exact k.enlisted v hv
      · exact ⟨(k.numbered _ v _ hv).2, fun n hn => Option.some.inj (hn.symm.trans hv)⟩
    refine ⟨hbefore.1.trans hi, fun n hn => ?_⟩
    rcases hclass .calculator v n hn with ⟨hx, -⟩ | hn
    · exact absurd hbefore.1 (by omega)
    · exact hbefore.2 n hn

/-- The lists of calculators and the number of objects made do not change. -/
theorem rename (k : Kindred s u) (hi : u'.shared.issued = u.shared.issued)
    (hclass : ∀ c x n, u'.className? c x = some n → u.className? c x = some n)
    (hlist : ∀ v, u'.Enlists v → u.Enlists v) : Kindred s u' :=
  k.step hi.ge (fun c x n h => .inr (hclass c x n h)) fun v hv => .inl (hlist v hv)

end Kindred

theorem Subsides.className? {u u' : Process ω} (l : Subsides u u') {c : Component} {x : Handle}
    {n : String} (h : u'.className? c x = some n) : u.className? c x = some n := by
  have hname {O : Type} {name : O → String} {a b : Option O} (hab : ∀ o, a = some o → b = some o)
      (ha : a.map name = some n) : b.map name = some n := by
    obtain ⟨o, ho, rfl⟩ := Option.map_eq_some_iff.mp ha
    exact Option.map_eq_some_iff.mpr ⟨o, hab o ho, rfl⟩
  cases c with
  | zoo => exact hname (l.zoo x) h
  | calculator => exact hname (l.calculator x) h
  | primes => exact hname (l.primes x) h

/-- A new object has the next handle. -/
theorem made_raw {x : Handle} {n : Nat} (hb : u.shared.issued + 1 < handleLimit)
    (hx : u.shared.nextHandle = x) (hn : n = u.shared.issued + 1) :
    x.raw.toNat = u.shared.issued + 1 ∧ x.raw.toNat ≤ n := by
  have hraw := Shared.nextHandle_raw (Nat.lt_of_succ_lt hb)
  rw [hx] at hraw
  exact ⟨hraw, hraw.trans hn.symm |>.le⟩

theorem kindred_outlastsChanges (s : Process ω) :
    OutlastsChanges fun u : Process ω => u.shared.issued < handleLimit → Kindred s u where
  subside h l hb := (h (l.issued ▸ hb)).rename l.issued (fun _ _ _ => l.className?)
    fun v ⟨x, vs, hx, hv⟩ => ⟨x, vs, l.calculator x _ hx, hv⟩
  makeZoo o u h hb := by
    refine (h (Nat.lt_of_succ_lt hb)).step (Nat.le_succ _) (fun c x n hn => ?_) fun _ hv => .inl hv
    cases c with
    | zoo => exact (Table.name_insert hn).imp_left fun hx => made_raw hb hx rfl
    | calculator => exact .inr hn
    | primes => exact .inr hn
  makeCalculator o ho u h hb := by
    refine (h (Nat.lt_of_succ_lt hb)).step (Nat.le_succ _) (fun c x n hn => ?_)
      fun v ⟨x, vs, hx, hv⟩ => .inl ?_
    · cases c with
      | calculator => exact (Table.name_insert hn).imp_left fun hx => made_raw hb hx rfl
      | zoo => exact .inr hn
      | primes => exact .inr hn
    · have hx : (u.calculator.insert u.shared.nextHandle (u.shared.issued + 1) o).get? x =
        some (.calculator vs) := hx
      rw [Table.get?_insert] at hx
      split at hx
      · cases hx
        rw [show vs = [] from ho] at hv
        cases hv
      · exact ⟨x, vs, hx, hv⟩
  makePrimes kind u h hb := by
    refine (h (Nat.lt_of_succ_lt hb)).step (Nat.le_succ _) (fun c x n hn => ?_) fun _ hv => .inl hv
    cases c with
    | primes => exact (Table.name_insert hn).imp_left fun hx => made_raw hb hx rfl
    | zoo => exact .inr hn
    | calculator => exact .inr hn
  changeZoo x f u hf h hb := by
    refine (h hb).rename rfl (fun c y n hn => ?_) fun _ hv => hv
    cases c with
    | zoo => exact (Table.name_update hf.className u.zoo x y).symm.trans hn
    | calculator => exact hn
    | primes => exact hn
  changeCalculator x f u hf h hb := by
    refine (h hb).step le_rfl (fun c y n hn => .inr ?_) fun v ⟨y, ws, hy, hv⟩ => ?_
    · cases c with
      | calculator => exact (Table.name_update hf.className u.calculator x y).symm.trans hn
      | zoo => exact hn
      | primes => exact hn
    · have hy : (u.calculator.update x f).get? y = some (.calculator ws) := hy
      rw [Table.object_update] at hy
      split at hy
      · obtain ⟨o, ho, hfo⟩ := Option.map_eq_some_iff.mp hy
        obtain ⟨vs, rfl, hvs⟩ := hf.enlists hfo
        refine (hvs v hv).imp (fun hv => ⟨y, vs, ho, hv⟩) fun ⟨value, hvalue⟩ => ?_
        exact Option.map_eq_some_iff.mpr ⟨_, hvalue, rfl⟩
      · exact .inl ⟨y, ws, hy, hv⟩
  changePrimes x f u hf h hb := by
    refine (h hb).rename rfl (fun c y n hn => ?_) fun _ hv => hv
    cases c with
    | primes => exact (Table.name_update hf.className u.primes x y).symm.trans hn
    | zoo => exact hn
    | calculator => exact hn
  found x m outcome u _ h hb := by
    refine (h hb).rename rfl (fun c y n hn => ?_) fun _ hv => hv
    cases c with
    | primes =>
      exact (Table.name_updateHeld (f := Primes.found outcome) (fun _ => rfl) u.primes x y m).symm.trans hn
    | zoo => exact hn
    | calculator => exact hn

/-- Handles are never taken back. -/
theorem issued_outlastsChanges (n : Nat) :
    OutlastsChanges fun u : Process ω => n ≤ u.shared.issued where
  subside h l := h.trans l.issued.ge
  makeZoo _ _ h := Nat.le_succ_of_le h
  makeCalculator _ _ _ h := Nat.le_succ_of_le h
  makePrimes _ _ h := Nat.le_succ_of_le h
  changeZoo _ _ _ _ h := h
  changeCalculator _ _ _ _ h := h
  changePrimes _ _ _ _ h := h
  found _ _ _ _ _ h := h

namespace Reaches

theorem issued_le (r : Reaches s u) : s.shared.issued ≤ u.shared.issued :=
  (issued_outlastsChanges s.shared.issued).reaches r le_rfl

/-- A handle of a process names what it named, or nothing any more. -/
theorem kindred {w : ω} (hs : Reaches { outer := w } s) (r : Reaches s u)
    (hb : u.shared.issued < handleLimit) : Kindred s u := by
  have hstart : Kindred ({ outer := w } : Process ω) { outer := w } := by
    refine ⟨le_rfl, fun c x n h => ?_, fun _ _ _ _ h => h, fun v ⟨x, vs, hx, _⟩ => ?_⟩
    · cases c <;> simp [Process.className?, Table.get?] at h
    · simp [Table.get?] at hx
  have k : Kindred _ s :=
    (kindred_outlastsChanges _).reaches hs (fun _ => hstart) (r.issued_le.trans_lt hb)
  exact (kindred_outlastsChanges s).reaches r
    (fun _ => ⟨le_rfl, k.numbered, fun _ _ _ _ h => h, k.enlisted⟩) hb

end Reaches

end Boundary
