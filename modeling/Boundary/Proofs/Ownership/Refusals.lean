/-
  Boundary.Proofs.Ownership.Refusals — what is left to fail for.

  A call on a live object of its own class asks for that object and for those that it owns.
  Where all of them are alive and of the right class, few reasons to fail remain
  (`FailsFor`): the caller has no place for the answer, a count is full, a result is no finite
  number, an iteration is over. Clearing a calculator has none.
-/
import Boundary.Proofs.Ownership.RollBack

namespace Boundary

open Exchange (Cell)

variable {ω σ ρ α O : Type} {s : Process ω} {J : ω → Prop} {e : Ledger}

/-- The call succeeded, or it failed for one of these reasons and noted that last. -/
def FailsFor (why : Fault → Prop) (r : (Status × ρ) × Process ω) : Prop :=
  r.1.1 = Status.ok ∨ ∃ name f, why f ∧ r.1.1 = f.code ∧
    r.2.shared.journal.head? = some (.callFailed name f)

theorem Site.guard_fails [Resource O] [Layered O] {p : Part (Process ω) O} {c : Component}
    (site : Site p c) {h : Handle} {cells : ρ} {op : Op (Process ω) ρ} {why : Fault → Prop}
    (hop : Does (fun u => u = s) op (fun _ _ => True) fun f _ => why f) :
    FailsFor why (p.guard h cells op s) := by
  rcases Part.guard_ends hop s rfl with ⟨hok, -⟩ | ⟨f, u, hcode, hf, hlast⟩
  · exact .inl hok
  · refine .inr ⟨(p.view u).table.component, f, hf, hcode, ?_⟩
    rw [hlast, site.fail_journal]
    rfl

theorem Fixed.require_fails {P : σ → Prop} (cell : Cell α) :
    Does P (liftM (Fixed.require cell) : Op σ Unit) (fun _ => P)
      fun f _ => f = .nullOut ∧ cell = none := by
  cases cell with
  | none => exact fun _ _ => ⟨rfl, rfl⟩
  | some a => exact fun _ h => h

/-- A reference to a live object is taken, unless its count is full. -/
theorem Part.acquire_fails {p : Part σ O} {x : Handle} {o : O} {s : σ}
    (hx : (p.view s).table.get? x = some o) :
    Does (fun u => u = s) (p.acquire x) (fun _ _ => True)
      fun f _ => f = .countOverflow ∧ (p.view s).table.Full x := by
  refine .of_run ?_
  rintro u rfl
  by_cases hfull : (p.view u).table.Full x
  · exact .inr ⟨_, _, Part.acquire_error (Table.acquire_full hfull), rfl, hfull⟩
  · obtain ⟨t, ht⟩ := Table.acquire_room hx hfull
    exact .inl ⟨_, _, Part.acquire_ok ht, trivial⟩

/-- References that come and go bring no handle. -/
theorem Calculator.issued_outlastsRefs {n : Nat} :
    OutlastsRefs part fun s : Process ω => s.shared.issued ≤ n where
  acquire x s h := by
    cases hacquire : (part.view s).table.acquire x with
    | ok t =>
      rw [Part.acquire_ok hacquire]
      exact h
    | error why =>
      rw [Part.acquire_error hacquire]
      exact h
  release _ _ h := h
  lost _ _ _ h := h

/-! ## Calculators -/

namespace Calculator

variable {c v : Handle} {vs : List Handle}

/-- Variables that are all alive are combined from left to right. -/
theorem foldValues_run {xs : List Float}
    (hvs : List.Forall₂ (fun v x => s.calculator.get v = .ok (.var x)) vs xs)
    (op : Float → Float → Float) (acc : Float) :
    foldValues op acc vs s = (.ok (xs.foldl op acc), s) := by
  induction hvs generalizing acc with
  | nil => rfl
  | cons hv _ ih => exact (run_bind_ok (valueOf_run hv)).trans (ih (op acc _))

theorem exists_forall₂ {α β : Type} {R : α → β → Prop} {as : List α}
    (h : ∀ a ∈ as, ∃ b, R a b) : ∃ bs, List.Forall₂ R as bs := by
  induction as with
  | nil => exact ⟨[], .nil⟩
  | cons a rest ih =>
    obtain ⟨b, hb⟩ := h a List.mem_cons_self
    obtain ⟨bs, hbs⟩ := ih fun a' ha' => h a' (List.mem_cons_of_mem a ha')
    exact ⟨b :: bs, .cons hb hbs⟩

theorem finite_fails {P : σ → Prop} (value : Float) :
    Does P (liftM (finite value) : Op σ Float) (fun _ => P) fun f _ => ∃ n, f = .notFinite n := by
  unfold finite
  split
  · exact fun _ h => h
  · exact fun _ _ => ⟨_, rfl⟩

section

variable (hc : s.calculator.get c = .ok (.calculator vs))
include hc

theorem enlistedVariable_fails {index : UInt32} (hv : vs[index.toNat]? = some v) {o : Object}
    (ho : s.calculator.get? v = some o) (cell : Cell Handle) :
    FailsFor (fun f => f = .nullOut ∧ cell = none ∨ f = .countOverflow ∧ s.calculator.Full v)
      (enlistedVariable c index cell s) := by
  refine calculatorSite.guard_fails ?_
  refine .bind ((Fixed.require_fails cell).failing fun _ _ => .inl) fun _ =>
    .bind_run (enlistedIn_run hc) ?_
  rw [hv]
  exact .bind ((Part.acquire_fails ho).failing fun _ _ => .inr) fun _ => .pure fun _ _ => trivial

/-- The enlisted variables are combined, unless what comes of it is no finite number. -/
theorem combine_fails (hvs : ∀ v ∈ vs, ∃ value, s.calculator.get v = .ok (.var value))
    (initial : Float) (op : Float → Float → Float) (cell : Cell Handle) :
    FailsFor (fun f => f = .nullOut ∧ cell = none ∨ ∃ n, f = .notFinite n)
      (combine c initial op cell s) := by
  obtain ⟨xs, hxs⟩ := exists_forall₂ hvs
  refine calculatorSite.guard_fails ?_
  refine .bind ((Fixed.require_fails cell).failing fun _ _ => .inl) fun _ =>
    .bind_run (enlistedIn_run hc) (.bind_run (foldValues_run hxs op initial) ?_)
  refine .bind ((finite_fails _).failing fun _ _ => .inr) fun value => ?_
  exact .bind (Q := fun _ _ => True) (fun _ _ => trivial) fun _ => .pure fun _ _ => trivial

/-- A calculator holds a reference to every variable in its list, so all of them are given
    back. -/
theorem clearVariables_ok (h : Balanced J e s) (hb : s.shared.issued < handleLimit) :
    (clearVariables c s).1.1 = Status.ok := by
  have hbooks : Does (Books J e fun u => At part c (.calculator vs) u ∧ True)
      (do part.update c clear; releaseAll vs) (fun _ => Balanced J e)
      fun _ => Books J 0 fun _ => False := emptied_does c vs
  -- no handle is issued, so none comes round
  have hissued : Does (fun u : Process ω => u.shared.issued ≤ s.shared.issued)
      (do part.update c clear; releaseAll vs) (fun _ u => u.shared.issued ≤ s.shared.issued)
      fun _ u => u.shared.issued ≤ s.shared.issued :=
    .bind (Q := fun _ u => u.shared.issued ≤ s.shared.issued)
      (.of_run fun _ h => .inl ⟨(), _, rfl, h⟩) fun _ =>
      (releaseAll_fares issued_outlastsRefs vs).failing fun _ _ h => h.2
  cases hrun : (do part.update c clear; releaseAll vs : Op (Process ω) Unit) s with
  | mk r u =>
    cases r with
    | ok _ =>
      rw [clearVariables, Part.guard_answer, run_bind_ok (enlistedIn_run hc), hrun]
    | error why =>
      have hlt : u.shared.issued < handleLimit :=
        Nat.lt_of_le_of_lt (hissued.after_error le_rfl hrun) hb
      have hlist : Books J e (fun u => At part c (.calculator vs) u ∧ True) s :=
        h.mono fun _ _ => ⟨Table.get_ok hc, trivial⟩
      exact ((hbooks.after_error hlist hrun).2 hlt).2.elim

end

end Calculator

/-! ## Zoos -/

namespace Zoo

variable {zoo it : Handle} {hs : List Handle} {k : Nat}

/-- An animal of the zoo is lent to whoever has a place for it. -/
theorem animalAt_fails (hz : s.zoo.get zoo = .ok (.zoo hs)) {index : UInt32} {x : Handle}
    (hx : hs[index.toNat]? = some x) {o : Object} (ho : s.zoo.get x = .ok o)
    (cell : Cell FatHandle) :
    FailsFor (fun f => f = .nullOut ∧ cell = none) (animalAt zoo index cell s) := by
  refine zooSite.guard_fails (.bind (Fixed.require_fails cell) fun _ =>
    .bind_run (animalsOf_run hz) ?_)
  rw [hx]
  exact .bind_run (fat_run ho) (.pure fun _ _ => trivial)

theorem iterator_fails (hz : s.zoo.get zoo = .ok (.zoo hs)) (hnodup : hs.Nodup)
    (hlive : ∀ x ∈ hs, ∃ o, s.zoo.get x = .ok o) (hb : s.shared.issued < handleLimit)
    (cell : Cell FatHandle) :
    FailsFor (fun f => f = .nullOut ∧ cell = none ∨ f = .countOverflow ∧ ∃ x ∈ hs, s.zoo.Full x)
      (iterator zoo cell s) := by
  have hanimals : ∀ x ∈ hs, ∃ o, s.zoo.get? x = some o := by
    intro x hx
    obtain ⟨o, ho⟩ := hlive x hx
    exact ⟨o, Table.get_ok ho⟩
  refine zooSite.guard_fails (.bind ((Fixed.require_fails cell).failing fun _ _ => .inl) fun _ =>
    .bind_run (animalsOf_run hz) ?_)
  rw [← acquireAllOr_rollBack]
  rcases acquireAllOr_takes hnodup hanimals [] with ⟨u, hu, hall⟩ | ⟨x, hx, hfull, given, u, hall⟩
  · -- the new iterator is found under its handle
    have hinsert : part.insert (.iterator hs 0) u =
        (.ok u.shared.nextHandle, (part.insert (.iterator hs 0) u).2) := rfl
    have hnew : (part.insert (.iterator hs 0) u).2.zoo.get u.shared.nextHandle
        = .ok (.iterator hs 0) := by
      refine Table.get_some ?_ ?_
      · exact Shared.nextHandle_isNull (hu ▸ hb)
      · exact (u.zoo.get?_insert u.shared.nextHandle (u.shared.issued + 1) _ _).trans (if_pos rfl)
    exact .bind_run (hall _) (.bind_run hinsert (.bind_run (fat_run hnew)
      (.pure fun _ _ => trivial)))
  · obtain ⟨_, v, hback, -⟩ :=
      ((outlastsInserts_true part).rollBack_answers given).run_ok (s := u) trivial
    have hrun : acquireAllOr part.rollBack [] hs s = (.error .countOverflow, v) :=
      (hall _).trans (run_bind_ok hback)
    rintro w rfl
    show Either _ _ ((acquireAllOr part.rollBack [] hs >>= _) w).1 _
    rw [run_bind_error hrun]
    exact .inr ⟨rfl, x, hx, hfull⟩

/-- The next animal is handed out, unless its count is full. -/
theorem advance_fails (hit : s.zoo.get it = .ok (.iterator hs k))
    (hlive : ∀ x ∈ hs, ∃ o, s.zoo.get x = .ok o) :
    Does (fun u => u = s) (advance it) (fun next _ => next = none → hs.length ≤ k)
      fun f _ => f = .countOverflow ∧ ∃ x, hs[k]? = some x ∧ s.zoo.Full x := by
  refine .of_run ?_
  rintro u rfl
  cases hx : hs[k]? with
  | none =>
    exact .inl ⟨none, _, advance_ended hit hx, fun _ => List.getElem?_eq_none_iff.mp hx⟩
  | some x =>
    obtain ⟨o, ho⟩ := hlive x (List.mem_of_getElem? hx)
    by_cases hfull : u.zoo.Full x
    · exact .inr ⟨_, _, advance_full hit hx ho (Table.acquire_full hfull), rfl, x, rfl, hfull⟩
    · obtain ⟨t, ht⟩ := Table.acquire_room (Table.get_ok ho) hfull
      exact .inl ⟨_, _, advance_hands hit hx ho ht, by simp⟩

section

variable (hit : s.zoo.get it = .ok (.iterator hs k)) (hlive : ∀ x ∈ hs, ∃ o, s.zoo.get x = .ok o)
include hit hlive

theorem nextAnimal_fails (animal : Cell FatHandle) (hasAnimal : Cell Bool) :
    FailsFor (fun f => f = .nullOut ∧ (animal = none ∨ hasAnimal = none) ∨
      f = .countOverflow ∧ ∃ x, hs[k]? = some x ∧ s.zoo.Full x)
      (nextAnimal it animal hasAnimal s) := by
  refine zooSite.guard_fails ?_
  refine .bind ((Fixed.require_fails animal).failing fun _ _ h => .inl ⟨h.1, .inl h.2⟩) fun _ => ?_
  refine .bind ((Fixed.require_fails hasAnimal).failing fun _ _ h => .inl ⟨h.1, .inr h.2⟩) fun _ => ?_
  refine .bind ((advance_fails hit hlive).failing fun _ _ => .inr) fun next => ?_
  cases next <;> exact .pure fun _ _ => trivial

/-- The end of the list is a failure here. -/
theorem nextMandatoryAnimal_fails (animal : Cell FatHandle) :
    FailsFor (fun f => (f = .nullOut ∧ animal = none ∨ f = .exhausted ∧ hs.length ≤ k) ∨
      f = .countOverflow ∧ ∃ x, hs[k]? = some x ∧ s.zoo.Full x)
      (nextMandatoryAnimal it animal s) := by
  refine zooSite.guard_fails ?_
  refine .bind ((Fixed.require_fails animal).failing fun _ _ h => .inl (.inl h)) fun _ => ?_
  refine .bind ((advance_fails hit hlive).failing fun _ _ => .inr) fun next => ?_
  cases next with
  | some next => exact .pure fun _ _ => trivial
  | none => exact .throw fun _ h => .inl (.inr ⟨rfl, h rfl⟩)

end

end Zoo

end Boundary
