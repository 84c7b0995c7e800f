/-
  Boundary.Proofs.Ownership.RollBack — when references are given back for a call that failed.

  Three functions take references before it is certain that they succeed, and give back what
  they took if they do not. Each of them stands here once more with anything at all (`undo`)
  in the place of the roll back. Where that makes no difference, whatever `undo` is, the
  roll back is not reached.

  Proved:
  - an iterator is made without it, or the count of one of the zoo's animals is full
    (`iteratorOr_same`);
  - a variable is enlisted without it in a calculator that is alive (`enlistVariableOr_same`);
  - so are the primes of a sieve, whatever they are enlisted in, or handles have come round
    (`enlistPrimesOr_same`).
-/
import Boundary.Proofs.Exports.Calculator
import Boundary.Proofs.Zoo.Contents

namespace Boundary

open Exchange (Cell)

variable {ω σ α β O : Type} {s u : Process ω}

/-! ## Counts that are full -/

namespace Table

variable {t t' : Table O} {x y : Handle} {o : O}

def Full (t : Table O) (x : Handle) : Prop := t.count? x = some 4294967295

theorem acquire_full (h : t.Full x) : t.acquire x = .error .countOverflow := by
  obtain ⟨slot, hslot, hcount⟩ := Option.map_eq_some_iff.mp h
  rw [acquire, hslot]
  exact if_pos hcount

/-- A reference to one object leaves the counts of the others alone. -/
theorem Full.of_acquire (h : t.acquire x = .ok t') (hxy : x ≠ y) (hfull : t'.Full y) :
    t.Full y := by
  obtain ⟨slot, -, -, rfl⟩ := acquire_ok h
  unfold Full count? at hfull ⊢
  rwa [get?_setCount, if_neg hxy] at hfull

theorem get_acquire (h : t.acquire x = .ok t') (y : Handle) : t'.get y = t.get y := by
  obtain ⟨slot, -, -, rfl⟩ := acquire_ok h
  exact get_congr (t.object_setCount x _ y)

end Table

/-! ## Iterators -/

namespace Zoo

section

variable (undo : List Handle → Op (Process ω) Unit)

def acquireAllOr (taken : List Handle) : List Handle → Op (Process ω) Unit
  | [] => pure ()
  | h :: rest => do
    match ← (part.acquire h).outcome with
    | .ok _ => acquireAllOr (taken ++ [h]) rest
    | .error why => do
      undo taken
      throw why

def iteratorOr (zoo : Handle) (iterator : Cell FatHandle) : Act ω (Status × Cell FatHandle) :=
  part.guard zoo iterator do
    Fixed.require iterator
    let animals ← animalsOf zoo
    acquireAllOr undo [] animals
    let h ← part.insert (.iterator animals 0)
    return some (← fat h)

end

variable {zoo : Handle} {hs rest : List Handle}

theorem acquireAllOr_rollBack (taken rest : List Handle) :
    acquireAllOr (part (ω := ω)).rollBack taken rest = acquireAll taken rest := by
  induction rest generalizing taken with
  | nil => rfl
  | cons x rest ih =>
    refine bind_congr fun r => ?_
    cases r with
    | ok _ => exact ih _
    | error why => rfl

/-- With the roll back it is `iterator`. -/
theorem iteratorOr_rollBack (zoo : Handle) (cell : Cell FatHandle) :
    iteratorOr (part (ω := ω)).rollBack zoo cell = iterator zoo cell := by
  unfold iteratorOr iterator
  simp only [acquireAllOr_rollBack]

/-- References to different live objects are all taken, or a count is full and all that is left
    to do is to undo the rest. -/
theorem acquireAllOr_takes (hnodup : rest.Nodup) (hlive : ∀ x ∈ rest, ∃ o, s.zoo.get? x = some o)
    (taken : List Handle) :
    (∃ u : Process ω, u.shared = s.shared ∧
        ∀ undo, acquireAllOr undo taken rest s = (.ok (), u)) ∨
      ∃ x ∈ rest, s.zoo.Full x ∧ ∃ (given : List Handle) (u : Process ω), ∀ undo,
        acquireAllOr undo taken rest s = (undo given >>= fun _ => throw Fault.countOverflow) u := by
  induction rest generalizing taken s with
  | nil => exact .inl ⟨s, rfl, fun _ => rfl⟩
  | cons x rest ih =>
    obtain ⟨hx, hnodup⟩ := List.nodup_cons.mp hnodup
    obtain ⟨o, ho⟩ := hlive x List.mem_cons_self
    by_cases hfull : s.zoo.Full x
    · refine .inr ⟨x, List.mem_cons_self, hfull, taken, s, fun undo => ?_⟩
      exact run_bind_ok (Op.outcome_run (Part.acquire_error (Table.acquire_full hfull)))
    · obtain ⟨t, ht⟩ := Table.acquire_room ho hfull
      have hstep (undo : List Handle → Op (Process ω) Unit) :
          acquireAllOr undo taken (x :: rest) s
            = acquireAllOr undo (taken ++ [x]) rest { s with zoo := t } :=
        run_bind_ok (Op.outcome_run (Part.acquire_ok ht))
      have hrest : ∀ y ∈ rest, ∃ o, t.get? y = some o := by
        intro y hy
        obtain ⟨slot, -, -, rfl⟩ := Table.acquire_ok ht
        obtain ⟨o, ho⟩ := hlive y (List.mem_cons_of_mem x hy)
        exact ⟨o, (s.zoo.object_setCount x _ y).trans ho⟩
      rcases ih (s := { s with zoo := t }) hnodup hrest (taken ++ [x]) with
        ⟨u, hu, hall⟩ | ⟨y, hy, hyfull, given, u, hall⟩
      · exact .inl ⟨u, hu, fun undo => (hstep undo).trans (hall undo)⟩
      · have hxy : x ≠ y := fun h => hx (h ▸ hy)
        exact .inr ⟨y, List.mem_cons_of_mem x hy, Table.Full.of_acquire ht hxy hyfull, given, u,
          fun undo => (hstep undo).trans (hall undo)⟩

/-- Where a zoo's animals are alive and all different, only a full count lets it come to the
    roll back. -/
theorem iteratorOr_same
    (hanimals : ∀ hs, s.zoo.get? zoo = some (.zoo hs) →
      hs.Nodup ∧ ∀ x ∈ hs, ∃ o, s.zoo.get? x = some o)
    (undo : List Handle → Op (Process ω) Unit) (cell : Cell FatHandle) :
    iteratorOr undo zoo cell s = iterator zoo cell s ∨
      ∃ hs, s.zoo.get? zoo = some (.zoo hs) ∧ ∃ x ∈ hs, s.zoo.Full x := by
  by_cases hfull : ∃ hs, s.zoo.get? zoo = some (.zoo hs) ∧ ∃ x ∈ hs, s.zoo.Full x
  · exact .inr hfull
  · refine .inl ?_
    rw [← iteratorOr_rollBack]
    refine Part.guard_congr (run_bind_congr fun _ u hu => run_bind_congr fun hs v hv => ?_)
    obtain rfl := (Reads.lift _).after_ok hu
    obtain ⟨rfl, hzoo⟩ := (animalsOf_enrolled (· = u)).after_ok rfl hv
    obtain ⟨hnodup, hlive⟩ := hanimals hs hzoo
    rcases acquireAllOr_takes hnodup hlive [] with ⟨w, -, hall⟩ | ⟨x, hx, hx', -⟩
    · rw [run_bind_ok (hall undo), run_bind_ok (hall part.rollBack)]
    · exact absurd ⟨hs, hzoo, x, hx, hx'⟩ hfull

end Zoo

/-! ## Variables -/

namespace Calculator

section

variable (undo : List Handle → Op (Process ω) Unit)

def enlistAllOr (calculator : Handle) (vs : List Handle) : Op (Process ω) Unit := do
  match ← (enlistedIn calculator).outcome with
  | .ok _ => part.update calculator (extend vs)
  | .error why => do
    undo vs
    throw why

def enlistVariableOr (calculator v : Handle) : Act ω (Status × Unit) :=
  part.guard calculator () do
    let _ ← valueOf v
    part.acquire v
    enlistAllOr undo calculator [v]

def enlistPrimesOr (via : Invoker (Process ω)) (calculator sieve : Handle) :
    Act ω (Status × Unit) :=
  part.guard calculator () do
    let _ ← enlistedIn calculator
    let some lookup := (← getThe (Process ω)).injected | throw .notInjected
    let ps ← readPrimes via lookup sieve
    let vs ← insertAll [] ps
    enlistAllOr undo calculator vs

end

variable {calculator : Handle} {vs : List Handle}

theorem enlistedIn_fails (hc : ∀ vs, s.calculator.get calculator ≠ .ok (.calculator vs)) :
    ∃ why, enlistedIn calculator s = (.error why, s) := by
  cases hget : s.calculator.get calculator with
  | error why =>
    have hread : part.get calculator s = (.error why, s) := congrArg (·, s) hget
    exact ⟨why, run_bind_error hread⟩
  | ok o =>
    have hread : part.get calculator s = (.ok o, s) := congrArg (·, s) hget
    cases o with
    | var value => exact ⟨.notCalculator, run_bind_ok hread⟩
    | calculator vs => exact absurd hget (hc vs)

/-- With the roll back it is `enlistVariable`. -/
theorem enlistVariableOr_rollBack (calculator v : Handle) :
    enlistVariableOr (part (ω := ω)).rollBack calculator v = enlistVariable calculator v := rfl

/-- What is put into the list of a calculator that is alive stays there. -/
theorem enlistAllOr_same (hc : s.calculator.get calculator = .ok (.calculator vs))
    (undo : List Handle → Op (Process ω) Unit) (ws : List Handle) :
    enlistAllOr undo calculator ws s = enlistAll calculator ws s := by
  have hrun := Op.outcome_run (enlistedIn_run hc)
  rw [enlistAllOr, enlistAll, run_bind_ok hrun, run_bind_ok hrun]

theorem enlistVariableOr_same (hc : s.calculator.get calculator = .ok (.calculator vs))
    (undo : List Handle → Op (Process ω) Unit) (v : Handle) :
    enlistVariableOr undo calculator v s = enlistVariable calculator v s := by
  refine Part.guard_congr (run_bind_congr fun _ u hu => run_bind_congr fun _ w hw => ?_)
  obtain rfl := (valueOf_reads v).after_ok hu
  cases hacquire : u.calculator.acquire v with
  | error why =>
    rw [Part.acquire_error hacquire] at hw
    cases hw
  | ok t =>
    rw [Part.acquire_ok hacquire] at hw
    obtain rfl := (Prod.mk.inj hw).2
    exact enlistAllOr_same ((Table.get_acquire hacquire _).trans hc) undo [v]

/-! ## Primes -/

/-- With the roll back it is `enlistPrimes`. -/
theorem enlistPrimesOr_rollBack (via : Invoker (Process ω)) (calculator sieve : Handle) :
    enlistPrimesOr (part (ω := ω)).rollBack via calculator sieve
      = enlistPrimes via calculator sieve := rfl

def gatherPrimes (via : Invoker (Process ω)) (calculator sieve : Handle) :
    Op (Process ω) (List Handle) := do
  let _ ← enlistedIn calculator
  let some lookup := (← getThe (Process ω)).injected | throw .notInjected
  let ps ← readPrimes via lookup sieve
  insertAll [] ps

theorem enlistPrimesOr_gather (undo : List Handle → Op (Process ω) Unit)
    (via : Invoker (Process ω)) (calculator sieve : Handle) :
    enlistPrimesOr undo via calculator sieve
      = part.guard calculator () (gatherPrimes via calculator sieve >>=
          enlistAllOr undo calculator) := by
  refine congrArg (part.guard calculator ()) ?_
  rw [gatherPrimes, bind_assoc]
  refine bind_congr fun _ => ?_
  rw [bind_assoc]
  refine bind_congr fun s => ?_
  cases s.injected with
  | none => rfl
  | some lookup => exact (bind_assoc _ _ _).symm

structure Awaits (calculator : Handle) (s : Process ω) : Prop where
  reserved : s.registry.Guarded
  injected : ∀ a, s.injected = some a → a.Native
  found : s.shared.issued < handleLimit → calculator.raw.toNat ≤ s.shared.issued ∧
    ∃ vs, s.calculator.get calculator = .ok (.calculator vs)

theorem Awaits.insert (h : Awaits calculator s) (o : Object) :
    Awaits calculator (part.insert o s).2 := by
  refine ⟨h.reserved, h.injected, fun (hb : s.shared.issued + 1 < handleLimit) => ?_⟩
  obtain ⟨hle, vs, hget⟩ := h.found (Nat.lt_of_succ_lt hb)
  have hraw := Shared.nextHandle_raw (Nat.lt_of_succ_lt hb)
  have hne : s.shared.nextHandle ≠ calculator := by
    rintro rfl
    omega
  refine ⟨Nat.le_succ_of_le hle, vs, ?_⟩
  rw [← hget]
  exact Table.get_congr (s.calculator.get?_insert_ne hne _ _)

/-- Reading the primes component and making variables does nothing to the calculator. -/
theorem gatherPrimes_awaits (out : Outside ω) (via : Invoker (Process ω))
    (calculator sieve : Handle) :
    Fares (Awaits calculator) (gatherPrimes (out.reach via) calculator sieve) := by
  have hfail (why : Fault) (s : Process ω) (h : Awaits calculator s) :
      Awaits calculator (Process.primesPart.fail sieve why s).2 := by
    show Awaits calculator (Process.primesPart.recordError sieve why.message _).2
    unfold Part.recordError
    dsimp only
    split <;> exact ⟨h.reserved, h.injected, h.found⟩
  have inner : Inner (out.reach via) (Awaits calculator) Address.Native sieve :=
    native_inner via (fun _ h => h.reserved) hfail
  refine .bind (enlistedIn_fares calculator) fun _ => ?_
  refine Does.bind (Q := fun s s' => (∀ a, s.injected = some a → a.Native) ∧
    Awaits calculator s') (fun s h => ⟨h.injected, h⟩) fun s => .assume fun hinj => ?_
  split
  · next lookup hs =>
    refine Fares.bind (readPrimes_fares inner (hinj lookup hs)) fun ps => ?_
    exact Does.post (insertAll_fares (fun value s _ h => h.insert (.var value)) ps) fun _ _ h => h.2
  · exact Fares.throw (by decide)

/-- What is no calculator is refused at once, and a calculator that is alive is still there
    when its primes are. -/
theorem enlistPrimesOr_same (out : Outside ω) (via : Invoker (Process ω))
    (h : ∀ ws, s.calculator.get calculator = .ok (.calculator ws) → Awaits calculator s)
    (undo : List Handle → Op (Process ω) Unit) (sieve : Handle) :
    enlistPrimesOr undo (out.reach via) calculator sieve s
        = enlistPrimes (out.reach via) calculator sieve s ∨
      handleLimit ≤ (enlistPrimes (out.reach via) calculator sieve s).2.shared.issued := by
  by_cases hc : ∀ ws, s.calculator.get calculator ≠ .ok (.calculator ws)
  · obtain ⟨why, hrun⟩ := enlistedIn_fails hc
    refine .inl (Part.guard_congr ?_)
    rw [run_bind_error hrun, run_bind_error hrun]
  obtain ⟨ws, hws⟩ := not_forall_not.mp hc
  have hs : Awaits calculator s := h ws hws
  rw [← enlistPrimesOr_rollBack, enlistPrimesOr_gather, enlistPrimesOr_gather]
  cases hgather : gatherPrimes (out.reach via) calculator sieve s with
  | mk r u =>
    cases r with
    | error why =>
      refine .inl (Part.guard_congr ?_)
      rw [run_bind_error hgather, run_bind_error hgather]
    | ok vs =>
      have hdoes : Does _ _ (fun _ => Awaits calculator) _ :=
        gatherPrimes_awaits out via calculator sieve
      have hu := hdoes.after_ok hs hgather
      by_cases hb : u.shared.issued < handleLimit
      · obtain ⟨-, ws, hget⟩ := hu.found hb
        refine .inl (Part.guard_congr ?_)
        rw [run_bind_ok hgather, run_bind_ok hgather]
        exact enlistAllOr_same hget undo vs
      · -- handles are issued one after the other, so they have come round in the end as well
        refine .inr ((Nat.not_lt.mp hb).trans ?_)
        have m : OutlastsRefs part fun v : Process ω => u.shared.issued ≤ v.shared.issued :=
          calculatorBerth.outlastsRefs fun h l => h.trans l.issued
        have hlist : Does (fun v => v = u) (enlistAllOr part.rollBack calculator vs)
            (fun _ v => u.shared.issued ≤ v.shared.issued)
            fun _ v => u.shared.issued ≤ v.shared.issued :=
          ((enlistAll_extends m (R := fun _ => True) fun _ _ h => h).failing fun _ _ h => h.2).pre
            fun _ h => ⟨trivial, h ▸ le_rfl⟩
        exact Part.guard_leaves (Does.bind_run hgather hlist)
          (fun why v h => h.trans (calculatorBerth.fail _ why v).issued) s rfl

end Calculator

end Boundary
