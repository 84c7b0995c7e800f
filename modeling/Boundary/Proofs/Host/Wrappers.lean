/-
  Boundary.Proofs.Host.Wrappers — what the methods of the wrappers do to the ledger.

  A method makes one owned wrapper, with the reference it stands for, or it moves none.
  Nobody asks for more than the component: the class of the object is not assumed. An
  iterator is moved on, and a zoo grows, if that is allowed.
-/
import Boundary.Host.Calculator
import Boundary.Host.Primes
import Boundary.Host.Zoo
import Boundary.Proofs.Host.Instance

namespace Boundary.Host

open Exchange (Host Place)

variable {ω α ρ : Type} {e : Ledger} {out : Outside ω} {leave : Leave}
  {B : Ledger → Process ω → Prop} {i : Instance} {l : Library}

/-- Makes one wrapper with a reference of its own, or fails and moves none. -/
def Makes (B : Ledger → Process ω → Prop) (x : Host (Process ω) Instance) : Prop :=
  ∀ e, Does (B e) x (fun i s => i.Home ∧ B (e + i.holds) s) fun _ => B e

/-- What a call gave is what the wrapper holds. -/
theorem made_from (u : Upheld out leave B) (hi : i.Home) {k : Component}
    (hk : i.library.component = k) {P : Process ω → Prop} {c : Call ρ}
    (hcall : Ends P (perform out (out.reach .none) c)
      fun r => B (e + if r.1 = Status.ok then c.gives r.2 else 0))
    (target : Class) {raw : ρ → RawHandle}
    (hg : ∀ cells, c.gives cells = .of k [(raw cells).handle]) :
    Does P (do
        let cells ← i.ask out.invoker c
        resolve out.invoker i.library target (raw cells))
      (fun i s => i.Home ∧ B (e + i.holds) s) fun _ => B e := by
  subst hk
  refine .bind (Instance.ask_from u hi hcall) fun cells => ?_
  rw [hg]
  exact resolve_does u hi target (raw cells)

theorem made_does (u : Upheld out leave B) (hi : i.Home) {k : Component}
    (hk : i.library.component = k) {c : Call ρ} (hc : c.Plain) (hmay : c.Allowed leave)
    (target : Class) {raw : ρ → RawHandle}
    (hg : ∀ cells, c.gives cells = .of k [(raw cells).handle]) :
    Does (B e) (do
        let cells ← i.ask out.invoker c
        resolve out.invoker i.library target (raw cells))
      (fun i s => i.Home ∧ B (e + i.holds) s) fun _ => B e :=
  made_from u hi hk (u.call c hc hmay e) target hg

/-- What notes and the calls for a text keep, fetching it keeps. -/
theorem fetchText_keeps {P : Process ω → Prop} (hP : OutlastsNotes P)
    {c : Handle → UInt32 → Place UInt32 UInt8 → Call (Place UInt32 UInt8)}
    (hasks : ∀ h n place, Does P (i.ask out.invoker (c h n place)) (fun _ => P) fun _ => P) :
    Does P (i.fetchText out.invoker c) (fun _ => P) fun _ => P := by
  refine .bind Instance.checked_does fun h => .assume fun _ => ?_
  refine Exchange.fetchText_does hP (fun _ _ h _ => h) (fun room => ?_) _
  exact .bind (hasks _ _ _) fun _ => .pure fun _ h => h

theorem fetchText_movesNone (u : Upheld out leave B) (hi : i.Home)
    {c : Handle → UInt32 → Place UInt32 UInt8 → Call (Place UInt32 UInt8)}
    (hc : ∀ h n place, (c h n place).Plain ∧ (c h n place).Allowed leave)
    (hg : ∀ h n place cells, (c h n place).gives cells = 0) :
    MovesNone B (i.fetchText out.invoker c) := by
  refine fun e => fetchText_keeps (u.outlastsNotes e) fun h n place => ?_
  refine (Instance.ask_does u hi (hc h n place).1 (hc h n place).2).post fun cells s hs => ?_
  rwa [hg, add_zero] at hs

/-! ## Zoos -/

namespace Zoo

theorem create_makes (u : Upheld out leave B) (hl : l.Home) (hc : l.component = .zoo) :
    Makes B (create out.invoker l) :=
  fun _ => made_does u (i := ⟨l, Handle.null⟩) hl hc (c := .createZoo (some FatHandle.null))
    (Ledger.of_null _) trivial .zoo fun _ => rfl

theorem addAnimal_movesNone (u : Upheld out leave B) (hi : i.Home) (hmay : leave.grow i.handle)
    (species : Boundary.Zoo.Species) (name : String) :
    MovesNone B (addAnimal out.invoker i species name) := by
  refine fun e => .bind Instance.checked_does fun h => .assume fun hh => ?_
  subst hh
  exact .ite (fun _ => .throw_bind fun _ h => h) fun _ => Instance.ask_does u hi rfl hmay

theorem animalCount_movesNone (u : Upheld out leave B) (hi : i.Home) :
    MovesNone B (animalCount out.invoker i) :=
  fun _ => .bind Instance.checked_does fun _ => .assume fun _ =>
    .bind (Instance.ask_does u hi rfl trivial) fun _ => .pure fun _ h => h

/-- The animal at an index is lent. -/
theorem animalAt_does (u : Upheld out leave B) (hi : i.Home) (index : UInt32) :
    Does (B e) (animalAt out.invoker i index)
      (fun animal s => (animal.Home ∧ animal.library = i.library) ∧ B e s) fun _ => B e :=
  .bind Instance.checked_does fun _ => .assume fun _ =>
    .bind (Instance.ask_does u hi rfl trivial) fun _ => resolveBorrowed_does u hi _ _

theorem iterate_makes (u : Upheld out leave B) (hi : i.Home) (hc : i.library.component = .zoo) :
    Makes B (iterate out.invoker i) :=
  fun _ => .bind Instance.checked_does fun h => .assume fun _ =>
    made_does u hi hc (c := .iterator h (some FatHandle.null))
      (Ledger.of_null _) trivial .animalIterator fun _ => rfl

/-- No animal comes at the end of the list, and nothing is made then. -/
def Came (B : Ledger → Process ω → Prop) (e : Ledger) : Option Instance → Process ω → Prop
  | some animal, s => animal.Home ∧ B (e + animal.holds) s
  | none, s => B e s

/-- The next animal, where it is known what the call comes to. -/
theorem nextAnimal_from (u : Upheld out leave B) (hi : i.Home) (hc : i.library.component = .zoo)
    {P : Process ω → Prop} (hnull : i.isNull = true → ∀ s, P s → B e s)
    (hcall : Ends P (perform out (out.reach .none)
        (.nextAnimal i.handle (some FatHandle.null) (some false)))
      fun r => B (e + if r.1 = Status.ok then
        Call.gives (.nextAnimal i.handle (some FatHandle.null) (some false)) r.2 else 0)) :
    Does P (nextAnimal out.invoker i) (Came B e) fun _ => B e := by
  refine .bind (Instance.checked_from hnull) fun h => .assume fun hh => ?_
  subst hh
  refine .bind (Instance.ask_from u hi hcall) fun (animal, hasAnimal) => ?_
  refine .ite (fun hsome => ?_) fun hnone => .pure fun s hs => ?_
  · refine .bind ((resolve_does u hi .animal _).pre fun s hs => ?_) fun _ => .pure fun _ h => h
    simp only [Call.gives, if_pos hsome] at hs
    rw [hc]
    exact hs
  · show B e s
    simpa only [Call.gives, if_neg hnone, add_zero] using hs

theorem nextAnimal_does (u : Upheld out leave B) (hi : i.Home) (hc : i.library.component = .zoo)
    (hmay : leave.advance i.handle) : Does (B e) (nextAnimal out.invoker i) (Came B e) fun _ => B e := by
  refine nextAnimal_from u hi hc (fun _ _ h => h)
    (u.call (.nextAnimal i.handle (some FatHandle.null) (some false)) ?_ hmay e)
  show (if some false = some true then Zoo.inCell (some FatHandle.null) else 0) = 0
  exact if_neg (by decide)

theorem nextMandatoryAnimal_from (u : Upheld out leave B) (hi : i.Home)
    (hc : i.library.component = .zoo) {P : Process ω → Prop}
    (hnull : i.isNull = true → ∀ s, P s → B e s)
    (hcall : Ends P (perform out (out.reach .none)
        (.nextMandatoryAnimal i.handle (some FatHandle.null)))
      fun r => B (e + if r.1 = Status.ok then
        Call.gives (.nextMandatoryAnimal i.handle (some FatHandle.null)) r.2 else 0)) :
    Does P (nextMandatoryAnimal out.invoker i) (fun i s => i.Home ∧ B (e + i.holds) s)
      fun _ => B e := by
  refine .bind (Instance.checked_from hnull) fun h => .assume fun hh => ?_
  subst hh
  exact made_from u hi hc hcall .animal fun _ => rfl

theorem nextMandatoryAnimal_makes (u : Upheld out leave B) (hi : i.Home)
    (hc : i.library.component = .zoo) (hmay : leave.advance i.handle) :
    Makes B (nextMandatoryAnimal out.invoker i) :=
  fun e => nextMandatoryAnimal_from u hi hc (fun _ _ h => h)
    (u.call (.nextMandatoryAnimal i.handle (some FatHandle.null)) (Ledger.of_null _) hmay e)

theorem animalName_movesNone (u : Upheld out leave B) (hi : i.Home) : MovesNone B (animalName out.invoker i) :=
  fetchText_movesNone u hi (fun _ _ _ => ⟨rfl, trivial⟩) fun _ _ _ _ => rfl

theorem roar_movesNone (u : Upheld out leave B) (hi : i.Home) : MovesNone B (roar out.invoker i) :=
  fetchText_movesNone u hi (fun _ _ _ => ⟨rfl, trivial⟩) fun _ _ _ _ => rfl

end Zoo

/-! ## Variables and calculators -/

namespace Calculator

theorem createVariable_makes (u : Upheld out leave B) (hl : l.Home) (hc : l.component = .calculator)
    (initial : Float) : Makes B (createVariable out.invoker l initial) :=
  fun _ => made_does u (i := ⟨l, Handle.null⟩) hl hc
    (c := .createVariable initial (some Handle.null))
    (Ledger.of_null _) trivial .calculatorVariable fun _ => rfl

theorem createCalculator_makes (u : Upheld out leave B) (hl : l.Home)
    (hc : l.component = .calculator) : Makes B (createCalculator out.invoker l) :=
  fun _ => made_does u (i := ⟨l, Handle.null⟩) hl hc (c := .createCalculator (some Handle.null))
    (Ledger.of_null _) trivial .calculator fun _ => rfl

theorem injectPrimes_movesNone (u : Upheld out leave B) (hl : l.Home) {p : Library} (hp : p.Home) :
    MovesNone B (injectPrimes out.invoker l p) := by
  refine fun e => .bind (textArg_does _) fun ns => .assume fun _ => ?_
  exact Library.ask_does u hl (c := .injectComponent ns (some p.lookup))
    (fun _ ha => Option.some.inj ha ▸ hp.lookup) trivial

theorem value_movesNone (u : Upheld out leave B) (hi : i.Home) : MovesNone B (value out.invoker i) :=
  fun _ => .bind Instance.checked_does fun _ => .assume fun _ =>
    .bind (Instance.ask_does u hi rfl trivial) fun _ => .pure fun _ h => h

theorem setValue_movesNone (u : Upheld out leave B) (hi : i.Home) (value : Float) :
    MovesNone B (setValue out.invoker i value) :=
  fun _ => .bind Instance.checked_does fun _ => .assume fun _ => Instance.ask_does u hi rfl trivial

theorem enlistVariable_movesNone (u : Upheld out leave B) (hi : i.Home) (v : Instance) :
    MovesNone B (enlistVariable out.invoker i v) :=
  fun _ => .bind Instance.checked_does fun _ => .assume fun _ =>
    .bind Instance.checked_does fun _ => .assume fun _ => Instance.ask_does u hi rfl trivial

theorem enlistedVariable_makes (u : Upheld out leave B) (hi : i.Home)
    (hc : i.library.component = .calculator) (index : UInt32) :
    Makes B (enlistedVariable out.invoker i index) :=
  fun _ => .bind Instance.checked_does fun h => .assume fun _ =>
    made_does u hi hc (c := .enlistedVariable h index (some Handle.null))
      (Ledger.of_null _) trivial .calculatorVariable fun _ => rfl

theorem clearVariables_movesNone (u : Upheld out leave B) (hi : i.Home) :
    MovesNone B (clearVariables out.invoker i) :=
  fun _ => .bind Instance.checked_does fun _ => .assume fun _ => Instance.ask_does u hi rfl trivial

theorem add_makes (u : Upheld out leave B) (hi : i.Home) (hc : i.library.component = .calculator) :
    Makes B (add out.invoker i) :=
  fun _ => .bind Instance.checked_does fun h => .assume fun _ =>
    made_does u hi hc (c := .add h (some Handle.null))
      (Ledger.of_null _) trivial .calculatorVariable fun _ => rfl

theorem multiply_makes (u : Upheld out leave B) (hi : i.Home)
    (hc : i.library.component = .calculator) :
    Makes B (multiply out.invoker i) :=
  fun _ => .bind Instance.checked_does fun h => .assume fun _ =>
    made_does u hi hc (c := .multiply h (some Handle.null))
      (Ledger.of_null _) trivial .calculatorVariable fun _ => rfl

theorem apply_movesNone (u : Upheld out leave B) (hi : i.Home) (s : Symbol) :
    MovesNone B (apply out.invoker i s) := by
  refine fun e => .bind Instance.checked_does fun h => .assume fun _ => ?_
  refine .bind (textArg_does s.ns) fun ns => .assume fun _ => ?_
  refine .bind (textArg_does s.name) fun name => .assume fun _ => ?_
  exact Instance.ask_does u hi rfl trivial

theorem enlistPrimes_movesNone (u : Upheld out leave B) (hi : i.Home) (sieve : Instance) :
    MovesNone B (enlistPrimes out.invoker i sieve) :=
  fun _ => .bind Instance.checked_does fun _ => .assume fun _ =>
    .bind Instance.checked_does fun _ => .assume fun _ => Instance.ask_does u hi rfl trivial

end Calculator

/-! ## Factorizations and sieves -/

namespace Primes

theorem createFactorization_makes (u : Upheld out leave B) (hl : l.Home)
    (hc : l.component = .primes) :
    Makes B (createFactorization out.invoker l) :=
  fun _ => made_does u (i := ⟨l, Handle.null⟩) hl hc (c := .createFactorization (some Handle.null))
    (Ledger.of_null _) trivial .factorizationCalculator fun _ => rfl

theorem createSieve_makes (u : Upheld out leave B) (hl : l.Home) (hc : l.component = .primes) :
    Makes B (createSieve out.invoker l) :=
  fun _ => made_does u (i := ⟨l, Handle.null⟩) hl hc (c := .createSieve (some Handle.null))
    (Ledger.of_null _) trivial .sieveCalculator fun _ => rfl

theorem value_movesNone (u : Upheld out leave B) (hi : i.Home) : MovesNone B (value out.invoker i) :=
  fun _ => .bind Instance.checked_does fun _ => .assume fun _ =>
    .bind (Instance.ask_does u hi rfl trivial) fun _ => .pure fun _ h => h

theorem setValue_movesNone (u : Upheld out leave B) (hi : i.Home) (value : UInt64) :
    MovesNone B (setValue out.invoker i value) :=
  fun _ => .bind Instance.checked_does fun _ => .assume fun _ => Instance.ask_does u hi rfl trivial

theorem calculate_movesNone (u : Upheld out leave B) (hi : i.Home) :
    MovesNone B (calculate out.invoker i) :=
  fun _ => .bind Instance.checked_does fun _ => .assume fun _ => Instance.ask_does u hi rfl trivial

theorem setProgressCallback_movesNone (u : Upheld out leave B) (hi : i.Home) (callback : Option Foreign) :
    MovesNone B (setProgressCallback out.invoker i callback) :=
  fun _ => .bind Instance.checked_does fun _ => .assume fun _ => Instance.ask_does u hi rfl trivial

theorem primeFactors_movesNone (u : Upheld out leave B) (hi : i.Home) :
    MovesNone B (primeFactors out.invoker i) := by
  refine fun e => .bind Instance.checked_does fun h => .assume fun _ => ?_
  refine Exchange.fetchArray_does (u.outlastsNotes e) (fun _ _ h _ => h) (fun room => ?_) _
  exact .bind (Instance.ask_does u hi rfl trivial) fun _ => .pure fun _ h => h

theorem primes_movesNone (u : Upheld out leave B) (hi : i.Home) :
    MovesNone B (primes out.invoker i) := by
  refine fun e => .bind Instance.checked_does fun h => .assume fun _ => ?_
  refine Exchange.fetchArray_does (u.outlastsNotes e) (fun _ _ h _ => h) (fun room => ?_) _
  exact .bind (Instance.ask_does u hi rfl trivial) fun _ => .pure fun _ h => h

end Primes

end Boundary.Host
