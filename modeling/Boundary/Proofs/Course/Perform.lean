/-
  Boundary.Proofs.Course.Perform — the course of any call.

  `OutlastsCalls` says of what is known that it outlasts all that calls are made of, but for the
  things that depend on the call: the records of failures, on the target of the call, the lookup
  method that it hands over, and what it does to the objects of the zoo component (`Call.Spares`).
  `OutlastsInjection`: it outlasts any lookup method that is taken on, too. What is known of more
  than the objects outlasts any change of those in the other components (`OutlastsUpdates`), and new
  objects of the zoo component and animals that are added (`OutlastsGrowth`): all that calls do but
  for an iterator that moves on.

  Proved: every guarded call is routed (`OutlastsCalls.routed`, `perform_routed`), so what is known
  is kept by every call whose records and whose objects keep it (`OutlastsCalls.keeps`,
  `OutlastsInjection.keeps`, `OutlastsUpdates.keeps`, `perform_keeps`).
-/
import Boundary.Proofs.Course.Exports

namespace Boundary

variable {ω ρ : Type} {P : Process ω → Prop} {A : Address → Prop} {out : Outside ω}
  {via : Invoker (Process ω)}

/-! ## Targets -/

namespace Call

/-- The component that guards the call, and its target there; none if the call is not
    guarded. -/
def guard {ρ : Type} : Call ρ → Option (Component × Handle)
  | entryPoint _ _ | lookupSymbol _ _ _ | registerSymbol _ _ _ | getLastError _ _ _ _ _ => none
  | getVersion c _ _ _ => some (c, Handle.null)
  | acquireInstance c h => some (c, h)
  | releaseInstance c h => some (c, h)
  | classTypeId c h _ => some (c, h)
  | createZoo _ => some (.zoo, Handle.null)
  | addAnimal h _ _ => some (.zoo, h)
  | animalCount h _ => some (.zoo, h)
  | animalAt h _ _ => some (.zoo, h)
  | iterator h _ => some (.zoo, h)
  | animalName h _ _ => some (.zoo, h)
  | tigerRoar h _ _ => some (.zoo, h)
  | nextAnimal h _ _ => some (.zoo, h)
  | nextMandatoryAnimal h _ => some (.zoo, h)
  | createVariable _ _ => some (.calculator, Handle.null)
  | createCalculator _ => some (.calculator, Handle.null)
  | getVariable h _ => some (.calculator, h)
  | setVariable h _ => some (.calculator, h)
  | enlistVariable h _ => some (.calculator, h)
  | enlistedVariable h _ _ => some (.calculator, h)
  | clearVariables h => some (.calculator, h)
  | add h _ => some (.calculator, h)
  | multiply h _ => some (.calculator, h)
  | apply h _ _ => some (.calculator, h)
  | injectComponent _ _ => some (.calculator, Handle.null)
  | enlistPrimes h _ => some (.calculator, h)
  | createFactorization _ => some (.primes, Handle.null)
  | createSieve _ => some (.primes, Handle.null)
  | getValue h _ => some (.primes, h)
  | setValue h _ => some (.primes, h)
  | calculate h => some (.primes, h)
  | setProgressCallback h _ => some (.primes, h)
  | primeFactors h _ _ => some (.primes, h)
  | primes h _ _ => some (.primes, h)

def Asks {ρ : Type} : Call ρ → Prop
  | injectComponent _ _ | enlistPrimes _ _ => True
  | _ => False

def sieve {ρ : Type} : Call ρ → Handle
  | enlistPrimes _ sieve => sieve
  | _ => Handle.null

def advances {ρ : Type} : Call ρ → Option Handle
  | nextAnimal h _ _ => some h
  | nextMandatoryAnimal h _ => some h
  | _ => none

def grows {ρ : Type} : Call ρ → Option Handle
  | addAnimal h _ _ => some h
  | _ => none

def makes {ρ : Type} : Call ρ → Zoo.Object → Prop
  | createZoo _, _ => True
  | addAnimal _ _ _, .animal _ _ => True
  | iterator _ _, .iterator _ position => position = 0
  | _, _ => False

def handedOver {ρ : Type} : Call ρ → Option Address
  | injectComponent _ lookup => lookup
  | _ => none

end Call

/-! ## Any component -/

def Component.fail (c : Component) (h : Handle) (why : Fault) : Act ω Unit :=
  match c with
  | .zoo => Process.zooPart.fail h why
  | .calculator => Process.calculatorPart.fail h why
  | .primes => Process.primesPart.fail h why

def Component.Routes (c : Component) (h : Handle) (P : Process ω → Prop)
    (x : Act ω (Status × ρ)) : Prop :=
  match c with
  | .zoo => Routed Process.zooPart h P x
  | .calculator => Routed Process.calculatorPart h P x
  | .primes => Routed Process.primesPart h P x

theorem Component.Routes.tells {c : Component} {h : Handle} {x : Act ω (Status × ρ)}
    (hx : c.Routes h P x) : Ends P x fun r s => (r.1 = Status.ok ∧ P s) ∨
      ∃ why s', r.1 = why.code ∧ why.code ≠ Status.ok ∧ P s' ∧ s = (c.fail h why s').2 := by
  cases c with
  | zoo => exact Routed.tells hx
  | calculator => exact Routed.tells hx
  | primes => exact Routed.tells hx

/-! ## All calls -/

/-- It outlasts the objects that calls make and the changes they make of them. -/
structure OutlastsCalls (out : Outside ω) (A : Address → Prop) (P : Process ω → Prop) : Prop where
  zoo : OutlastsRefs Process.zooPart P
  calculator : OutlastsRefs Process.calculatorPart P
  primes : OutlastsRefs Process.primesPart P
  makeCalculator : ∀ o, o.Fresh → ∀ s, P s → P (Process.calculatorPart.insert o s).2
  makePrimes : ∀ kind s, P s → P (Process.primesPart.insert { kind := kind } s).2
  changeCalculator : ∀ x f s, Calculator.Change s.calculator f → P s →
    P (Process.calculatorPart.update x f s).2
  changePrimes : ∀ x f s, Primes.Change f → P s → P (Process.primesPart.update x f s).2
  found : ∀ x n outcome s, outcome.Listed → P s →
    P (Process.primesPart.updateHeld x n (Primes.found outcome) s).2
  -- the registry and the injected component
  entryPoint : ∀ c address s, P s → P (Boundary.entryPoint c address s).2
  registerSymbol : ∀ ns name address s, P s → P (Boundary.registerSymbol ns name address s).2
  injected : ∀ a s, P s → s.injected = some a → A a
  -- outside the components
  apply : ∀ a x, Ends P (out.apply a x) fun _ => P
  progress : ∀ f p, Ends P (out.progress f p) fun _ => P

structure OutlastsInjection (out : Outside ω) (A : Address → Prop) (P : Process ω → Prop) : Prop
    extends OutlastsCalls out A P where
  inject : ∀ a v s, A a → P s → P (Journal.note (.injected v) { s with injected := some a })

structure OutlastsUpdates (out : Outside ω) (A : Address → Prop) (P : Process ω → Prop) : Prop where
  zoo : OutlastsRefs Process.zooPart P
  calculator : OutlastsInserts Process.calculatorPart P
  primes : OutlastsInserts Process.primesPart P
  updateCalculator : ∀ x f s, P s → P (Process.calculatorPart.update x f s).2
  updatePrimes : ∀ x f s, P s → P (Process.primesPart.update x f s).2
  updateHeld : ∀ x n f s, P s → P (Process.primesPart.updateHeld x n f s).2
  -- the registry and the injected component
  entryPoint : ∀ c address s, P s → P (Boundary.entryPoint c address s).2
  registerSymbol : ∀ ns name address s, P s → P (Boundary.registerSymbol ns name address s).2
  injected : ∀ a s, P s → s.injected = some a → A a
  inject : ∀ a v s, A a → P s → P (Journal.note (.injected v) { s with injected := some a })
  -- outside the components
  apply : ∀ a x, Ends P (out.apply a x) fun _ => P
  progress : ∀ f p, Ends P (out.progress f p) fun _ => P

theorem OutlastsUpdates.outlastsInjection (l : OutlastsUpdates out A P) :
    OutlastsInjection out A P where
  zoo := l.zoo
  calculator := l.calculator.toOutlastsRefs
  primes := l.primes.toOutlastsRefs
  makeCalculator o _ := l.calculator.insert o
  makePrimes _ := l.primes.insert _
  changeCalculator x f s _ := l.updateCalculator x f s
  changePrimes x f s _ := l.updatePrimes x f s
  found x n _ s _ := l.updateHeld x n _ s
  entryPoint := l.entryPoint
  registerSymbol := l.registerSymbol
  injected := l.injected
  inject := l.inject
  apply := l.apply
  progress := l.progress

structure OutlastsGrowth (out : Outside ω) (A : Address → Prop) (P : Process ω → Prop) : Prop
    extends OutlastsUpdates out A P where
  makeZoo : ∀ o s, P s → P (Process.zooPart.insert o s).2
  pushAnimal : ∀ x a s, P s → P (Process.zooPart.update x (Zoo.pushAnimal a) s).2

/-- What the call does to the objects of the zoo component keeps what is known. -/
structure Call.Spares (P : Process ω → Prop) (c : Call ρ) : Prop where
  make : ∀ o, c.makes o → ∀ s, P s → P (Process.zooPart.insert o s).2
  grow : ∀ x, c.grows = some x → ∀ a s, P s → P (Process.zooPart.update x (Zoo.pushAnimal a) s).2
  advance : ∀ it, c.advances = some it → ∀ s, P s → P (Process.zooPart.update it Zoo.stepOn s).2

theorem getLastError_same (c : Component) (h : Handle) (capacity : UInt32)
    (place : Exchange.Place UInt32 UInt8) (hasError : Exchange.Cell Bool) (s : Process ω) :
    (perform out via (.getLastError c h capacity place hasError) s).2 = s := by
  cases c with
  | zoo => exact Fixed.getLastError_same (p := Process.zooPart) h capacity place hasError s
  | calculator =>
    exact Fixed.getLastError_same (p := Process.calculatorPart) h capacity place hasError s
  | primes => exact Fixed.getLastError_same (p := Process.primesPart) h capacity place hasError s

theorem OutlastsCalls.routed (l : OutlastsCalls out A P) {c : Call ρ}
    (inner : c.Asks → Inner via P A c.sieve) (spares : c.Spares P)
    (hover : ∀ a, c.handedOver = some a → A a ∧ ∀ v s, P s →
      P (Journal.note (.injected v) { s with injected := some a })) {site : Component × Handle}
    (hc : c.guard = some site) : site.1.Routes site.2 P (perform out via c) := by
  have hvar (value : Float) (s : Process ω) (hv : value.isFinite = true) :
      P s → P (Process.calculatorPart.insert (.var value) s).2 := l.makeCalculator (.var value) hv s
  have hextend (x : Handle) (vs : List Handle) (s : Process ω)
      (hvs : Calculator.Variables s.calculator vs) :
      P s → P (Process.calculatorPart.update x (Calculator.extend vs) s).2 :=
    l.changeCalculator x _ s (.extend hvs)
  cases c <;> cases hc
  case getVersion c major minor micro => cases c <;> exact Fixed.getVersion_routed _ _ _ _
  case acquireInstance c h =>
    cases c with
    | zoo => exact Fixed.acquireInstance_routed l.zoo h
    | calculator => exact Fixed.acquireInstance_routed l.calculator h
    | primes => exact Fixed.acquireInstance_routed l.primes h
  case releaseInstance c h =>
    cases c with
    | zoo => exact Fixed.releaseInstance_routed l.zoo h
    | calculator => exact Fixed.releaseInstance_routed l.calculator h
    | primes => exact Fixed.releaseInstance_routed l.primes h
  case classTypeId c h tag => cases c <;> exact Fixed.classTypeId_routed h tag
  case createZoo zoo => exact Zoo.createZoo_routed (fun o => spares.make o trivial) zoo
  case addAnimal zoo species name =>
    exact Zoo.addAnimal_routed (fun _ _ => spares.make (.animal _ _) trivial)
      (spares.grow zoo rfl) species name
  case animalCount zoo count => exact Zoo.animalCount_routed zoo count
  case animalAt zoo index animal => exact Zoo.animalAt_routed zoo index animal
  case iterator zoo cell =>
    exact Zoo.iterator_routed l.zoo (fun _ => spares.make (.iterator _ 0) rfl) zoo cell
  case animalName animal capacity place => exact Zoo.animalName_routed animal capacity place
  case tigerRoar tiger capacity place => exact Zoo.tigerRoar_routed tiger capacity place
  case nextAnimal it animal has =>
    exact Zoo.nextAnimal_routed l.zoo (spares.advance it rfl) animal has
  case nextMandatoryAnimal it animal =>
    exact Zoo.nextMandatoryAnimal_routed l.zoo (spares.advance it rfl) animal
  case createVariable initial v => exact Calculator.createVariable_routed hvar initial v
  case createCalculator cell =>
    exact Calculator.createCalculator_routed (l.makeCalculator (.calculator []) rfl) cell
  case getVariable v value => exact Calculator.getVariable_routed v value
  case setVariable v value =>
    exact Calculator.setVariable_routed (fun _ s hv => l.changeCalculator v _ s (.store hv)) value
  case enlistVariable x v =>
    exact Calculator.enlistVariable_routed l.calculator (hextend x) v
  case enlistedVariable x index v =>
    exact Calculator.enlistedVariable_routed l.calculator x index v
  case clearVariables x =>
    exact Calculator.clearVariables_routed l.calculator fun s => l.changeCalculator x _ s .clear
  case add x sum => exact Calculator.combine_routed hvar x _ _ sum
  case multiply x product => exact Calculator.combine_routed hvar x _ _ product
  case apply x ns name =>
    exact Calculator.apply_routed l.apply (fun v _ s hv => l.changeCalculator v _ s (.store hv))
      x ns name
  case injectComponent ns lookup =>
    exact Calculator.injectComponent_routed (inner trivial) ns hover
  case enlistPrimes x sieve =>
    exact Calculator.enlistPrimes_routed (inner trivial) l.calculator hvar (hextend x) l.injected
  case createFactorization cell => exact Primes.create_routed l.makePrimes _ cell
  case createSieve cell => exact Primes.create_routed l.makePrimes _ cell
  case getValue x value => exact Primes.getValue_routed x value
  case setValue x value => exact Primes.setValue_routed (l.changePrimes x) value
  case calculate x => exact Primes.calculate_routed l.progress (l.found x)
  case setProgressCallback x callback =>
    exact Primes.setProgressCallback_routed (l.changePrimes x) callback
  case primeFactors x capacity place => exact Primes.primeFactors_routed x capacity place
  case primes x capacity place => exact Primes.primes_routed x capacity place

theorem OutlastsCalls.unguarded (l : OutlastsCalls out A P) {c : Call ρ} (hc : c.guard = none) :
    Ends P (perform out via c) fun _ => P := by
  intro s hs
  cases c <;> cases hc
  case entryPoint c address => exact l.entryPoint c address s hs
  case lookupSymbol ns name address =>
    show P (lookupSymbol ns name address s).2
    rwa [lookupSymbol_same]
  case registerSymbol ns name address => exact l.registerSymbol ns name address s hs
  case getLastError c h capacity place hasError =>
    rwa [getLastError_same]

/-- What outlasts the moves and the records of a call outlasts the call. -/
theorem OutlastsCalls.keeps (l : OutlastsCalls out A P) {c : Call ρ}
    (inner : c.Asks → Inner via P A c.sieve) (spares : c.Spares P)
    (hover : ∀ a, c.handedOver = some a → A a ∧ ∀ v s, P s →
      P (Journal.note (.injected v) { s with injected := some a }))
    (hfail : ∀ site, c.guard = some site → ∀ why s, P s → P (site.1.fail site.2 why s).2) :
    Ends P (perform out via c) fun _ => P := by
  cases hc : c.guard with
  | none => exact l.unguarded hc
  | some site =>
    refine (l.routed inner spares hover hc).tells.post fun r s hr => ?_
    rcases hr with ⟨-, h⟩ | ⟨why, s', -, -, h, rfl⟩
    · exact h
    · exact hfail site hc why s' h

section

variable (l : OutlastsInjection out A P) {c : Call ρ} (inner : c.Asks → Inner via P A c.sieve)
  (spares : c.Spares P) (hover : ∀ a, c.handedOver = some a → A a)
include l inner spares hover

theorem OutlastsInjection.routed {site : Component × Handle} (hc : c.guard = some site) :
    site.1.Routes site.2 P (perform out via c) :=
  l.toOutlastsCalls.routed inner spares
    (fun a ha => ⟨hover a ha, fun v s => l.inject a v s (hover a ha)⟩) hc

theorem OutlastsInjection.keeps
    (hfail : ∀ site, c.guard = some site → ∀ why s, P s → P (site.1.fail site.2 why s).2) :
    Ends P (perform out via c) fun _ => P :=
  l.toOutlastsCalls.keeps inner spares (fun a ha => ⟨hover a ha, fun v s => l.inject a v s (hover a ha)⟩) hfail

end

theorem perform_unguarded (l : OutlastsUpdates out A P) {c : Call ρ} (hc : c.guard = none) :
    Ends P (perform out via c) fun _ => P :=
  l.outlastsInjection.toOutlastsCalls.unguarded hc

theorem OutlastsUpdates.keeps (l : OutlastsUpdates out A P) {c : Call ρ}
    (inner : c.Asks → Inner via P A c.sieve) (spares : c.Spares P)
    (hover : ∀ a, c.handedOver = some a → A a)
    (hfail : ∀ site, c.guard = some site → ∀ why s, P s → P (site.1.fail site.2 why s).2) :
    Ends P (perform out via c) fun _ => P :=
  l.outlastsInjection.keeps inner spares hover hfail

theorem perform_routed (l : OutlastsGrowth out A P) {c : Call ρ}
    (inner : c.Asks → Inner via P A c.sieve)
    (hstep : ∀ it, c.advances = some it → ∀ s, P s →
      P (Process.zooPart.update it Zoo.stepOn s).2)
    (hover : ∀ a, c.handedOver = some a → A a) {site : Component × Handle}
    (hc : c.guard = some site) : site.1.Routes site.2 P (perform out via c) :=
  l.outlastsInjection.routed inner ⟨fun o _ => l.makeZoo o, fun x _ => l.pushAnimal x, hstep⟩ hover hc

theorem perform_keeps (l : OutlastsGrowth out A P) {c : Call ρ}
    (inner : c.Asks → Inner via P A c.sieve)
    (hstep : ∀ it, c.advances = some it → ∀ s, P s →
      P (Process.zooPart.update it Zoo.stepOn s).2)
    (hover : ∀ a, c.handedOver = some a → A a)
    (hfail : ∀ site, c.guard = some site → ∀ why s, P s → P (site.1.fail site.2 why s).2) :
    Ends P (perform out via c) fun _ => P :=
  l.toOutlastsUpdates.keeps inner ⟨fun o _ => l.makeZoo o, fun x _ => l.pushAnimal x, hstep⟩ hover
    hfail

/-! ## Calls between components -/

/-- A function of this process answers, or one outside that is reached. -/
theorem Outside.inner (out : Outside ω) {sieve : Handle}
    (hleads : ∀ name s, P s → ∀ b, (lookupSymbol (.text Calculator.primesNs) (.text name)
      (some none) s).1.2 = some (some b) → A b)
    (hcall : ∀ f, A (.foreign f) → ∀ {ρ : Type} (c : Call ρ), Ends P (out.call f c) fun _ => P)
    (hleadsOn : ∀ f, A (.foreign f) → ∀ name s b,
      (out.call f (.lookupSymbol (.text Calculator.primesNs) (.text name) (some none)) s).1.2
        = some (some b) → A b)
    (hfail : ∀ why s, P s → P (Process.primesPart.fail sieve why s).2) :
    Inner (out.reach via) P A sieve where
  lookup a ha name := by
    cases a with
    | native e =>
      intro s hs
      refine ⟨hleads name s hs, ?_⟩
      show P (lookupSymbol _ _ _ s).2
      rwa [lookupSymbol_same]
    | foreign f => exact fun s hs => ⟨hleadsOn f ha name s, hcall f ha _ s hs⟩
  version hnull a ha := by
    subst hnull
    cases a with
    | native e => exact (Fixed.getVersion_routed _ _ _ _).keeps hfail
    | foreign f => exact hcall f ha _
  lastError a ha capacity place hasError := by
    cases a with
    | native e =>
      intro s hs
      show P (perform out via (.getLastError .primes sieve capacity place hasError) s).2
      rwa [getLastError_same]
    | foreign f => exact hcall f ha _
  primes a ha capacity place := by
    cases a with
    | native e => exact (Primes.primes_routed sieve capacity place).keeps hfail
    | foreign f => exact hcall f ha _

/-! ## Functions that keep apart -/

/-- Whatever the functions outside the components do, they do outside: they make no calls. -/
structure Outside.Detached (out : Outside ω) : Prop where
  call : ∀ {ρ : Type} (f : Foreign) (c : Call ρ) s, ∃ w, (out.call f c s).2 = { s with outer := w }
  apply : ∀ a x s, ∃ w, (out.apply a x s).2 = { s with outer := w }
  progress : ∀ f p s, ∃ w, (out.progress f p s).2 = { s with outer := w }

def idle : Outside Unit where
  call _ c := pure (Status.notImplemented, c.cells)
  apply _ x := pure x
  progress _ _ := pure false

theorem idle_detached : idle.Detached :=
  ⟨fun _ _ _ => ⟨(), rfl⟩, fun _ _ _ => ⟨(), rfl⟩, fun _ _ _ => ⟨(), rfl⟩⟩

theorem ends_outer {α : Type} {x : Act ω α} (h : ∀ s, ∃ w, (x s).2 = { s with outer := w })
    (ho : ∀ s w, P s → P { s with outer := w }) : Ends P x fun _ => P := by
  intro s hs
  obtain ⟨w, hw⟩ := h s
  rw [hw]
  exact ho s w hs

/-- A function that keeps apart answers, or one of this process. -/
theorem Outside.Detached.inner (d : out.Detached) (ho : ∀ s w, P s → P { s with outer := w })
    {sieve : Handle} (hfail : ∀ why s, P s → P (Process.primesPart.fail sieve why s).2) :
    Inner (out.reach via) P (fun _ => True) sieve :=
  out.inner (fun _ _ _ _ _ => trivial) (fun f _ _ c => ends_outer (d.call f c) ho)
    (fun _ _ _ _ _ _ => trivial) hfail

end Boundary
