/-
  Boundary.Proofs.Perform — what any call does to the ledger.

  `Call.gives` names the references in the outputs of a call that succeeded. A call is
  plain if it takes none from its caller and hands over no function from outside; among
  all functions only a release takes one.
-/
import Boundary.Proofs.Exports.Primes
import Boundary.Proofs.Exports.Zoo

namespace Boundary

open Exchange (Cell)

variable {ω O ρ : Type} {J : ω → Prop} {e : Ledger} {φ : Process ω → Prop} {out : Outside ω}

/-! ## What a call gives -/

namespace Call

def gives {ρ : Type} : Call ρ → ρ → Ledger
  | acquireInstance c h, _ => .of c [h]
  | createZoo _, zoo => Zoo.inCell zoo
  | iterator _ _, cell => Zoo.inCell cell
  | nextAnimal _ _ _, cells => if cells.2 = some true then Zoo.inCell cells.1 else 0
  | nextMandatoryAnimal _ _, animal => Zoo.inCell animal
  | createVariable _ _, v => Calculator.inCell v
  | createCalculator _, calculator => Calculator.inCell calculator
  | enlistedVariable _ _ _, v => Calculator.inCell v
  | add _ _, sum => Calculator.inCell sum
  | multiply _ _, product => Calculator.inCell product
  | createFactorization _, calculator => Primes.inCell calculator
  | createSieve _, calculator => Primes.inCell calculator
  | _, _ => 0

/-- The cells passed name no object, no reference is given back, and no function from outside
    is handed over. -/
def Plain {ρ : Type} : Call ρ → Prop
  | acquireInstance _ _ => True
  | releaseInstance _ _ => False
  | injectComponent _ lookup => ∀ a, lookup = some a → a.Native
  | c => c.gives c.cells = 0

end Call

/-! ## References on request -/

namespace Site

variable [Resource O] [Layered O] {p : Part (Process ω) O} {c : Component} (site : Site p c)
include site

/-- A function that does nothing but record its failures. -/
theorem idle {x : Act ω (Status × ρ)} {y : Handle} (h : ∀ P, Routed p y P x) :
    Gives J x fun _ => 0 :=
  gives_zero fun _ => (h _).keeps fun why => site.fail y why

theorem acquireInstance_gives (x : Handle) :
    Gives J (Fixed.acquireInstance p x) fun _ => .of c [x] := by
  intro e
  have hop : Does (Balanced J e) (p.acquire x) (fun _ => Balanced J (e + .of c [x]))
      fun why s => why.code ≠ Status.ok ∧ Balanced J e s := by
    intro s hs
    have h := site.acquire x (stays_const True) s hs
    revert h
    show Either _ _ ((p.acquire x).run s).1 _ → Either _ _ ((p.acquire x).run s).1 _
    cases ha : (p.view s).table.acquire x with
    | ok t =>
      rw [show (p.acquire x).run s = _ from Part.acquire_ok ha]
      exact id
    | error why =>
      rw [show (p.acquire x).run s = _ from Part.acquire_error ha]
      exact fun h => ⟨Table.acquire_code ha, h⟩
  refine (site.guard x () hop).post fun r s hr => ?_
  rcases hr with ⟨hok, h⟩ | ⟨⟨why, hcode, hr⟩, -, h⟩
  · rwa [if_pos hok]
  · rwa [if_neg (hr ▸ hcode), add_zero]

/-- Giving back a reference that is held succeeds. -/
theorem releaseInstance_does (x : Handle) :
    Ends (Books J (e + .of c [x]) φ) (Fixed.releaseInstance p x)
      fun r => Books J e fun _ => r.1 = Status.ok := by
  have hop : Does (Books J (e + .of c [x]) φ) (p.release x) (fun _ => Balanced J e)
      fun _ s => True ∧ Books J e (fun _ => False) s :=
    (site.release x).failing fun _ _ h => ⟨trivial, h⟩
  refine (site.guard x () hop).post fun r s hr => ?_
  rcases hr with ⟨hok, h⟩ | ⟨-, -, h⟩
  · exact h.mono fun _ _ => hok
  · exact h.mono fun _ h => h.elim

end Site

/-! ## All functions -/

/-- A plain call gives what its outputs name, and takes nothing. -/
theorem perform_gives (q : OutsideOnly J out) (via : Invoker (Process ω)) (c : Call ρ)
    (hc : c.Plain) : Gives J (perform out (out.reach via) c) c.gives := by
  cases c with
  | entryPoint c address => exact gives_zero fun e => entryPoint_balanced c address
  | lookupSymbol ns name address => exact gives_zero fun e => lookupSymbol_keeps ns name address
  | registerSymbol ns name address => exact gives_zero fun e => registerSymbol_balanced ns name address
  | getVersion c major minor micro =>
    cases c with
    | zoo => exact zooSite.idle fun _ => Fixed.getVersion_routed _ _ _ _
    | calculator => exact calculatorSite.idle fun _ => Fixed.getVersion_routed _ _ _ _
    | primes => exact primesSite.idle fun _ => Fixed.getVersion_routed _ _ _ _
  | getLastError c h capacity place hasError =>
    exact gives_zero fun e s hs => by rwa [getLastError_same]
  | acquireInstance c h =>
    cases c with
    | zoo => exact zooSite.acquireInstance_gives h
    | calculator => exact calculatorSite.acquireInstance_gives h
    | primes => exact primesSite.acquireInstance_gives h
  | releaseInstance c h => exact hc.elim
  | classTypeId c h tag =>
    cases c with
    | zoo => exact zooSite.idle fun _ => Fixed.classTypeId_routed _ _
    | calculator => exact calculatorSite.idle fun _ => Fixed.classTypeId_routed _ _
    | primes => exact primesSite.idle fun _ => Fixed.classTypeId_routed _ _
  | createZoo zoo => exact Zoo.createZoo_gives hc
  | addAnimal zoo species name => exact Zoo.addAnimal_gives zoo species name
  | animalCount zoo count => exact zooSite.idle fun _ => Zoo.animalCount_routed zoo count
  | animalAt zoo index animal => exact zooSite.idle fun _ => Zoo.animalAt_routed zoo index animal
  | iterator zoo cell => exact Zoo.iterator_gives zoo hc
  | animalName animal capacity place =>
    exact zooSite.idle fun _ => Zoo.animalName_routed animal capacity place
  | tigerRoar tiger capacity place =>
    exact zooSite.idle fun _ => Zoo.tigerRoar_routed tiger capacity place
  | nextAnimal iterator animal hasAnimal => exact Zoo.nextAnimal_gives iterator hc
  | nextMandatoryAnimal iterator animal => exact Zoo.nextMandatoryAnimal_gives iterator hc
  | createVariable initial v => exact Calculator.createVariable_gives initial hc
  | createCalculator calculator => exact Calculator.createCalculator_gives hc
  | getVariable v value => exact calculatorSite.idle fun _ => Calculator.getVariable_routed v value
  | setVariable v value => exact Calculator.setVariable_gives v value
  | enlistVariable calculator v => exact Calculator.enlistVariable_gives calculator v
  | enlistedVariable calculator index v =>
    exact Calculator.enlistedVariable_gives calculator index hc
  | clearVariables calculator => exact Calculator.clearVariables_gives calculator
  | add calculator sum => exact Calculator.combine_gives calculator 0 (· + ·) hc
  | multiply calculator product => exact Calculator.combine_gives calculator 1 (· * ·) hc
  | apply calculator ns name => exact Calculator.apply_gives q calculator ns name
  | injectComponent ns lookup => exact Calculator.injectComponent_gives via ns hc
  | enlistPrimes calculator sieve => exact Calculator.enlistPrimes_gives via calculator sieve
  | createFactorization calculator => exact Primes.create_gives .factorization hc
  | createSieve calculator => exact Primes.create_gives .sieve hc
  | getValue calculator value =>
    exact primesSite.idle fun _ => Primes.getValue_routed calculator value
  | setValue calculator value => exact Primes.setValue_gives calculator value
  | calculate calculator => exact Primes.calculate_gives q calculator
  | setProgressCallback calculator callback =>
    exact Primes.setProgressCallback_gives calculator callback
  | primeFactors calculator capacity place =>
    exact primesSite.idle fun _ => Primes.primeFactors_routed calculator capacity place
  | primes calculator capacity place =>
    exact primesSite.idle fun _ => Primes.primes_routed calculator capacity place

/-- Giving back a reference of any component. -/
theorem perform_release (via : Invoker (Process ω)) (c : Component) (x : Handle) :
    Ends (Books J (e + .of c [x]) φ) (perform out via (.releaseInstance c x))
      fun r => Books J e fun _ => r.1 = Status.ok := by
  cases c with
  | zoo => exact zooSite.releaseInstance_does x
  | calculator => exact calculatorSite.releaseInstance_does x
  | primes => exact primesSite.releaseInstance_does x

end Boundary
