/-
  Boundary.Perform — carrying out calls (`symbol_lookup_method`, `lookup_symbol`,
  `register_symbol`, and the function behind each address of `all_exports`).

  `perform` carries out a call of an exported function in the process. An address tells
  whether a call goes to an exported function or to one outside the components.
-/
import Boundary.Calculator.Functions
import Boundary.Primes.Functions
import Boundary.Zoo.Functions

namespace Boundary

open Exchange (Cell)
open Process (zooPart calculatorPart primesPart)

variable {ω : Type}

/-! ## The registry's functions -/

/-- Installs a component and hands out the lookup method. -/
def entryPoint (c : Component) (address : Cell (Option Address)) :
    Act ω (Status × Cell (Option Address)) := fun s =>
  if address.isNone then ((Status.invalidParam, address), s)
  else
    let (registry, notes) := s.registry.install c
    ((Status.ok, some (some .registryLookup)),
      { s with registry := registry, shared := s.shared.notes notes })

def lookupSymbol (ns name : TextArg) (address : Cell (Option Address)) :
    Act ω (Status × Cell (Option Address)) := fun s =>
  if address.isNone then ((Status.invalidParam, address), s)
  else
    let (status, found) := s.registry.lookup ns name
    ((status, some found), s)

def registerSymbol (ns name : TextArg) (address : Option Address) :
    Act ω (Status × Unit) := fun s =>
  let (status, registry, notes) := s.registry.register ns name address
  ((status, ()), { s with registry := registry, shared := s.shared.notes notes })

/-! ## All functions -/

/-- Carries out a call. What the calculator component calls in turn goes through `via`. -/
def perform (out : Outside ω) (via : Invoker (Process ω)) {ρ : Type} :
    Call ρ → Act ω (Status × ρ)
  | .entryPoint c address => entryPoint c address
  | .lookupSymbol ns name address => lookupSymbol ns name address
  | .registerSymbol ns name address => registerSymbol ns name address
  | .getVersion c major minor micro =>
    match c with
    | .zoo => Fixed.getVersion zooPart c.version major minor micro
    | .calculator => Fixed.getVersion calculatorPart c.version major minor micro
    | .primes => Fixed.getVersion primesPart c.version major minor micro
  | .getLastError c h capacity place hasError =>
    match c with
    | .zoo => Fixed.getLastError zooPart h capacity place hasError
    | .calculator => Fixed.getLastError calculatorPart h capacity place hasError
    | .primes => Fixed.getLastError primesPart h capacity place hasError
  | .acquireInstance c h =>
    match c with
    | .zoo => Fixed.acquireInstance zooPart h
    | .calculator => Fixed.acquireInstance calculatorPart h
    | .primes => Fixed.acquireInstance primesPart h
  | .releaseInstance c h =>
    match c with
    | .zoo => Fixed.releaseInstance zooPart h
    | .calculator => Fixed.releaseInstance calculatorPart h
    | .primes => Fixed.releaseInstance primesPart h
  | .classTypeId c h tag =>
    match c with
    | .zoo => Fixed.classTypeId zooPart h tag
    | .calculator => Fixed.classTypeId calculatorPart h tag
    | .primes => Fixed.classTypeId primesPart h tag
  | .createZoo zoo => Zoo.createZoo zoo
  | .addAnimal zoo species name => Zoo.addAnimal zoo species name
  | .animalCount zoo count => Zoo.animalCount zoo count
  | .animalAt zoo index animal => Zoo.animalAt zoo index animal
  | .iterator zoo iterator => Zoo.iterator zoo iterator
  | .animalName animal capacity place => Zoo.animalName animal capacity place
  | .tigerRoar tiger capacity place => Zoo.tigerRoar tiger capacity place
  | .nextAnimal iterator animal hasAnimal => Zoo.nextAnimal iterator animal hasAnimal
  | .nextMandatoryAnimal iterator animal => Zoo.nextMandatoryAnimal iterator animal
  | .createVariable initial v => Calculator.createVariable initial v
  | .createCalculator calculator => Calculator.createCalculator calculator
  | .getVariable v value => Calculator.getVariable v value
  | .setVariable v value => Calculator.setVariable v value
  | .enlistVariable calculator v => Calculator.enlistVariable calculator v
  | .enlistedVariable calculator index v => Calculator.enlistedVariable calculator index v
  | .clearVariables calculator => Calculator.clearVariables calculator
  | .add calculator sum => Calculator.add calculator sum
  | .multiply calculator product => Calculator.multiply calculator product
  | .apply calculator ns name => Calculator.apply out calculator ns name
  | .injectComponent ns lookup => Calculator.injectComponent via ns lookup
  | .enlistPrimes calculator sieve => Calculator.enlistPrimes via calculator sieve
  | .createFactorization calculator => Primes.create .factorization calculator
  | .createSieve calculator => Primes.create .sieve calculator
  | .getValue calculator value => Primes.getValue calculator value
  | .setValue calculator value => Primes.setValue calculator value
  | .calculate calculator => Primes.calculate out calculator
  | .setProgressCallback calculator callback => Primes.setProgressCallback calculator callback
  | .primeFactors calculator capacity place => Primes.primeFactors calculator capacity place
  | .primes calculator capacity place => Primes.primes calculator capacity place

/-- Reaches nothing. -/
def Invoker.none {σ : Type} : Invoker σ := ⟨fun _ c => pure (Status.notImplemented, c.cells)⟩

/-- Exported functions are carried out here, all others outside. -/
def Outside.reach (out : Outside ω) (via : Invoker (Process ω)) : Invoker (Process ω) where
  call address c := match address with
    | .native _ => perform out via c
    | .foreign f => out.call f c

/-- How the bindings reach functions. Components call into the registry and into the primes
    component, and these call no further component. -/
def Outside.invoker (out : Outside ω) : Invoker (Process ω) := out.reach (out.reach .none)

end Boundary
