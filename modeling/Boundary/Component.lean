/-
  Boundary.Component — the components and the functions they export
  (`NativeComponent`: `NAMESPACE`, `VERSION`, `exports`, `all_exports`;
  `is_reserved`).

  Every function is reached by its symbol, a namespace and a name. Each component
  exports the same five fixed functions and its entry point under its own namespace;
  the functions for looking up and registering symbols live in a namespace of their
  own. An address is what a symbol resolves to.
-/
import Boundary.Version

namespace Boundary

inductive Component where
  | zoo
  | calculator
  | primes
  deriving DecidableEq, Repr

namespace Component

def all : List Component := [zoo, calculator, primes]

/-- As messages call it. -/
def name : Component → String
  | zoo => "Zoo"
  | calculator => "Calculator"
  | primes => "Primes"

def ns : Component → String
  | zoo => "zoo"
  | calculator => "calculator"
  | primes => "primes"

/-- Version of the native binary. -/
def version : Component → Version
  | zoo => ⟨1, 0, 0⟩
  | calculator => ⟨1, 1, 0⟩
  | primes => ⟨1, 2, 0⟩

/-- Version the bindings were written against. -/
def binding : Component → Version
  | zoo => ⟨1, 0, 0⟩
  | calculator => ⟨1, 1, 0⟩
  | primes => ⟨1, 2, 0⟩

/-- The component with the given namespace. -/
def ofNs? (s : String) : Option Component := all.find? fun c => c.ns == s

end Component

/-- Version of the library itself. -/
def libraryVersion : String := "0.1.0"

structure Symbol where
  ns : String
  name : String
  deriving DecidableEq, Repr

def Symbol.text (s : Symbol) : String := s.ns ++ "::" ++ s.name

/-- Namespace of the lookup and registration functions. -/
def registryNs : String := "abi"

/-- Namespaces that only ever hold the components' own functions. -/
def reservedNs : List String := registryNs :: Component.all.map Component.ns

def isReserved (ns : String) : Bool := reservedNs.contains ns

/-- A function that a component or the registry exports. -/
inductive Export where
  -- the registry
  | lookupSymbol
  | registerSymbol
  -- every component
  | entryPoint (c : Component)
  | getVersion (c : Component)
  | getLastError (c : Component)
  | acquireInstance (c : Component)
  | releaseInstance (c : Component)
  | classTypeId (c : Component)
  -- zoo
  | createZoo
  | addAnimal
  | animalCount
  | animalAt
  | iterator
  | animalName
  | tigerRoar
  | nextAnimal
  | nextMandatoryAnimal
  -- calculator
  | createVariable
  | createCalculator
  | getVariable
  | setVariable
  | enlistVariable
  | enlistedVariable
  | clearVariables
  | add
  | multiply
  | apply
  | injectComponent
  | enlistPrimes
  -- primes
  | createFactorization
  | createSieve
  | getValue
  | setValue
  | calculate
  | setProgressCallback
  | primeFactors
  | primes
  deriving DecidableEq, Repr

namespace Export

def symbol : Export → Symbol
  | lookupSymbol => ⟨registryNs, "lookupsymbol"⟩
  | registerSymbol => ⟨registryNs, "registersymbol"⟩
  | entryPoint c => ⟨c.ns, "getsymbollookupmethod"⟩
  | getVersion c => ⟨c.ns, "getversion"⟩
  | getLastError c => ⟨c.ns, "getlasterror"⟩
  | acquireInstance c => ⟨c.ns, "acquireinstance"⟩
  | releaseInstance c => ⟨c.ns, "releaseinstance"⟩
  | classTypeId c => ⟨c.ns, "base_classtypeid"⟩
  | createZoo => ⟨"zoo", "createzoo"⟩
  | addAnimal => ⟨"zoo", "zoo_addanimal"⟩
  | animalCount => ⟨"zoo", "zoo_animalcount"⟩
  | animalAt => ⟨"zoo", "zoo_animalat"⟩
  | iterator => ⟨"zoo", "zoo_iterator"⟩
  | animalName => ⟨"zoo", "animal_name"⟩
  | tigerRoar => ⟨"zoo", "tiger_roar"⟩
  | nextAnimal => ⟨"zoo", "animaliterator_getnextanimal"⟩
  | nextMandatoryAnimal => ⟨"zoo", "animaliterator_getnextmandatoryanimal"⟩
  | createVariable => ⟨"calculator", "createvariable"⟩
  | createCalculator => ⟨"calculator", "createcalculator"⟩
  | getVariable => ⟨"calculator", "variable_getvalue"⟩
  | setVariable => ⟨"calculator", "variable_setvalue"⟩
  | enlistVariable => ⟨"calculator", "calculator_enlistvariable"⟩
  | enlistedVariable => ⟨"calculator", "calculator_getenlistedvariable"⟩
  | clearVariables => ⟨"calculator", "calculator_clearvariables"⟩
  | add => ⟨"calculator", "calculator_add"⟩
  | multiply => ⟨"calculator", "calculator_multiply"⟩
  | apply => ⟨"calculator", "calculator_apply"⟩
  | injectComponent => ⟨"calculator", "injectcomponent"⟩
  | enlistPrimes => ⟨"calculator", "calculator_enlistprimes"⟩
  | createFactorization => ⟨"primes", "createfactorizationcalculator"⟩
  | createSieve => ⟨"primes", "createsievecalculator"⟩
  | getValue => ⟨"primes", "calculator_getvalue"⟩
  | setValue => ⟨"primes", "calculator_setvalue"⟩
  | calculate => ⟨"primes", "calculator_calculate"⟩
  | setProgressCallback => ⟨"primes", "calculator_setprogresscallback"⟩
  | primeFactors => ⟨"primes", "factorizationcalculator_getprimefactors"⟩
  | primes => ⟨"primes", "sievecalculator_getprimes"⟩

/-- What the registry exports itself. -/
def ofRegistry : List Export := [lookupSymbol, registerSymbol]

/-- The fixed functions, in the order in which a library resolves them. -/
def fixed (c : Component) : List Export :=
  [getVersion c, getLastError c, acquireInstance c, releaseInstance c, classTypeId c]

/-- The functions of one component alone, in the order in which a library resolves them. -/
def specific : Component → List Export
  | .zoo =>
    [createZoo, addAnimal, animalCount, animalAt, iterator, animalName, tigerRoar, nextAnimal,
     nextMandatoryAnimal]
  | .calculator =>
    [createVariable, createCalculator, getVariable, setVariable, enlistVariable, enlistedVariable,
     clearVariables, add, multiply, apply, injectComponent, enlistPrimes]
  | .primes =>
    [createFactorization, createSieve, getValue, setValue, calculate, setProgressCallback,
     primeFactors, primes]

/-- All that a component installs. -/
def ofComponent (c : Component) : List Export := fixed c ++ entryPoint c :: specific c

def all : List Export := ofRegistry ++ Component.all.flatMap ofComponent

def ofSymbol? (s : Symbol) : Option Export := all.find? fun e => decide (e.symbol = s)

end Export

/-! ## Addresses -/

/-- Functions a host may offer to calculators. -/
inductive HostFunction where
  | square
  | cube
  | negate
  | halve
  | triple
  | increment
  | reciprocal
  | overflow
  | underflow
  | notANumber
  /-- Whatever the hook of the session makes of it. -/
  | hook
  deriving DecidableEq, Repr

namespace HostFunction

def all : List HostFunction :=
  [square, cube, negate, halve, triple, increment, reciprocal, overflow, underflow, notANumber,
   hook]

def name : HostFunction → String
  | square => "square"
  | cube => "cube"
  | negate => "negate"
  | halve => "halve"
  | triple => "triple"
  | increment => "increment"
  | reciprocal => "reciprocal"
  | overflow => "overflow"
  | underflow => "underflow"
  | notANumber => "not_a_number"
  | hook => "hook"

def ofName? (s : String) : Option HostFunction := all.find? fun f => f.name == s

/-- The value of a function on its own; the hook adds one. -/
def value : HostFunction → Float → Float
  | square, x => x * x
  | cube, x => x * x * x
  | negate, x => -x
  | halve, x => x / 2
  | triple, x => x * 3
  | increment, x => x + 1
  | reciprocal, x => 1 / x
  | overflow, _ => 1 / 0
  | underflow, _ => -(1 / 0)
  | notANumber, _ => 0 / 0
  | hook, x => x + 1

end HostFunction

/-- A function that no component exports. -/
inductive Foreign where
  | function (f : HostFunction)
  /-- A lookup method other than the registry's. -/
  | lookup
  /-- A function that stands in for an exported one. -/
  | standIn (e : Export)
  deriving DecidableEq, Repr

/-- The address of a function; null addresses are none of type `Option Address`. -/
inductive Address where
  | native (e : Export)
  | foreign (f : Foreign)
  deriving DecidableEq, Repr

namespace Address

def function (f : HostFunction) : Address := foreign (.function f)

/-- The registry's lookup method. -/
def registryLookup : Address := native .lookupSymbol

end Address

end Boundary
