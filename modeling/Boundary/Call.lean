/-
  Boundary.Call — calls across the boundary (the function types from `GetVersionFn` to
  `UnaryFn`, and those each `exports` casts to).

  `Call ρ` is a call of one exported function with its arguments and the cells that
  receive its outputs; `ρ` is the type of those cells. A call answers a status and the
  cells as the callee left them. `Invoker` is how a caller reaches the function at an
  address, `Outside` how the components reach functions that none of them exports.
-/
import Boundary.Primes.Progress
import Boundary.Process

namespace Boundary

open Exchange (Cell Place)
open Primes (PrimeFactor)

inductive Call : Type → Type where
  -- the registry
  | entryPoint (c : Component) (address : Cell (Option Address)) : Call (Cell (Option Address))
  | lookupSymbol (ns name : TextArg) (address : Cell (Option Address)) :
      Call (Cell (Option Address))
  | registerSymbol (ns name : TextArg) (address : Option Address) : Call Unit
  -- every component
  | getVersion (c : Component) (major minor micro : Cell UInt32) :
      Call (Cell UInt32 × Cell UInt32 × Cell UInt32)
  | getLastError (c : Component) (h : Handle) (capacity : UInt32) (place : Place UInt32 UInt8)
      (hasError : Cell Bool) : Call (Place UInt32 UInt8 × Cell Bool)
  | acquireInstance (c : Component) (h : Handle) : Call Unit
  | releaseInstance (c : Component) (h : Handle) : Call Unit
  | classTypeId (c : Component) (h : Handle) (tag : Cell UInt64) : Call (Cell UInt64)
  -- zoo
  | createZoo (zoo : Cell FatHandle) : Call (Cell FatHandle)
  | addAnimal (zoo : Handle) (species : UInt32) (name : TextArg) : Call Unit
  | animalCount (zoo : Handle) (count : Cell UInt32) : Call (Cell UInt32)
  | animalAt (zoo : Handle) (index : UInt32) (animal : Cell FatHandle) : Call (Cell FatHandle)
  | iterator (zoo : Handle) (iterator : Cell FatHandle) : Call (Cell FatHandle)
  | animalName (animal : Handle) (capacity : UInt32) (place : Place UInt32 UInt8) :
      Call (Place UInt32 UInt8)
  | tigerRoar (tiger : Handle) (capacity : UInt32) (place : Place UInt32 UInt8) :
      Call (Place UInt32 UInt8)
  | nextAnimal (iterator : Handle) (animal : Cell FatHandle) (hasAnimal : Cell Bool) :
      Call (Cell FatHandle × Cell Bool)
  | nextMandatoryAnimal (iterator : Handle) (animal : Cell FatHandle) : Call (Cell FatHandle)
  -- calculator
  | createVariable (initial : Float) (v : Cell Handle) : Call (Cell Handle)
  | createCalculator (calculator : Cell Handle) : Call (Cell Handle)
  | getVariable (v : Handle) (value : Cell Float) : Call (Cell Float)
  | setVariable (v : Handle) (value : Float) : Call Unit
  | enlistVariable (calculator v : Handle) : Call Unit
  | enlistedVariable (calculator : Handle) (index : UInt32) (v : Cell Handle) : Call (Cell Handle)
  | clearVariables (calculator : Handle) : Call Unit
  | add (calculator : Handle) (sum : Cell Handle) : Call (Cell Handle)
  | multiply (calculator : Handle) (product : Cell Handle) : Call (Cell Handle)
  | apply (calculator : Handle) (ns name : TextArg) : Call Unit
  | injectComponent (ns : TextArg) (lookup : Option Address) : Call Unit
  | enlistPrimes (calculator sieve : Handle) : Call Unit
  -- primes
  | createFactorization (calculator : Cell Handle) : Call (Cell Handle)
  | createSieve (calculator : Cell Handle) : Call (Cell Handle)
  | getValue (calculator : Handle) (value : Cell UInt64) : Call (Cell UInt64)
  | setValue (calculator : Handle) (value : UInt64) : Call Unit
  | calculate (calculator : Handle) : Call Unit
  | setProgressCallback (calculator : Handle) (callback : Option Foreign) : Call Unit
  | primeFactors (calculator : Handle) (capacity : UInt64) (place : Place UInt64 PrimeFactor) :
      Call (Place UInt64 PrimeFactor)
  | primes (calculator : Handle) (capacity : UInt64) (place : Place UInt64 UInt64) :
      Call (Place UInt64 UInt64)

namespace Call

/-- The function called. -/
def target {ρ : Type} : Call ρ → Export
  | entryPoint c _ => .entryPoint c
  | lookupSymbol _ _ _ => .lookupSymbol
  | registerSymbol _ _ _ => .registerSymbol
  | getVersion c _ _ _ => .getVersion c
  | getLastError c _ _ _ _ => .getLastError c
  | acquireInstance c _ => .acquireInstance c
  | releaseInstance c _ => .releaseInstance c
  | classTypeId c _ _ => .classTypeId c
  | createZoo _ => .createZoo
  | addAnimal _ _ _ => .addAnimal
  | animalCount _ _ => .animalCount
  | animalAt _ _ _ => .animalAt
  | iterator _ _ => .iterator
  | animalName _ _ _ => .animalName
  | tigerRoar _ _ _ => .tigerRoar
  | nextAnimal _ _ _ => .nextAnimal
  | nextMandatoryAnimal _ _ => .nextMandatoryAnimal
  | createVariable _ _ => .createVariable
  | createCalculator _ => .createCalculator
  | getVariable _ _ => .getVariable
  | setVariable _ _ => .setVariable
  | enlistVariable _ _ => .enlistVariable
  | enlistedVariable _ _ _ => .enlistedVariable
  | clearVariables _ => .clearVariables
  | add _ _ => .add
  | multiply _ _ => .multiply
  | apply _ _ _ => .apply
  | injectComponent _ _ => .injectComponent
  | enlistPrimes _ _ => .enlistPrimes
  | createFactorization _ => .createFactorization
  | createSieve _ => .createSieve
  | getValue _ _ => .getValue
  | setValue _ _ => .setValue
  | calculate _ => .calculate
  | setProgressCallback _ _ => .setProgressCallback
  | primeFactors _ _ _ => .primeFactors
  | primes _ _ _ => .primes

/-- The cells as the caller passed them. -/
def cells {ρ : Type} : Call ρ → ρ
  | entryPoint _ address => address
  | lookupSymbol _ _ address => address
  | registerSymbol _ _ _ => ()
  | getVersion _ major minor micro => (major, minor, micro)
  | getLastError _ _ _ place hasError => (place, hasError)
  | acquireInstance _ _ => ()
  | releaseInstance _ _ => ()
  | classTypeId _ _ tag => tag
  | createZoo zoo => zoo
  | addAnimal _ _ _ => ()
  | animalCount _ count => count
  | animalAt _ _ animal => animal
  | iterator _ cell => cell
  | animalName _ _ place => place
  | tigerRoar _ _ place => place
  | nextAnimal _ animal hasAnimal => (animal, hasAnimal)
  | nextMandatoryAnimal _ animal => animal
  | createVariable _ v => v
  | createCalculator calculator => calculator
  | getVariable _ value => value
  | setVariable _ _ => ()
  | enlistVariable _ _ => ()
  | enlistedVariable _ _ v => v
  | clearVariables _ => ()
  | add _ sum => sum
  | multiply _ product => product
  | apply _ _ _ => ()
  | injectComponent _ _ => ()
  | enlistPrimes _ _ => ()
  | createFactorization calculator => calculator
  | createSieve calculator => calculator
  | getValue _ value => value
  | setValue _ _ => ()
  | calculate _ => ()
  | setProgressCallback _ _ => ()
  | primeFactors _ _ place => place
  | primes _ _ place => place

end Call

/-- How a caller reaches the function at an address. -/
structure Invoker (σ : Type) where
  call : {ρ : Type} → Address → Call ρ → StateM σ (Status × ρ)

/-- The functions that no component exports, as the components reach them. -/
structure Outside (ω : Type) where
  /-- A function that stands in for an exported one. -/
  call : {ρ : Type} → Foreign → Call ρ → Act ω (Status × ρ)
  /-- A callable of the host. -/
  apply : Address → Float → Act ω Float
  /-- A progress callback; it answers whether to abort. -/
  progress : Foreign → Primes.Progress → Act ω Bool

end Boundary
