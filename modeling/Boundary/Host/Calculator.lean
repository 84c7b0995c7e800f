/-
  Boundary.Host.Calculator — variables and calculators for the host (the methods of
  `CalculatorLibrary`, `Variable` and `Calculator`).

  Handles come back bare, so the class of a returned object is queried.
-/
import Boundary.Host.Resolve

namespace Boundary.Host.Calculator

open Exchange (Host)

variable {σ : Type} [Journal σ] (via : Invoker σ)

def createVariable (l : Library) (initial : Float) : Host σ Instance := do
  let cell ← l.ask via (.createVariable initial (some Handle.null))
  resolve via l .calculatorVariable (.bare (cell.getD Handle.null))

def createCalculator (l : Library) : Host σ Instance := do
  let cell ← l.ask via (.createCalculator (some Handle.null))
  resolve via l .calculator (.bare (cell.getD Handle.null))

/-- Hands the component the lookup method of another component. -/
def injectComponent (l : Library) (ns : String) (lookup : Address) : Host σ Unit := do
  let ns ← textArg ns
  l.ask via (.injectComponent ns (some lookup))

/-- Lets calculators read from a loaded primes component. -/
def injectPrimes (l primes : Library) : Host σ Unit :=
  injectComponent via l Component.primes.ns primes.lookup

def value (v : Instance) : Host σ Float := do
  let h ← v.checked
  return (← v.ask via (.getVariable h (some 0))).getD 0

def setValue (v : Instance) (value : Float) : Host σ Unit := do
  let h ← v.checked
  v.ask via (.setVariable h value)

/-- The calculator takes a reference of its own. -/
def enlistVariable (calculator v : Instance) : Host σ Unit := do
  let h ← calculator.checked
  let v ← v.checked
  calculator.ask via (.enlistVariable h v)

/-- The variable at an index, as a new reference. -/
def enlistedVariable (calculator : Instance) (index : UInt32) : Host σ Instance := do
  let h ← calculator.checked
  let cell ← calculator.ask via (.enlistedVariable h index (some Handle.null))
  resolve via calculator.library .calculatorVariable (.bare (cell.getD Handle.null))

def clearVariables (calculator : Instance) : Host σ Unit := do
  let h ← calculator.checked
  calculator.ask via (.clearVariables h)

/-- The sum of the enlisted variables, as a new variable. -/
def add (calculator : Instance) : Host σ Instance := do
  let h ← calculator.checked
  let cell ← calculator.ask via (.add h (some Handle.null))
  resolve via calculator.library .calculatorVariable (.bare (cell.getD Handle.null))

/-- The product of the enlisted variables, as a new variable. -/
def multiply (calculator : Instance) : Host σ Instance := do
  let h ← calculator.checked
  let cell ← calculator.ask via (.multiply h (some Handle.null))
  resolve via calculator.library .calculatorVariable (.bare (cell.getD Handle.null))

/-- Puts the value of every enlisted variable through a registered function. -/
def apply (calculator : Instance) (s : Symbol) : Host σ Unit := do
  let h ← calculator.checked
  let ns ← textArg s.ns
  let name ← textArg s.name
  calculator.ask via (.apply h ns name)

/-- Enlists one new variable per prime of a sieve of the injected component. -/
def enlistPrimes (calculator sieve : Instance) : Host σ Unit := do
  let h ← calculator.checked
  let s ← sieve.checked
  calculator.ask via (.enlistPrimes h s)

end Boundary.Host.Calculator
