/-
  Boundary.Host.Primes — factorizations and sieves for the host (the methods of
  `PrimesLibrary`, `Calculator`, `FactorizationCalculator` and `SieveCalculator`).
-/
import Boundary.Host.Resolve

namespace Boundary.Host.Primes

open Boundary.Primes (PrimeFactor)
open Exchange (Host)

variable {σ : Type} [Journal σ] (via : Invoker σ)

def createFactorization (l : Library) : Host σ Instance := do
  let cell ← l.ask via (.createFactorization (some Handle.null))
  resolve via l .factorizationCalculator (.bare (cell.getD Handle.null))

def createSieve (l : Library) : Host σ Instance := do
  let cell ← l.ask via (.createSieve (some Handle.null))
  resolve via l .sieveCalculator (.bare (cell.getD Handle.null))

def value (calculator : Instance) : Host σ UInt64 := do
  let h ← calculator.checked
  return (← calculator.ask via (.getValue h (some 0))).getD 0

/-- Discards the result of the value before. -/
def setValue (calculator : Instance) (value : UInt64) : Host σ Unit := do
  let h ← calculator.checked
  calculator.ask via (.setValue h value)

def calculate (calculator : Instance) : Host σ Unit := do
  let h ← calculator.checked
  calculator.ask via (.calculate h)

def setProgressCallback (calculator : Instance) (callback : Option Foreign) : Host σ Unit := do
  let h ← calculator.checked
  calculator.ask via (.setProgressCallback h callback)

/-- The factors of the value last calculated, smallest prime first. -/
def primeFactors (calculator : Instance) : Host σ (List PrimeFactor) := do
  let h ← calculator.checked
  Exchange.fetchArray calculator.library.options.attempts fun room => do
    return (← calculator.ask via (.primeFactors h room.capacity room.wide)).filled

/-- The primes up to the value last calculated. -/
def primes (calculator : Instance) : Host σ (List UInt64) := do
  let h ← calculator.checked
  Exchange.fetchArray calculator.library.options.attempts fun room => do
    return (← calculator.ask via (.primes h room.capacity room.wide)).filled

end Boundary.Host.Primes
