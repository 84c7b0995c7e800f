/-
  Boundary.Primes.Functions — what the primes component exports (`create`,
  `get_value`, `set_value`, `set_progress_callback`, `calculate` with its `report`s,
  `prime_factors`, `primes`).

  A calculation works on the value and with the callback it found at its start. The
  callback may call back into any component; when it has returned for the last time,
  the result is stored only if the value is still the one it belongs to. An object that
  is destroyed meanwhile lives on for the calculation alone.
-/
import Boundary.Call
import Boundary.Fixed
import Boundary.Primes.Factor
import Boundary.Primes.Sieve

namespace Boundary.Primes

open Exchange (Cell Place)
open Fixed (require)

variable {ω : Type}

/-- The primes component's store in a process. -/
abbrev part : Part (Process ω) Object := Process.primesPart

def create (kind : Kind) (calculator : Cell Handle) : Act ω (Status × Cell Handle) :=
  part.guard Handle.null calculator do
    require calculator
    let h ← part.insert { kind := kind }
    return some h

def getValue (calculator : Handle) (value : Cell UInt64) : Act ω (Status × Cell UInt64) :=
  part.guard calculator value do
    require value
    let o ← part.get calculator
    return some o.value

/-- Discards the result of the value before. -/
def setValue (calculator : Handle) (value : UInt64) : Act ω (Status × Unit) :=
  part.guard calculator () do
    let _ ← part.get calculator
    part.update calculator fun o => { o with value := value, result := none }

def setProgressCallback (calculator : Handle) (callback : Option Foreign) :
    Act ω (Status × Unit) :=
  part.guard calculator () do
    let _ ← part.get calculator
    part.update calculator fun o => { o with callback := callback }

/-- Tells the callback, if there is one, and stops the calculation if it asks for that. -/
def report (out : Outside ω) (callback : Option Foreign) (p : Progress) : Op (Process ω) Unit :=
  match callback with
  | none => pure ()
  | some f => do
    if ← (out.progress f p : Act ω Bool) then
      throw .aborted

/-- Runs the calculation of an object as it was at the start. -/
def outcome (out : Outside ω) (o : Object) : Op (Process ω) Outcome :=
  match o.kind with
  | .factorization => do return .factors (← factorize o.value (report out o.callback))
  | .sieve => do return .primes (← sieve o.value (report out o.callback))

def calculate (out : Outside ω) (calculator : Handle) : Act ω (Status × Unit) :=
  part.guard calculator () do
    let (serial, o) ← part.hold calculator
    let found ← outcome out o
    let now := ((← part.held? calculator serial).map (·.value)).getD o.value
    if now ≠ o.value then
      throw (.valueChanged o.value now)
    part.updateHeld calculator serial fun o => { o with result := some found }

def primeFactors (calculator : Handle) (capacity : UInt64) (place : Place UInt64 PrimeFactor) :
    Act ω (Status × Place UInt64 PrimeFactor) :=
  part.guard calculator place do
    let o ← part.get calculator
    if o.kind ≠ .factorization then
      throw .notFactorization
    match o.result with
    | some (.factors fs) => Exchange.serveArray fs capacity place
    | _ => throw .noFactorization

def primes (calculator : Handle) (capacity : UInt64) (place : Place UInt64 UInt64) :
    Act ω (Status × Place UInt64 UInt64) :=
  part.guard calculator place do
    let o ← part.get calculator
    if o.kind ≠ .sieve then
      throw .notSieve
    match o.result with
    | some (.primes ps) => Exchange.serveArray ps capacity place
    | _ => throw .noPrimes

end Boundary.Primes
