/-
  Boundary.Primes.Object — calculators over one input value (`PrimesObject`: `Kind`,
  `State`, `Outcome`).

  A calculator factorizes its value or lists the primes up to it. The result is stored
  with the value it belongs to: setting a value discards it.
-/
import Boundary.Component
import Boundary.Exchange.Place
import Boundary.Table

namespace Boundary.Primes

inductive Kind where
  | factorization
  | sieve
  deriving DecidableEq, Repr

/-- A prime and how often it divides the factorized value. -/
structure PrimeFactor where
  prime : UInt64
  multiplicity : UInt32
  deriving DecidableEq, Repr, Inhabited

instance : Exchange.Element PrimeFactor := ⟨⟨0, 0⟩, 16⟩

inductive Outcome where
  | factors (fs : List PrimeFactor)
  | primes (ps : List UInt64)
  deriving DecidableEq, Repr

structure Object where
  kind : Kind
  value : UInt64 := 0
  /-- Whom a running calculation tells how far it has come. -/
  callback : Option Foreign := none
  result : Option Outcome := none
  deriving DecidableEq, Repr

namespace Object

/-- Qualified name of the object's class. -/
def className (o : Object) : String :=
  match o.kind with
  | .factorization => "Primes::FactorizationCalculator"
  | .sieve => "Primes::SieveCalculator"

instance : Resource Object := ⟨fun o => Tag.ofName o.className, fun _ => []⟩

end Object

end Boundary.Primes
