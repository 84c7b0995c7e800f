/-
  Boundary.Primes.Progress — how far a calculation has come (what `factorize` and
  `sieve` hand to `progress`).

  A report names a point of the calculation. Its fraction, single precision, is what a
  callback sees.
-/

namespace Boundary.Primes

inductive Progress where
  | start
  /-- All of one prime is divided out of `value`; `rest` is left. -/
  | divided (rest value : UInt64)
  /-- The multiples of `prime` are struck from a table of `length` numbers. -/
  | struck (prime length : Nat)
  | finish
  deriving DecidableEq, Repr

namespace Progress

def fraction : Progress → Float32
  | start => 0
  | divided rest value => 1 - rest.toFloat32 / value.toFloat32
  | struck prime length =>
    (UInt64.ofNat (prime * prime)).toFloat32 / (UInt64.ofNat length).toFloat32
  | finish => 1

end Progress

end Boundary.Primes
