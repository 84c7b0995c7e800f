/-
  Boundary.Primes.Sieve — the primes up to a bound (`sieve`, `SIEVE_LIMIT`).

  A table marks the composite numbers from two to the bound. For each number whose
  square is in the table, in ascending order: if it is unmarked it is a prime, and its
  multiples from the square on are marked. What is unmarked from two on is prime.
-/
import Boundary.Primes.Marks
import Boundary.Primes.Progress
import Boundary.Store

namespace Boundary.Primes

/-- Larger bounds are refused: the table would not fit. -/
def sieveLimit : UInt64 := 67108864

/-- Marks `m` and every `step`-th number after it. -/
def strike (step : Nat) (hs : 0 < step) (table : Marks) (m : Nat) : Marks :=
  if h : m < table.size then strike step hs (table.add m h) (m + step) else table
  termination_by table.size - m
  decreasing_by
    rw [Marks.size_add]
    omega

@[simp] theorem size_strike (step : Nat) (hs : 0 < step) (table : Marks) (m : Nat) :
    (strike step hs table m).size = table.size := by
  fun_induction strike step hs table m with
  | case1 table m h ih => rw [ih, Marks.size_add]
  | case2 => rfl

theorem lt_of_mul_self_lt {c n : Nat} (h : c * c < n) : c < n :=
  Nat.lt_of_le_of_lt (Nat.le_mul_self c) h

/-- Strikes the multiples of every prime from `c` on whose square is in the table, and
    reports each of these primes. -/
def sieveFrom {σ : Type} (report : Progress → Op σ Unit) (table : Marks) (c : Nat)
    (hc : 0 < c) : Op σ Marks :=
  if h : c * c < table.size then
    have _hlt := lt_of_mul_self_lt h
    if table.has c then sieveFrom report table (c + 1) (Nat.succ_pos c)
    else do
      let struck := strike c hc table (c * c)
      report (.struck c struck.size)
      sieveFrom report struck (c + 1) (Nat.succ_pos c)
  else return table
  termination_by table.size - c
  decreasing_by
    · omega
    · simp only [size_strike]
      omega

/-- The unmarked numbers from two to below `n`, ascending, before those in `above`. -/
def unmarked (table : Marks) : (n : Nat) → (above : List UInt64) → List UInt64
  | n + 3, above =>
    unmarked table (n + 2) (if table.has (n + 2) then above else UInt64.ofNat (n + 2) :: above)
  | _, above => above

/-- The primes up to and including `limit`, in ascending order. -/
def sieve {σ : Type} (limit : UInt64) (report : Progress → Op σ Unit) : Op σ (List UInt64) := do
  if sieveLimit < limit then
    throw (.boundTooLarge limit sieveLimit)
  report .start
  let table ← sieveFrom report (.blank (limit.toNat + 1)) 2 (by decide)
  report .finish
  return unmarked table table.size []

end Boundary.Primes
