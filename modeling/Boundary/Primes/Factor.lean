/-
  Boundary.Primes.Factor — factorization by trial division (`factorize`).

  Divisors are tried in ascending order: two, then the odd numbers, as long as the
  square of the divisor does not exceed what is left. A divisor found is a prime and
  is divided out completely; what remains at the end is one or a prime.
-/
import Boundary.Primes.Object
import Boundary.Primes.Progress
import Boundary.Store

namespace Boundary.Primes

/-! ## Dividing out -/

/-- The divisor to try after `d`. -/
def following (d : UInt64) : UInt64 := if d = 2 then d + 1 else d + 2

/-- The rest after dividing `d` out of `rest`, and how often it did divide, counted on from
    `multiplicity`. -/
def strip (rest d : UInt64) (multiplicity : UInt32) : UInt64 × UInt32 :=
  if _h : 2 ≤ d ∧ 0 < rest ∧ rest % d = 0 then strip (rest / d) d (multiplicity + 1)
  else (rest, multiplicity)
  termination_by rest.toNat
  decreasing_by
    obtain ⟨hd, hr, -⟩ := _h
    rw [UInt64.toNat_div]
    exact Nat.div_lt_self (by simpa using UInt64.lt_iff_toNat_lt.mp hr)
      (by have := UInt64.le_iff_toNat_le.mp hd; simp at this; omega)

/-- Whether the square of `d` does not exceed `rest`. -/
def worthTrying (rest d : UInt64) : Bool := decide (d ≤ rest / d)

theorem lt_of_worthTrying {rest d : UInt64} (h : worthTrying rest d = true) :
    d.toNat < 4294967296 := by
  have hd : d.toNat ≤ rest.toNat / d.toNat := by
    have := UInt64.le_iff_toNat_le.mp (of_decide_eq_true h)
    rwa [UInt64.toNat_div] at this
  have hr : rest.toNat < 18446744073709551616 := rest.toNat_lt
  rcases Nat.eq_zero_or_pos d.toNat with h0 | hp
  · omega
  · have hm : d.toNat * d.toNat ≤ rest.toNat :=
      (Nat.le_div_iff_mul_le hp).mp hd
    apply Nat.lt_of_not_le
    intro hb
    have := Nat.mul_le_mul hb hb
    omega

theorem toNat_following {d : UInt64} (h : d.toNat < 4294967296) :
    (following d).toNat = if d = 2 then d.toNat + 1 else d.toNat + 2 := by
  unfold following
  split <;> rw [UInt64.toNat_add] <;> simp <;> omega

/-- The first divisor from `d` on that divides `rest`, among those worth trying. -/
def nextDivisor (rest d : UInt64) : Option UInt64 :=
  if _h : worthTrying rest d = true then
    if rest % d = 0 then some d else nextDivisor rest (following d)
  else none
  termination_by 8589934592 - d.toNat
  decreasing_by
    have := lt_of_worthTrying _h
    rw [toNat_following this]
    split <;> omega

theorem nextDivisor_spec {rest d e : UInt64} (hd : 2 ≤ d) (h : nextDivisor rest d = some e) :
    2 ≤ e ∧ rest % e = 0 ∧ worthTrying rest e = true := by
  fun_induction nextDivisor rest d with
  | case1 d hw hm =>
    simp only [Option.some.injEq] at h
    subst h
    exact ⟨hd, hm, hw⟩
  | case2 d hw _ ih =>
    refine ih ?_ h
    have hlt := lt_of_worthTrying hw
    have h2 := UInt64.le_iff_toNat_le.mp hd
    rw [UInt64.le_iff_toNat_le, toNat_following hlt]
    split <;> omega
  | case3 => simp at h

theorem strip_le (rest d : UInt64) (m : UInt32) : (strip rest d m).1.toNat ≤ rest.toNat := by
  fun_induction strip rest d m with
  | case1 rest m _ ih =>
    rw [UInt64.toNat_div] at ih
    exact Nat.le_trans ih (Nat.div_le_self _ _)
  | case2 => exact Nat.le_refl _

theorem strip_lt {rest d : UInt64} (m : UInt32) (hd : 2 ≤ d) (hw : worthTrying rest d = true)
    (hm : rest % d = 0) : (strip rest d m).1.toNat < rest.toNat := by
  have h2 : 2 ≤ d.toNat := by simpa using UInt64.le_iff_toNat_le.mp hd
  have hr : 0 < rest.toNat := by
    have := UInt64.le_iff_toNat_le.mp (of_decide_eq_true hw)
    rw [UInt64.toNat_div] at this
    rcases Nat.eq_zero_or_pos rest.toNat with h0 | hp
    · rw [h0, Nat.zero_div] at this; omega
    · exact hp
  have hr' : (0 : UInt64) < rest := UInt64.lt_iff_toNat_lt.mpr (by simpa using hr)
  rw [strip, dif_pos ⟨hd, hr', hm⟩]
  have := strip_le (rest / d) d (m + 1)
  rw [UInt64.toNat_div] at this
  exact Nat.lt_of_le_of_lt this (Nat.div_lt_self hr (by omega))

/-! ## The factorization -/

/-- What is left when no divisor is worth trying any more. -/
def remainder (rest : UInt64) : List PrimeFactor := if 1 < rest then [⟨rest, 1⟩] else []

/-- The factors of `rest`, all of whose divisors are at least `d`. Each prime that is divided
    out is reported. -/
def factorsFrom {σ : Type} (report : Progress → Op σ Unit) (value rest d : UInt64) (hd : 2 ≤ d) :
    Op σ (List PrimeFactor) :=
  match hn : nextDivisor rest d with
  | none => return remainder rest
  | some e => do
    let found := strip rest e 0
    report (.divided found.1 value)
    let others ← factorsFrom report value found.1 (following e) (by
      have h := nextDivisor_spec hd hn
      have h2 := UInt64.le_iff_toNat_le.mp h.1
      rw [UInt64.le_iff_toNat_le, toNat_following (lt_of_worthTrying h.2.2)]
      split <;> omega)
    return ⟨e, found.2⟩ :: others
  termination_by rest.toNat
  decreasing_by
    have h := nextDivisor_spec hd hn
    exact strip_lt 0 h.1 h.2.2 h.2.1

/-- The prime factorization of `value`, smallest prime first; nothing for zero and one. -/
def factorize {σ : Type} (value : UInt64) (report : Progress → Op σ Unit) :
    Op σ (List PrimeFactor) := do
  report .start
  let factors ← factorsFrom report value value 2 (by decide)
  report .finish
  return factors

end Boundary.Primes
