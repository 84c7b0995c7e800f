/-
  Boundary.Proofs.Primes.Sieve — the sieve lists the primes up to its bound.

  Before a number `c` is visited, a number is marked if a prime before `c` divides it
  and its square does not exceed it (`Struck`). So an unmarked `c` is a prime, and when
  the square of `c` is past the end, the unmarked numbers are the primes.

  Proved: a sieve that comes to its end lists them all, ascending, whatever the reports
  do on the way (`sieve_does`).
-/
import Boundary.Primes.Sieve
import Boundary.Proofs.Triple
import Mathlib.Data.Nat.Prime.Basic

namespace Boundary.Primes

def primesTo (n : Nat) : List Nat := (List.range (n + 1)).filter fun k => decide k.Prime

/-! ## Striking -/

/-- `m` and every `step`-th number after it are marked, as far as the table goes. -/
theorem has_strike (step : Nat) (hs : 0 < step) (table : Marks) (m k : Nat) :
    (strike step hs table m).has k = true ↔
      table.has k = true ∨ k < table.size ∧ ∃ i, k = m + i * step := by
  fun_induction strike step hs table m with
  | case1 table m h ih =>
    rw [ih, Marks.has_add, Marks.size_add, Bool.or_eq_true, beq_iff_eq]
    constructor
    · rintro ((rfl | ht) | ⟨hk, i, rfl⟩)
      · exact .inr ⟨h, 0, by simp⟩
      · exact .inl ht
      · exact .inr ⟨hk, i + 1, by rw [Nat.add_mul]; omega⟩
    · rintro (ht | ⟨hk, i, rfl⟩)
      · exact .inl (.inr ht)
      · cases i with
        | zero => exact .inl (.inl (by simp))
        | succ i => exact .inr ⟨hk, i, by rw [Nat.add_mul]; omega⟩
  | case2 table m h =>
    constructor
    · exact .inl
    · rintro (ht | ⟨hk, i, rfl⟩)
      · exact ht
      · omega

/-- The multiples from the square on. -/
theorem multiple_iff {c k : Nat} (hc : 0 < c) :
    (∃ i, k = c * c + i * c) ↔ c ∣ k ∧ c * c ≤ k := by
  constructor
  · rintro ⟨i, rfl⟩
    exact ⟨⟨c + i, by rw [Nat.mul_add, Nat.mul_comm i c]⟩, by omega⟩
  · rintro ⟨⟨j, rfl⟩, hle⟩
    have hj : c ≤ j := Nat.le_of_mul_le_mul_left hle hc
    refine ⟨j - c, ?_⟩
    rw [Nat.mul_comm (j - c) c, ← Nat.mul_add]
    congr 1
    omega

/-! ## The marks -/

def Multiple (c k : Nat) : Prop := ∃ p, p.Prime ∧ p < c ∧ p ∣ k ∧ p * p ≤ k

def Struck (table : Marks) (c : Nat) : Prop :=
  ∀ k, k < table.size → (table.has k = true ↔ Multiple c k)

/-- A number without a prime factor up to its root is a prime. -/
theorem prime_iff {c k : Nat} (hk : 2 ≤ k) (hc : k < c * c ∨ k ≤ c) :
    k.Prime ↔ ¬ Multiple c k := by
  constructor
  · rintro hp ⟨p, hpp, -, hdvd, hle⟩
    have := hp.eq_one_or_self_of_dvd p hdvd
    rcases this with rfl | rfl
    · exact Nat.not_prime_one hpp
    · have := Nat.mul_le_mul_left p hk
      have := hpp.two_le
      omega
  · intro hn
    refine Classical.byContradiction fun hnp => hn ?_
    have hp := Nat.minFac_prime (n := k) (by omega)
    have hsq := Nat.minFac_sq_le_self (n := k) (by omega) hnp
    rw [pow_two] at hsq
    refine ⟨k.minFac, hp, ?_, Nat.minFac_dvd k, hsq⟩
    have h2 := Nat.mul_le_mul_left k.minFac hp.two_le
    rcases hc with hc | hc
    · exact Nat.mul_self_lt_mul_self_iff.mp (Nat.lt_of_le_of_lt hsq hc)
    · have := hp.two_le
      omega

theorem Struck.blank (size : Nat) : Struck (.blank size) 2 := by
  intro k _
  rw [Marks.has_blank]
  constructor
  · intro h
    cases h
  · rintro ⟨p, hp, hlt, -⟩
    have := hp.two_le
    omega

/-- The number that is visited is marked, or it is a prime. -/
theorem Struck.prime_iff_unmarked {table : Marks} {c : Nat} (h : Struck table c) (hc : 2 ≤ c)
    (hlt : c < table.size) : c.Prime ↔ ¬ table.has c = true := by
  rw [h c hlt]
  exact prime_iff hc (.inr (Nat.le_refl c))

/-- A marked number has nothing to strike: it is no prime. -/
theorem Struck.skip {table : Marks} {c : Nat} (h : Struck table c) (hc : 2 ≤ c)
    (hlt : c < table.size) (hm : table.has c = true) : Struck table (c + 1) := by
  intro k hk
  rw [h k hk]
  have hnp : ¬ c.Prime := fun hp => (h.prime_iff_unmarked hc hlt).mp hp hm
  constructor
  · rintro ⟨p, hp, hpc, hd⟩
    exact ⟨p, hp, by omega, hd⟩
  · rintro ⟨p, hp, hpc, hd⟩
    refine ⟨p, hp, ?_, hd⟩
    rcases Nat.lt_or_eq_of_le (Nat.le_of_lt_succ hpc) with hlt | rfl
    · exact hlt
    · exact absurd hp hnp

/-- An unmarked number is a prime, and its multiples from the square on are marked. -/
theorem Struck.strike {table : Marks} {c : Nat} (h : Struck table c) (hc : 2 ≤ c)
    (hlt : c < table.size) (hm : table.has c ≠ true) (hpos : 0 < c) :
    Struck (strike c hpos table (c * c)) (c + 1) := by
  have hp : c.Prime := (h.prime_iff_unmarked hc hlt).mpr hm
  intro k hk
  rw [size_strike] at hk
  rw [has_strike, multiple_iff hpos, h k hk]
  constructor
  · rintro (⟨p, hpp, hpc, hd⟩ | ⟨-, hd⟩)
    · exact ⟨p, hpp, by omega, hd⟩
    · exact ⟨c, hp, by omega, hd⟩
  · rintro ⟨p, hpp, hpc, hd⟩
    rcases Nat.lt_or_eq_of_le (Nat.le_of_lt_succ hpc) with hlt | rfl
    · exact .inl ⟨p, hpp, hlt, hd⟩
    · exact .inr ⟨hk, hd⟩

/-! ## Reading off -/

theorem unmarked_toNat (table : Marks) (n : Nat) (above : List UInt64)
    (hn : n ≤ 18446744073709551616) :
    (unmarked table n above).map UInt64.toNat
      = ((List.range n).filter fun k => decide (2 ≤ k) && !table.has k)
        ++ above.map UInt64.toNat := by
  fun_induction unmarked table n above with
  | case1 n above ih =>
    have hsmall : (UInt64.ofNat (n + 2)).toNat = n + 2 :=
      UInt64.toNat_ofNat_of_lt' (by show n + 2 < 18446744073709551616; omega)
    rw [ih (by omega), List.range_succ (n := n + 2), List.filter_append, List.append_assoc]
    congr 1
    by_cases hh : table.has (n + 2) = true
    · simp [hh]
    · rw [if_neg hh, List.map_cons, hsmall]
      simp [hh]
  | case2 n above h =>
    have hnil : ((List.range n).filter fun k => decide (2 ≤ k) && !table.has k) = [] := by
      apply List.filter_eq_nil_iff.mpr
      intro k hk
      have hk' := List.mem_range.mp hk
      have : ¬ 2 ≤ k := by
        intro h2
        exact h (n - 3) (by omega)
      simp [this]
    rw [hnil, List.nil_append]

/-- What is listed besides comes from the table, from two on. -/
theorem length_unmarked (table : Marks) (n : Nat) (above : List UInt64) :
    (unmarked table n above).length ≤ (n - 1) + above.length := by
  fun_induction unmarked table n above with
  | case1 n above ih =>
    refine Nat.le_trans ih ?_
    split
    · omega
    · rw [List.length_cons]
      omega
  | case2 n above hn => omega

theorem ascending_unmarked (table : Marks) {n : Nat} (hn : n ≤ 18446744073709551616) :
    (unmarked table n []).Pairwise (· < ·) := by
  have hsorted : ((unmarked table n []).map UInt64.toNat).Pairwise (· < ·) := by
    rw [unmarked_toNat table n [] hn, List.map_nil, List.append_nil]
    exact List.pairwise_lt_range.filter _
  exact (List.pairwise_map.mp hsorted).imp UInt64.lt_iff_toNat_lt.mpr

/-- When the square of `c` is past the end, the unmarked numbers are the primes. -/
theorem Struck.primes {table : Marks} {c : Nat} (h : Struck table c) (hc : table.size ≤ c * c)
    {n : Nat} (hn : table.size = n + 1) (hlt : n < 18446744073709551616) :
    (unmarked table table.size []).map UInt64.toNat = primesTo n := by
  rw [unmarked_toNat table table.size [] (by omega), List.map_nil, List.append_nil, hn, primesTo]
  apply List.filter_congr
  intro k hk
  have hk' : k < table.size := hn ▸ List.mem_range.mp hk
  by_cases h2 : 2 ≤ k
  · have hp : k.Prime ↔ ¬ table.has k = true := by
      rw [prime_iff (c := c) h2 (.inl (by omega)), h k hk']
    by_cases hh : table.has k = true <;> simp [h2, hp, hh]
  · have hp : ¬ k.Prime := fun hp => h2 hp.two_le
    simp [h2, hp]

/-! ## The sieve -/

section

variable {σ : Type} {report : Progress → Op σ Unit} {P : σ → Prop} {E : Fault → σ → Prop}

/-- Induction on the numbers left to visit. -/
theorem sieveFrom_does (hr : ∀ p, Does P (report p) (fun _ => P) E) (table : Marks) (c : Nat)
    (hc : 0 < c) (h2 : 2 ≤ c) (h : Struck table c) :
    Does P (sieveFrom report table c hc)
      (fun t s => (t.size = table.size ∧ ∃ d, t.size ≤ d * d ∧ Struck t d) ∧ P s) E := by
  fun_induction sieveFrom report table c hc with
  | case1 table c hc hsq hlt hm ih => exact ih (by omega) (h.skip h2 hlt hm)
  | case2 table c hc hsq hlt hm struck ih =>
    refine .bind (hr _) fun _ => (ih (by omega) (h.strike h2 hlt hm hc)).post ?_
    rintro t s ⟨⟨hsize, hd⟩, hP⟩
    exact ⟨⟨hsize.trans (size_strike ..), hd⟩, hP⟩
  | case3 table c hc hsq =>
    exact .pure fun s hP => ⟨⟨rfl, c, Nat.le_of_not_lt hsq, h⟩, hP⟩

/-- A sieve that ends lists all primes. The reports may do whatever keeps `P`. -/
theorem sieve_does (hr : ∀ p, Does P (report p) (fun _ => P) E) (limit : UInt64)
    (hrefused : sieveLimit < limit → ∀ s, P s → E (.boundTooLarge limit sieveLimit) s) :
    Does P (sieve limit report)
      (fun ps s => ps.map UInt64.toNat = primesTo limit.toNat ∧ P s) E := by
  unfold sieve
  refine .ite (fun h => .throw_bind (hrefused h)) fun _ => ?_
  refine .bind (hr .start) fun _ => ?_
  refine .bind (sieveFrom_does hr _ 2 _ (Nat.le_refl 2) (Struck.blank _)) fun table => ?_
  refine .assume fun ⟨hsize, d, hd, hs⟩ => .bind (hr .finish) fun _ => .pure fun s h => ⟨?_, h⟩
  exact hs.primes hd (hsize.trans (Marks.size_blank _)) limit.toNat_lt

end

end Boundary.Primes
