/-
  Boundary.Proofs.Primes.Factor — trial division finds the prime factorization.

  `primePowers n` is what a factorization has to be: the primes that divide `n`,
  ascending, each with its multiplicity. The divisors before `d` being sifted out of
  `rest` (`Sifted`), the next divisor found is the least prime factor, and dividing it
  out leaves the powers of the other primes.

  Proved: a factorization that comes to its end is complete, whatever the reports do on
  the way (`factorize_does`). With reports that never stop it, it does come to its end, and what
  it answers are the prime factors of the number (`factorize_factors`).
-/
import Boundary.Primes.Factor
import Boundary.Proofs.Triple
import Mathlib.Data.Finset.Sort
import Mathlib.Data.Nat.Factorization.Basic

namespace Boundary.Primes

/-- The primes that divide `n`, ascending, with their multiplicities; none for zero and one. -/
def primePowers (n : Nat) : List (Nat × Nat) :=
  n.primeFactors.sort.map fun p => (p, n.factorization p)

def PrimeFactor.pair (f : PrimeFactor) : Nat × Nat := (f.prime.toNat, f.multiplicity.toNat)

/-! ## Prime powers -/

theorem primePowers_of_le_one {n : Nat} (h : n ≤ 1) : primePowers n = [] := by
  have : n = 0 ∨ n = 1 := by omega
  rcases this with rfl | rfl <;> simp [primePowers]

theorem primePowers_prime {p : Nat} (hp : p.Prime) : primePowers p = [(p, 1)] := by
  simp [primePowers, hp.primeFactors, hp.factorization_self]

/-- A power of the least prime comes first. -/
theorem primePowers_mul_pow {r p k : Nat} (hp : p.Prime) (hr : r ≠ 0) (hk : k ≠ 0)
    (hdvd : ¬ p ∣ r) (hle : ∀ q, q.Prime → q ∣ r → p ≤ q) :
    primePowers (r * p ^ k) = (p, k) :: primePowers r := by
  have hpow : p ^ k ≠ 0 := pow_ne_zero k hp.ne_zero
  have hmem : p ∉ r.primeFactors := fun h => hdvd (Nat.dvd_of_mem_primeFactors h)
  have hset : (r * p ^ k).primeFactors = insert p r.primeFactors := by
    rw [Nat.primeFactors_mul hr hpow, Nat.primeFactors_prime_pow hk hp, Finset.union_comm,
      ← Finset.insert_eq]
  have hfac (q : Nat) : (r * p ^ k).factorization q
      = r.factorization q + if p = q then k else 0 := by
    rw [Nat.factorization_mul hr hpow, hp.factorization_pow, Finsupp.add_apply,
      Finsupp.single_apply]
  have hsort : (insert p r.primeFactors).sort = p :: r.primeFactors.sort :=
    Finset.sort_insert _ (fun q hq =>
      hle q (Nat.prime_of_mem_primeFactors hq) (Nat.dvd_of_mem_primeFactors hq)) hmem
  rw [primePowers, hset, hsort, List.map_cons]
  congr 1
  · rw [hfac, Nat.factorization_eq_zero_of_not_dvd hdvd]
    simp
  · apply List.map_congr_left
    intro q hq
    have hne : p ≠ q := by
      rintro rfl
      exact hmem ((Finset.mem_sort _).mp hq)
    rw [hfac, if_neg hne, Nat.add_zero]

/-! ## Dividing out -/

theorem mod_eq_zero_iff {a d : UInt64} : a % d = 0 ↔ d.toNat ∣ a.toNat := by
  rw [← UInt64.toNat_inj, UInt64.toNat_mod]
  exact (Nat.dvd_iff_mod_eq_zero).symm

/-- Dividing out takes a power that leaves nothing to divide, and counts its exponent. -/
theorem strip_spec (rest d : UInt64) (m : UInt32) (hd : 2 ≤ d.toNat) (hr : rest.toNat ≠ 0) :
    ∃ k, (strip rest d m).1.toNat * d.toNat ^ k = rest.toNat
      ∧ ¬ d.toNat ∣ (strip rest d m).1.toNat ∧ (strip rest d m).2 = m + UInt32.ofNat k := by
  fun_induction strip rest d m with
  | case1 rest m h ih =>
    have hdvd : d.toNat ∣ rest.toNat := mod_eq_zero_iff.mp h.2.2
    have hq : (rest / d).toNat * d.toNat = rest.toNat := by
      rw [UInt64.toNat_div]
      exact Nat.div_mul_cancel hdvd
    have h0 : (rest / d).toNat ≠ 0 := by
      intro h0
      rw [h0, Nat.zero_mul] at hq
      exact hr hq.symm
    obtain ⟨k, hk, hnd, hm⟩ := ih h0
    refine ⟨k + 1, ?_, hnd, ?_⟩
    · rw [pow_succ, ← Nat.mul_assoc, hk, hq]
    · rw [hm, UInt32.ofNat_add, UInt32.add_assoc, UInt32.add_comm (UInt32.ofNat k)]
      rfl
  | case2 rest m h =>
    refine ⟨0, by simp, fun hdvd => h ⟨?_, ?_, ?_⟩, by simp⟩
    · exact UInt64.le_iff_toNat_le.mpr (by simpa using hd)
    · exact UInt64.lt_iff_toNat_lt.mpr (by simpa using Nat.pos_of_ne_zero hr)
    · exact mod_eq_zero_iff.mpr hdvd

/-- An exponent of a 64-bit number is small. -/
theorem exponent_lt {r p k n : Nat} (hp : 2 ≤ p) (hr : r ≠ 0) (h : r * p ^ k = n)
    (hn : n < 18446744073709551616) : k < 64 := by
  apply Classical.byContradiction
  intro hk
  have h64 : 2 ^ 64 ≤ p ^ k :=
    Nat.le_trans (Nat.pow_le_pow_left hp 64) (Nat.pow_le_pow_right (by omega) (by omega))
  have := Nat.le_mul_of_pos_left (p ^ k) (Nat.pos_of_ne_zero hr)
  omega

/-! ## The next divisor -/

theorem worthTrying_iff {rest d : UInt64} (hd : 0 < d.toNat) :
    worthTrying rest d = true ↔ d.toNat * d.toNat ≤ rest.toNat := by
  rw [worthTrying, decide_eq_true_iff, UInt64.le_iff_toNat_le, UInt64.toNat_div]
  exact Nat.le_div_iff_mul_le hd

structure Sifted (rest d : UInt64) : Prop where
  two : 2 ≤ d.toNat
  shape : d.toNat = 2 ∨ d.toNat % 2 = 1
  least : ∀ q : Nat, q.Prime → q ∣ rest.toNat → d.toNat ≤ q

theorem Sifted.start (rest : UInt64) : Sifted rest 2 where
  two := by decide
  shape := .inl rfl
  least _ hq _ := hq.two_le

/-- No even number after two is skipped for nothing: a prime there is none. -/
theorem Sifted.following {rest d : UInt64} (h : Sifted rest d) (hlt : d.toNat < 4294967296)
    (hd : ¬ d.toNat ∣ rest.toNat) : Sifted rest (following d) := by
  have htwo : d = 2 ↔ d.toNat = 2 := by
    rw [← UInt64.toNat_inj]
    rfl
  have hnext := toNat_following hlt
  simp only [htwo] at hnext
  refine ⟨?_, ?_, fun q hq hqd => ?_⟩
  · rw [hnext]
    split <;> omega
  · rcases h.shape with h2 | h1
    · exact .inr (by rw [hnext, if_pos h2, h2])
    · have h2 : d.toNat ≠ 2 := by omega
      exact .inr (by rw [hnext, if_neg h2]; omega)
  · have htwo := h.two
    have hle := h.least q hq hqd
    have hne : d.toNat ≠ q := fun e => hd (e ▸ hqd)
    have hodd : q = 2 ∨ q % 2 = 1 := hq.eq_two_or_odd
    rw [hnext]
    split
    · omega
    · rcases h.shape with h2 | h1 <;> omega

/-- The divisor found is a prime, and no smaller prime is a factor. -/
theorem nextDivisor_some {rest d e : UInt64} (hs : Sifted rest d)
    (h : nextDivisor rest d = some e) :
    Sifted rest e ∧ e.toNat.Prime ∧ e.toNat ∣ rest.toNat ∧ e.toNat < 4294967296
      ∧ rest.toNat ≠ 0 := by
  fun_induction nextDivisor rest d with
  | case1 d hw hm =>
    have he : d = e := Option.some.inj h
    subst he
    have hdvd : d.toNat ∣ rest.toNat := mod_eq_zero_iff.mp hm
    have hne : d.toNat ≠ 1 := by have := hs.two; omega
    refine ⟨hs, ?_, hdvd, lt_of_worthTrying hw, ?_⟩
    · have hp := Nat.minFac_prime hne
      have hle := hs.least _ hp (Nat.dvd_trans (Nat.minFac_dvd _) hdvd)
      have : d.toNat.minFac = d.toNat :=
        Nat.le_antisymm (Nat.minFac_le (by have := hs.two; omega)) hle
      rwa [this] at hp
    · intro h0
      have hle := UInt64.le_iff_toNat_le.mp (of_decide_eq_true hw)
      rw [UInt64.toNat_div, h0, Nat.zero_div] at hle
      have := hs.two
      omega
  | case2 d hw hm ih =>
    exact ih (hs.following (lt_of_worthTrying hw) fun hdvd => hm (mod_eq_zero_iff.mpr hdvd)) h
  | case3 => cases h

/-- When no divisor is worth trying any more, what is left has no two factors. -/
theorem nextDivisor_none {rest d : UInt64} (hs : Sifted rest d)
    (h : nextDivisor rest d = none) : rest.toNat ≤ 1 ∨ rest.toNat.Prime := by
  fun_induction nextDivisor rest d with
  | case1 => cases h
  | case2 d hw hm ih =>
    exact ih (hs.following (lt_of_worthTrying hw) fun hdvd => hm (mod_eq_zero_iff.mpr hdvd)) h
  | case3 d hw =>
    have hpos : 0 < d.toNat := by have := hs.two; omega
    have hlt := Nat.lt_of_not_le (mt (worthTrying_iff hpos).mpr hw)
    by_cases h1 : rest.toNat ≤ 1
    · exact .inl h1
    · refine .inr (Classical.byContradiction fun hnp => ?_)
      have hp := Nat.minFac_prime (n := rest.toNat) (by omega)
      have hle := hs.least _ hp (Nat.minFac_dvd _)
      have hsq := Nat.minFac_sq_le_self (n := rest.toNat) (by omega) hnp
      rw [pow_two] at hsq
      have := Nat.mul_le_mul hle hle
      omega

/-! ## Dividing out what was found -/

/-- The prime `p` is divided out of `n` completely, `k` times; `r` is left, with larger primes
    alone. -/
structure Stripped (n p k r : Nat) : Prop where
  prime : p.Prime
  left : r ≠ 0
  counted : k ≠ 0
  power : r * p ^ k = n
  least : ∀ q, q.Prime → q ∣ r → p < q

theorem Stripped.primePowers {n p k r : Nat} (h : Stripped n p k r) :
    primePowers n = (p, k) :: primePowers r := by
  have hdvd : ¬ p ∣ r := fun hd => Nat.lt_irrefl p (h.least p h.prime hd)
  rw [← h.power, primePowers_mul_pow h.prime h.left h.counted hdvd fun q hq hd => (h.least q hq hd).le]

/-- The divisor found is the least prime, and its square is not too large. It is counted as often as
    it divides, and without it all up to it are sifted out. -/
theorem nextDivisor_strips {rest d e : UInt64} (hs : Sifted rest d)
    (hn : nextDivisor rest d = some e) :
    Stripped rest.toNat e.toNat (strip rest e 0).2.toNat (strip rest e 0).1.toNat ∧
      e.toNat * e.toNat ≤ rest.toNat ∧ Sifted (strip rest e 0).1 (following e) := by
  obtain ⟨hse, hp, hdvd, hlt, h0⟩ := nextDivisor_some hs hn
  obtain ⟨k, hk, hnd, hm⟩ := strip_spec rest e 0 hse.two h0
  have hf0 : (strip rest e 0).1.toNat ≠ 0 := by
    intro hf
    rw [hf, Nat.zero_mul] at hk
    exact h0 hk.symm
  have hk0 : k ≠ 0 := by
    rintro rfl
    rw [pow_zero, Nat.mul_one] at hk
    exact hnd (hk ▸ hdvd)
  have hleast : ∀ q : Nat, q.Prime → q ∣ (strip rest e 0).1.toNat → e.toNat ≤ q :=
    fun q hq hqd => hse.least q hq (hk ▸ Nat.dvd_mul_right_of_dvd hqd _)
  have hcounted : (strip rest e 0).2.toNat = k := by
    rw [hm, UInt32.zero_add]
    exact UInt32.toNat_ofNat_of_lt'
      (Nat.lt_trans (exponent_lt hse.two hf0 hk rest.toNat_lt) (by decide))
  have htried : e.toNat * e.toNat ≤ rest.toNat :=
    (worthTrying_iff hp.pos).mp (nextDivisor_spec (UInt64.le_iff_toNat_le.mpr hs.two) hn).2.2
  rw [hcounted]
  refine ⟨⟨hp, hf0, hk0, hk, fun q hq hqd => ?_⟩, htried,
    Sifted.following ⟨hse.two, hse.shape, hleast⟩ hlt hnd⟩
  exact Nat.lt_of_le_of_ne (hleast q hq hqd) fun he => hnd (he ▸ hqd)

/-! ## The factorization -/

theorem remainder_pairs {rest : UInt64} (h : rest.toNat ≤ 1 ∨ rest.toNat.Prime) :
    (remainder rest).map PrimeFactor.pair = primePowers rest.toNat := by
  unfold remainder
  have hlt : 1 < rest ↔ 1 < rest.toNat := by
    rw [UInt64.lt_iff_toNat_lt]
    rfl
  by_cases h1 : rest.toNat ≤ 1
  · rw [if_neg (by rw [hlt]; omega), primePowers_of_le_one h1]
    rfl
  · rw [if_pos (by rw [hlt]; omega), primePowers_prime (h.resolve_left h1)]
    rfl

section

variable {σ : Type} {report : Progress → Op σ Unit} {value rest d : UInt64} {hd : 2 ≤ d}

theorem factorsFrom_none (hn : nextDivisor rest d = none) :
    factorsFrom report value rest d hd = pure (remainder rest) := by
  rw [factorsFrom]
  split
  · rfl
  · next e he => cases hn.symm.trans he

theorem factorsFrom_some {e : UInt64} (hn : nextDivisor rest d = some e)
    (hnext : 2 ≤ following e) :
    factorsFrom report value rest d hd = (do
      report (.divided (strip rest e 0).1 value)
      let others ← factorsFrom report value (strip rest e 0).1 (following e) hnext
      return ⟨e, (strip rest e 0).2⟩ :: others) := by
  rw [factorsFrom]
  split
  · next hn' => cases hn.symm.trans hn'
  · next e' he' =>
    obtain rfl : e = e' := Option.some.inj (hn.symm.trans he')
    rfl

end

section

variable {σ : Type} {report : Progress → Op σ Unit} {P : σ → Prop} {E : Fault → σ → Prop}

/-- Induction on what is left: every prime divided out is the first of the remaining powers. -/
theorem factorsFrom_does (hr : ∀ p, Does P (report p) (fun _ => P) E) (value rest d : UInt64)
    (hd : 2 ≤ d) (hs : Sifted rest d) :
    Does P (factorsFrom report value rest d hd)
      (fun fs s => fs.map PrimeFactor.pair = primePowers rest.toNat ∧ P s) E := by
  fun_induction factorsFrom report value rest d hd with
  | case1 rest d hd hn =>
    exact .pure fun s h => ⟨remainder_pairs (nextDivisor_none hs hn), h⟩
  | case2 rest d hd e hn found ih =>
    obtain ⟨hstripped, -, hnext⟩ := nextDivisor_strips hs hn
    refine .bind (hr _) fun _ => .bind (ih hnext) fun fs => .pure fun s h => ⟨?_, h.2⟩
    rw [List.map_cons, h.1, hstripped.primePowers]
    rfl

/-- A factorization that ends is the complete one. The reports may do whatever keeps `P`. -/
theorem factorize_does (hr : ∀ p, Does P (report p) (fun _ => P) E) (value : UInt64) :
    Does P (factorize value report)
      (fun fs s => fs.map PrimeFactor.pair = primePowers value.toNat ∧ P s) E := by
  refine .bind (hr .start) fun _ => ?_
  refine .bind (factorsFrom_does hr value value 2 _ (Sifted.start value)) fun fs => ?_
  intro s h
  exact Does.bind (hr .finish) (fun _ => .pure fun s h' => ⟨h.1, h'⟩) s h.2

end

/-! ## What a factorization says -/

structure Factors (n : Nat) (fs : List PrimeFactor) : Prop where
  prime : ∀ f ∈ fs, f.prime.toNat.Prime
  counted : ∀ f ∈ fs, 1 ≤ f.multiplicity.toNat
  ascending : (fs.map (·.prime)).Pairwise (· < ·)
  product : n ≠ 0 → (fs.map fun f => f.prime.toNat ^ f.multiplicity.toNat).prod = n
  none : n ≤ 1 → fs = []

theorem fst_primePowers (n : Nat) : (primePowers n).map Prod.fst = n.primeFactors.sort := by
  simp [primePowers, Function.comp_def]

theorem mem_primePowers {n p k : Nat} (h : (p, k) ∈ primePowers n) : p.Prime ∧ 1 ≤ k := by
  simp only [primePowers, List.mem_map, Finset.mem_sort, Prod.mk.injEq] at h
  obtain ⟨q, hq, rfl, rfl⟩ := h
  have hp := Nat.prime_of_mem_primeFactors hq
  have hdvd := Nat.dvd_of_mem_primeFactors hq
  have hne : n ≠ 0 := (Nat.mem_primeFactors.mp hq).2.2
  exact ⟨hp, hp.factorization_pos_of_dvd hne hdvd⟩

/-- The powers multiply to the number. -/
theorem prod_primePowers {n : Nat} (h : n ≠ 0) :
    ((primePowers n).map fun f => f.1 ^ f.2).prod = n := by
  have hlist : (primePowers n).map (fun f => f.1 ^ f.2)
      = n.primeFactors.sort.map fun p => p ^ n.factorization p := by
    simp [primePowers, Function.comp_def]
  calc ((primePowers n).map fun f => f.1 ^ f.2).prod
      = ∏ p ∈ n.primeFactors, p ^ n.factorization p := by
        rw [hlist, ← List.prod_toFinset _ (Finset.sort_nodup _ _), Finset.sort_toFinset]
    _ = n := Nat.prod_factorization_pow_eq_self h

theorem factors_of_pairs {n : Nat} {fs : List PrimeFactor}
    (h : fs.map PrimeFactor.pair = primePowers n) : Factors n fs := by
  have hmem : ∀ f ∈ fs, f.pair ∈ primePowers n := by
    intro f hf
    rw [← h]
    exact List.mem_map_of_mem hf
  refine ⟨fun f hf => (mem_primePowers (hmem f hf)).1, fun f hf => (mem_primePowers (hmem f hf)).2,
    ?_, ?_, ?_⟩
  · have hfst : (fs.map (·.prime)).map UInt64.toNat = n.primeFactors.sort := by
      rw [← fst_primePowers, ← h]
      simp [PrimeFactor.pair, Function.comp_def]
    have hsorted : ((fs.map (·.prime)).map UInt64.toNat).Pairwise (· < ·) := by
      rw [hfst]
      exact Finset.sortedLT_sort _ |>.pairwise
    exact (List.pairwise_map.mp hsorted).imp UInt64.lt_iff_toNat_lt.mpr
  · intro hn
    have hprod := prod_primePowers hn
    rw [← h, List.map_map] at hprod
    exact hprod
  · intro hn
    rw [primePowers_of_le_one hn] at h
    exact List.map_eq_nil_iff.mp h

/-- With reports that never ask it to stop, a factorization of any 64-bit number comes to its
    end, and finds the primes that divide it, ascending, each as often as it does. -/
theorem factorize_factors {σ : Type} {report : Progress → Op σ Unit}
    (hr : ∀ p s, ∃ s', report p s = (.ok (), s')) (value : UInt64) (s : σ) :
    ∃ fs s', factorize value report s = (.ok fs, s') ∧ Factors value.toNat fs := by
  have hreport (p : Progress) :
      Does (fun _ => True) (report p) (fun _ _ => True) fun _ _ => False := by
    refine .of_run fun s _ => ?_
    obtain ⟨s', h⟩ := hr p s
    exact .inl ⟨(), s', h, trivial⟩
  obtain ⟨fs, s', hrun, hpairs, -⟩ := (factorize_does hreport value).run_ok (s := s) trivial
  exact ⟨fs, s', hrun, factors_of_pairs hpairs⟩

def tally (_ : Progress) : Op Nat Unit := modify (· + 1)

/-- The square of a prime comes with multiplicity two. The two primes are reported, as are the
    start and the end. -/
theorem factorize_tallied :
    (∀ p n, ∃ n', tally p n = (.ok (), n')) ∧
    ∃ n, factorize 1225 tally 0 = (.ok [⟨5, 2⟩, ⟨7, 2⟩], n) ∧ n = 4 ∧
      Factors 1225 [⟨5, 2⟩, ⟨7, 2⟩] := by
  have hr : ∀ p n, ∃ n', tally p n = (.ok (), n') := fun _ n => ⟨n + 1, rfl⟩
  have hfound : (factorize 1225 tally 0).1.toOption = some [⟨5, 2⟩, ⟨7, 2⟩] := by decide +kernel
  have hcount : (factorize 1225 tally 0).2 = 4 := by decide +kernel
  obtain ⟨fs, n, h, hf⟩ := factorize_factors hr 1225 0
  rw [h] at hfound hcount
  cases hfound
  exact ⟨hr, n, h, hcount, hf⟩

end Boundary.Primes
