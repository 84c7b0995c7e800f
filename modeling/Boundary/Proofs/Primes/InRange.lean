/-
  Boundary.Proofs.Primes.InRange — the sieve keeps to its table.

  A read past the end of a table finds no mark, and nothing can be written there, so a sieve
  that went too far would not show it. `sieveChecked` would: its loops go by the length that was
  asked for, and an access that is not in the table brings it to a halt.

  Proved: the sieve comes to the same with all accesses checked, so all of them are in range
  (`sieveChecked_eq`); with reports that never stop it, it lists the primes up to its bound, and
  a bound that is too large it refuses before anything is reported (`sieve_lists_primes`).
-/
import Boundary.Proofs.Primes.Factor
import Boundary.Proofs.Primes.Sieve

namespace Boundary.Primes

variable {σ : Type}

/-! ## Checked accesses -/

namespace Marks

def outOfRange (t : Marks) (n : Nat) : Fault :=
  .panicked (some ("index out of bounds: the len is " ++ toString t.size ++ " but the index is "
    ++ toString n))

def read (t : Marks) (n : Nat) : Except Fault Bool :=
  if n < t.size then .ok (t.has n) else .error (t.outOfRange n)

def write (t : Marks) (n : Nat) : Except Fault Marks :=
  if h : n < t.size then .ok (t.add n h) else .error (t.outOfRange n)

variable {t : Marks} {n : Nat}

theorem read_ok (h : n < t.size) : t.read n = .ok (t.has n) := if_pos h

theorem write_ok (h : n < t.size) : t.write n = .ok (t.add n h) := dif_pos h

end Marks

def strikeChecked (length step : Nat) (hs : 0 < step) (table : Marks) (m : Nat) :
    Except Fault Marks :=
  if m < length then do
    let table ← table.write m
    strikeChecked length step hs table (m + step)
  else return table
  termination_by length - m

def sieveFromChecked (report : Progress → Op σ Unit) (length : Nat) (table : Marks) (c : Nat)
    (hc : 0 < c) : Op σ Marks :=
  if h : c * c < length then do
    have _hlt := lt_of_mul_self_lt h
    if ← table.read c then sieveFromChecked report length table (c + 1) (Nat.succ_pos c)
    else
      let struck ← strikeChecked length c hc table (c * c)
      report (.struck c length)
      sieveFromChecked report length struck (c + 1) (Nat.succ_pos c)
  else return table
  termination_by length - c

def unmarkedChecked (table : Marks) : List Nat → Except Fault (List UInt64)
  | [] => return []
  | n :: rest => do
    let marked ← table.read n
    let others ← unmarkedChecked table rest
    return if marked then others else UInt64.ofNat n :: others

/-- The primes up to and including `limit`. An access that is out of range brings the sieve to a
    halt. -/
def sieveChecked (limit : UInt64) (report : Progress → Op σ Unit) : Op σ (List UInt64) := do
  if sieveLimit < limit then
    throw (.boundTooLarge limit sieveLimit)
  report .start
  let length := limit.toNat + 1
  let table ← sieveFromChecked report length (.blank length) 2 Nat.two_pos
  report .finish
  unmarkedChecked table (List.range' 2 (length - 2))

/-! ## In range -/

theorem strikeChecked_eq (step : Nat) (hs : 0 < step) (table : Marks) (m : Nat) :
    strikeChecked table.size step hs table m = .ok (strike step hs table m) := by
  fun_induction strike step hs table m with
  | case1 table m h ih =>
    rw [strikeChecked, if_pos h, Marks.write_ok h, ← ih, Marks.size_add]
    rfl
  | case2 table m h =>
    rw [strikeChecked, if_neg h]
    rfl

/-- Induction on the numbers left to visit: a number is smaller than its square. -/
theorem sieveFromChecked_eq (report : Progress → Op σ Unit) (table : Marks) (c : Nat)
    (hc : 0 < c) :
    sieveFromChecked report table.size table c hc = sieveFrom report table c hc := by
  fun_induction sieveFrom report table c hc with
  | case1 table c hc hsq hlt hm ih =>
    rw [sieveFromChecked, dif_pos hsq, Marks.read_ok hlt, hm, ← ih]
    rfl
  | case2 table c hc hsq hlt hm struck ih =>
    have hm : table.has c = false := by simpa using hm
    have hsize : struck.size = table.size := size_strike c hc table (c * c)
    rw [sieveFromChecked, dif_pos hsq, Marks.read_ok hlt, hm, strikeChecked_eq, ← ih, hsize]
    rfl
  | case3 table c hc hsq =>
    rw [sieveFromChecked, dif_neg hsq]

/-- What is listed, number by number. -/
theorem unmarked_eq (table : Marks) (n : Nat) (above : List UInt64) :
    unmarked table n above
      = ((List.range' 2 (n - 2)).filter fun k => !table.has k).map UInt64.ofNat ++ above := by
  fun_induction unmarked table n above with
  | case1 n above ih =>
    have hlast : List.range' 2 (n + 3 - 2) = List.range' 2 (n + 2 - 2) ++ [n + 2] := by
      rw [show n + 3 - 2 = n + 2 - 2 + 1 from rfl, List.range'_concat]
      simp [Nat.add_comm]
    rw [ih, hlast, List.filter_append, List.map_append, List.append_assoc]
    congr 1
    cases hh : table.has (n + 2) <;> simp [hh]
  | case2 n above h =>
    have hnone : n - 2 = 0 := by
      by_contra hne
      exact h (n - 3) (by omega)
    rw [hnone]
    rfl

theorem unmarkedChecked_eq {table : Marks} {ns : List Nat} (h : ∀ n ∈ ns, n < table.size) :
    unmarkedChecked table ns = .ok ((ns.filter fun k => !table.has k).map UInt64.ofNat) := by
  induction ns with
  | nil => rfl
  | cons n rest ih =>
    rw [unmarkedChecked, Marks.read_ok (h n List.mem_cons_self),
      ih fun k hk => h k (List.mem_cons_of_mem n hk)]
    cases hh : table.has n <;> simp [hh, bind, Except.bind, pure, Except.pure]

/-- With every access checked the sieve comes to the same, whatever the reports do: none is out
    of range. -/
theorem sieveChecked_eq (limit : UInt64) (report : Progress → Op σ Unit) :
    sieveChecked limit report = sieve limit report := by
  have hreport (p : Progress) :
      Does (fun _ => True) (report p) (fun _ _ => True) fun _ _ => True :=
    fun s _ => by cases h : (report p s).1 <;> simp [ExceptT.run, h, Either]
  have hsize := sieveFrom_does hreport (.blank (limit.toNat + 1)) 2 (by decide) (Nat.le_refl 2)
    (Struck.blank _)
  have hblank := sieveFromChecked_eq report (.blank (limit.toNat + 1)) 2 (by decide)
  rw [Marks.size_blank] at hblank
  unfold sieveChecked sieve
  refine ite_congr rfl (fun _ => rfl) fun _ => ?_
  dsimp only
  rw [hblank]
  refine bind_congr fun _ => ?_
  funext s
  refine run_bind_congr fun table s' ht => ?_
  have hlen : table.size = limit.toNat + 1 :=
    ((hsize.after_ok trivial ht).1.1).trans (Marks.size_blank _)
  have hlist : unmarkedChecked table (List.range' 2 (limit.toNat + 1 - 2))
      = .ok (unmarked table table.size []) := by
    rw [unmarkedChecked_eq fun n hn => ?_, unmarked_eq, hlen, List.append_nil]
    have := List.mem_range'_1.mp hn
    omega
  rw [hlist]
  rfl

/-! ## The primes up to a bound -/

theorem mem_primesTo {n k : Nat} : k ∈ primesTo n ↔ k.Prime ∧ k ≤ n := by
  rw [primesTo, List.mem_filter, List.mem_range, decide_eq_true_iff, Nat.lt_succ_iff, and_comm]

/-- A list of the primes up to a bound ascends and has each of them. -/
theorem primes_of_map {ps : List UInt64} {limit : UInt64}
    (h : ps.map UInt64.toNat = primesTo limit.toNat) :
    ps.Pairwise (· < ·) ∧ ∀ p, p ∈ ps ↔ p.toNat.Prime ∧ p ≤ limit := by
  constructor
  · have hsorted : (ps.map UInt64.toNat).Pairwise (· < ·) := by
      rw [h]
      exact List.pairwise_lt_range.filter _
    exact (List.pairwise_map.mp hsorted).imp UInt64.lt_iff_toNat_lt.mpr
  · intro p
    have hmem : p.toNat ∈ ps.map UInt64.toNat ↔ p ∈ ps :=
      List.mem_map_of_injective fun _ _ => UInt64.toNat_inj.mp
    rw [← hmem, h, mem_primesTo, UInt64.le_iff_toNat_le]

/-- With reports that never stop it, the sieve of a bound up to 2 ^ 26 comes to its end, with no
    access out of range, and lists the primes up to and including the bound, each once and in
    ascending order. Any larger bound is refused: nothing is reported, whatever would come of it. -/
theorem sieve_lists_primes (report : Progress → Op σ Unit) (limit : UInt64) (s : σ) :
    (limit.toNat ≤ 2 ^ 26 → (∀ p s, ∃ s', report p s = (.ok (), s')) →
      ∃ ps s', sieve limit report s = (.ok ps, s') ∧ sieveChecked limit report s = (.ok ps, s') ∧
        ps.Pairwise (· < ·) ∧ ∀ p, p ∈ ps ↔ p.toNat.Prime ∧ p ≤ limit) ∧
    (2 ^ 26 < limit.toNat → ∃ why, sieve limit report s = (.error why, s) ∧
      why.code = Status.invalidParam) := by
  have hlimit : sieveLimit < limit ↔ 2 ^ 26 < limit.toNat := UInt64.lt_iff_toNat_lt
  constructor
  · intro hle hr
    have hreport (p : Progress) :
        Does (fun _ => True) (report p) (fun _ _ => True) fun _ _ => False := by
      refine .of_run fun s _ => ?_
      obtain ⟨s', h⟩ := hr p s
      exact .inl ⟨(), s', h, trivial⟩
    have hbound : ¬ sieveLimit < limit := fun h => absurd (hlimit.mp h) (Nat.not_lt.mpr hle)
    obtain ⟨ps, s', hrun, hps, -⟩ :=
      (sieve_does hreport limit fun h => absurd h hbound).run_ok (s := s) trivial
    exact ⟨ps, s', hrun, (sieveChecked_eq limit report).symm ▸ hrun, primes_of_map hps⟩
  · intro hlt
    refine ⟨.boundTooLarge limit sieveLimit, ?_, rfl⟩
    rw [sieve, if_pos (hlimit.mpr hlt)]
    rfl

/-- The bound is the square of a prime, whose report is the last but one. -/
theorem sieve_tallied :
    (∀ p n, ∃ n', tally p n = (.ok (), n')) ∧
    ∃ n, sieve 25 tally 0 = (.ok [2, 3, 5, 7, 11, 13, 17, 19, 23], n) ∧ n = 5 ∧
      (∀ p, p ∈ [2, 3, 5, 7, 11, 13, 17, 19, 23] ↔ p.toNat.Prime ∧ p ≤ (25 : UInt64)) ∧
      ∃ why, sieve 67108865 tally 0 = (.error why, 0) ∧ why.code = Status.invalidParam := by
  have hr : ∀ p n, ∃ n', tally p n = (.ok (), n') := fun _ n => ⟨n + 1, rfl⟩
  have hfound : (sieve 25 tally 0).1.toOption = some [2, 3, 5, 7, 11, 13, 17, 19, 23] := by
    decide +kernel
  have hcount : (sieve 25 tally 0).2 = 5 := by decide +kernel
  obtain ⟨ps, n, h, -, -, hps⟩ := (sieve_lists_primes tally 25 0).1 (by decide) hr
  rw [h] at hfound hcount
  cases hfound
  exact ⟨hr, n, h, hcount, hps, (sieve_lists_primes tally 67108865 0).2 (by decide)⟩

end Boundary.Primes
