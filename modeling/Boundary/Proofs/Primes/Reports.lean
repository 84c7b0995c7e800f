/-
  Boundary.Proofs.Primes.Reports — the reports of a calculation are fixed.

  A report may run a callback that does anything, but the calculation learns from it only whether
  to go on. So which reports are made, in which order, and what is found in the end is told by the
  kind and the value alone (`Scripted`); a report that fails cuts the sequence short. `reports` is
  the whole sequence, written down in a run that nothing stops.

  Proved: a calculation that is not refused is its reports, made one after the other, and then
  its result (`compute_scripted`); one that is refused makes none (`reports_refused`).
-/
import Boundary.Proofs.Primes.Results

namespace Boundary.Primes

variable {σ ω α β : Type}

/-! ## Computations that follow a script -/

/-- Whatever is done with its reports, the computation makes the reports `ps` one after the other
    and answers `a`. -/
def Scripted (x : (σ : Type) → (Progress → Op σ Unit) → Op σ α) (ps : List Progress) (a : α) :
    Prop :=
  ∀ (σ : Type) (report : Progress → Op σ Unit), x σ report = do
    forM ps report
    return a

namespace Scripted

theorem pure (a : α) : Scripted (fun _ _ => Pure.pure a) [] a := fun _ _ => rfl

theorem bind {x : (σ : Type) → (Progress → Op σ Unit) → Op σ α}
    {f : (σ : Type) → (Progress → Op σ Unit) → α → Op σ β} {ps qs : List Progress} {a : α} {b : β}
    (hx : Scripted x ps a) (hf : Scripted (fun σ report => f σ report a) qs b) :
    Scripted (fun σ report => x σ report >>= f σ report) (ps ++ qs) b := by
  intro σ report
  dsimp only
  rw [hx σ report, List.forM_append, bind_assoc, bind_assoc]
  refine bind_congr fun _ => ?_
  rw [pure_bind]
  exact hf σ report

variable {x : (σ : Type) → (Progress → Op σ Unit) → Op σ α} {ps : List Progress} {a : α}

/-- A report made first. -/
theorem after (p : Progress) (hx : Scripted x ps a) :
    Scripted (fun σ report => report p >>= fun _ => x σ report) (p :: ps) a := fun σ report => by
  dsimp only
  rw [List.forM_cons, bind_assoc]
  exact bind_congr fun _ => hx σ report

/-- Something made of the answer. -/
theorem map (g : α → β) (hx : Scripted x ps a) :
    Scripted (fun σ report => x σ report >>= fun r => Pure.pure (g r)) ps (g a) := by
  intro σ report
  dsimp only
  rw [hx σ report, bind_assoc]
  refine bind_congr fun _ => ?_
  rw [pure_bind]

end Scripted

def record (p : Progress) : Op (List Progress) Unit := modify (· ++ [p])

theorem forM_record (ps qs : List Progress) :
    forM ps record qs = (.ok (), qs ++ ps) := by
  induction ps generalizing qs with
  | nil => exact congrArg _ (List.append_nil qs).symm
  | cons p rest ih =>
    have hfirst : record p qs = (.ok (), qs ++ [p]) := rfl
    rw [List.forM_cons]
    refine (run_bind_ok hfirst).trans ?_
    rw [ih, List.append_assoc]
    rfl

/-- The script is what is written down. -/
theorem Scripted.recorded {x : (σ : Type) → (Progress → Op σ Unit) → Op σ α} {ps : List Progress}
    {a : α} (hx : Scripted x ps a) : x _ record [] = (.ok a, ps) := by
  rw [hx]
  exact run_bind_ok (forM_record ps [])

/-! ## Factorizations and sieves -/

section

variable {value rest d : UInt64} {hd : 2 ≤ d} {ps : List Progress} {fs : List PrimeFactor}

/-- Nothing is divided out any more. -/
theorem factorsFrom_rests (hn : nextDivisor rest d = none) :
    Scripted (fun _ report => factorsFrom report value rest d hd) [] (remainder rest) :=
  fun _ _ => factorsFrom_none hn

/-- A prime is divided out, and that is reported. -/
theorem factorsFrom_divides {e : UInt64} (hn : nextDivisor rest d = some e)
    {hnext : 2 ≤ following e}
    (hrest : Scripted (fun _ report => factorsFrom report value (strip rest e 0).1 (following e) hnext)
      ps fs) :
    Scripted (fun _ report => factorsFrom report value rest d hd)
      (.divided (strip rest e 0).1 value :: ps) (⟨e, (strip rest e 0).2⟩ :: fs) := by
  have hfound := (hrest.map (⟨e, (strip rest e 0).2⟩ :: ·)).after (.divided (strip rest e 0).1 value)
  exact fun σ report => (factorsFrom_some hn hnext).trans (hfound σ report)

/-- The start is reported before, and the end after. -/
theorem factorize_reports
    (h : Scripted (fun _ report => factorsFrom report value value 2 (by decide)) ps fs) :
    Scripted (fun _ report => factorize value report) (.start :: (ps ++ [.finish])) fs := by
  have hfinish := (Scripted.pure fs).after .finish
  exact (h.bind (f := fun _ report fs => report .finish >>= fun _ => pure fs) hfinish).after .start

end

/-- Induction on what is left, along any one run. -/
theorem factorsFrom_scripted (value rest d : UInt64) (hd : 2 ≤ d) :
    ∃ ps fs, Scripted (fun _ report => factorsFrom report value rest d hd) ps fs := by
  fun_induction factorsFrom record value rest d hd with
  | case1 rest d hd hn => exact ⟨_, _, factorsFrom_rests hn⟩
  | case2 rest d hd e hn found ih =>
    obtain ⟨ps, fs, hrest⟩ := ih
    exact ⟨_, _, factorsFrom_divides hn hrest⟩

section

variable {table t : Marks} {c : Nat} {hc : 0 < c} {ps : List Progress}

theorem sieveFrom_ends (hsq : ¬ c * c < table.size) :
    Scripted (fun _ report => sieveFrom report table c hc) [] table := by
  intro σ report
  dsimp only
  rw [sieveFrom, dif_neg hsq]
  rfl

theorem sieveFrom_skips (hsq : c * c < table.size) (hm : table.has c = true)
    (hrest : Scripted (fun _ report => sieveFrom report table (c + 1) (Nat.succ_pos c)) ps t) :
    Scripted (fun _ report => sieveFrom report table c hc) ps t := by
  refine fun σ report => Eq.trans ?_ (hrest σ report)
  dsimp only
  rw [sieveFrom, dif_pos hsq]
  exact if_pos hm

/-- Multiples are struck, and that is reported. -/
theorem sieveFrom_strikes (hsq : c * c < table.size) (hm : ¬ table.has c = true)
    (hrest : Scripted (fun _ report => sieveFrom report (strike c hc table (c * c)) (c + 1)
      (Nat.succ_pos c)) ps t) :
    Scripted (fun _ report => sieveFrom report table c hc)
      (.struck c (strike c hc table (c * c)).size :: ps) t := by
  refine fun σ report => Eq.trans ?_ (hrest.after (.struck c (strike c hc table (c * c)).size) σ report)
  dsimp only
  rw [sieveFrom, dif_pos hsq]
  exact if_neg hm

/-- The start is reported before, and the end after. -/
theorem sieve_reports {limit : UInt64} (h : ¬ sieveLimit < limit)
    (ht : Scripted (fun _ report => sieveFrom report (.blank (limit.toNat + 1)) 2 (by decide)) ps t) :
    Scripted (fun _ report => sieve limit report) (.start :: (ps ++ [.finish]))
      (unmarked t t.size []) := by
  have hfinish := (Scripted.pure (unmarked t t.size [])).after .finish
  have hrest := (ht.bind (f := fun _ report t => report .finish >>= fun _ =>
    pure (unmarked t t.size [])) hfinish).after .start
  refine fun σ report => Eq.trans ?_ (hrest σ report)
  dsimp only
  rw [sieve, if_neg h]

end

/-- Induction on the numbers left to visit, along any one run. -/
theorem sieveFrom_scripted (table : Marks) (c : Nat) (hc : 0 < c) :
    ∃ ps struck, Scripted (fun _ report => sieveFrom report table c hc) ps struck := by
  fun_induction sieveFrom record table c hc with
  | case1 table c hc hsq hlt hm ih =>
    obtain ⟨ps, t, hrest⟩ := ih
    exact ⟨_, _, sieveFrom_skips hsq hm hrest⟩
  | case2 table c hc hsq hlt hm struck ih =>
    obtain ⟨ps, t, hrest⟩ := ih
    exact ⟨_, _, sieveFrom_strikes hsq hm hrest⟩
  | case3 table c hc hsq => exact ⟨_, _, sieveFrom_ends hsq⟩

theorem factorize_scripted (value : UInt64) :
    ∃ ps fs, Scripted (fun _ report => factorize value report) ps fs := by
  obtain ⟨ps, fs, h⟩ := factorsFrom_scripted value value 2 (by decide)
  exact ⟨_, _, factorize_reports h⟩

theorem sieve_scripted {limit : UInt64} (h : ¬ sieveLimit < limit) :
    ∃ ps found, Scripted (fun _ report => sieve limit report) ps found := by
  obtain ⟨ps, t, ht⟩ := sieveFrom_scripted (.blank (limit.toNat + 1)) 2 (by decide)
  exact ⟨_, _, sieve_reports h ht⟩

/-! ## Calculations -/

def Refused (kind : Kind) (value : UInt64) : Prop := kind = .sieve ∧ sieveLimit < value

instance (kind : Kind) (value : UInt64) : Decidable (Refused kind value) :=
  inferInstanceAs (Decidable (_ ∧ _))

def reports (kind : Kind) (value : UInt64) : List Progress := (compute kind value record []).2

/-- Whatever its reports do, a calculation makes them one after the other and then has its
    result. -/
theorem compute_scripted {kind : Kind} {value : UInt64} (h : ¬ Refused kind value) :
    ∃ found, Complete kind value found ∧
      Scripted (fun _ report => compute kind value report) (reports kind value) found := by
  have hscript : ∃ ps found, Scripted (fun _ report => compute kind value report) ps found := by
    cases kind with
    | factorization =>
      obtain ⟨ps, fs, hfs⟩ := factorize_scripted value
      exact ⟨ps, _, hfs.map Outcome.factors⟩
    | sieve =>
      obtain ⟨ps, found, hps⟩ := sieve_scripted fun hlimit => h ⟨rfl, hlimit⟩
      exact ⟨ps, _, hps.map Outcome.primes⟩
  obtain ⟨ps, found, hps⟩ := hscript
  have hrecord : compute kind value record [] = (.ok found, ps) := hps.recorded
  have hr (p : Progress) : Does (fun _ => True) (record p) (fun _ _ => True) fun _ _ => True :=
    .of_run fun qs _ => .inl ⟨(), qs ++ [p], rfl, trivial⟩
  have hcomplete := (compute_does hr kind value).after_ok trivial hrecord
  have hreports : reports kind value = ps := congrArg Prod.snd hrecord
  exact ⟨found, hcomplete.1, hreports ▸ hps⟩

/-- A bound that is refused is refused at once. -/
theorem compute_refused {kind : Kind} {value : UInt64} (h : Refused kind value)
    (report : Progress → Op σ Unit) (s : σ) :
    compute kind value report s = (.error (.boundTooLarge value sieveLimit), s) := by
  obtain ⟨rfl, hlimit⟩ := h
  have hsieve : sieve value report s = (.error (.boundTooLarge value sieveLimit), s) := by
    rw [sieve, if_pos hlimit]
    rfl
  exact run_bind_error hsieve

theorem reports_refused {kind : Kind} {value : UInt64} (h : Refused kind value) :
    reports kind value = [] :=
  congrArg Prod.snd (compute_refused h record [])

end Boundary.Primes
