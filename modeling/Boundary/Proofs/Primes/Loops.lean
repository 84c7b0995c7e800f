/-
  Boundary.Proofs.Primes.Loops — the loops of a factorization end.

  The recursions that find a divisor and divide it out are guarded, so that they are well-founded.
  Here are the two loops with no guards. The outer one tries divisors; the inner one divides by a
  divisor for as long as that goes, and would not end on a rest of zero. Their arithmetic is checked:
  a turn has no result if it divides by zero or if a sum does not fit.

  In the inner loop the rest, times the powers divided out of it, is the number that the loop was
  entered with. That is at least the square of the divisor and fits into a word, so the rest is not
  zero and the multiplicity is small (`inside_bounds`). Every turn leaves fewer to be made
  (`Loop.left`), as no divisor is divided out more than 63 times.

  Proved: whatever the reports do, every turn has a result, with all numbers in their bounds; both
  loops end, and the outer one with what the factorization answers and the state that it leaves
  (`factorize_ends`).
-/
import Boundary.Proofs.Primes.Factor

namespace Boundary.Primes

variable {σ : Type}

/-! ## Checked arithmetic -/

namespace Checked

def div (a b : UInt64) : Option UInt64 := if b = 0 then none else some (a / b)

def mod (a b : UInt64) : Option UInt64 := if b = 0 then none else some (a % b)

def add (a b : UInt64) : Option UInt64 :=
  if a.toNat + b.toNat < 2 ^ 64 then some (a + b) else none

def succ (m : UInt32) : Option UInt32 := if m.toNat + 1 < 2 ^ 32 then some (m + 1) else none

def following (d : UInt64) : Option UInt64 := add d (if d = 2 then 1 else 2)

variable {a b d : UInt64}

theorem ne_zero (hb : 2 ≤ b) : b ≠ 0 := by
  rintro rfl
  exact absurd hb (by decide)

theorem div_some (hb : 2 ≤ b) : div a b = some (a / b) := if_neg (ne_zero hb)

theorem mod_some (hb : 2 ≤ b) : mod a b = some (a % b) := if_neg (ne_zero hb)

theorem succ_some {m : UInt32} (h : m.toNat < 64) : succ m = some (m + 1) := if_pos (by omega)

theorem following_some (h : d.toNat < 2 ^ 32) : following d = some (Primes.following d) := by
  have hstep : (if d = 2 then 1 else 2 : UInt64).toNat ≤ 2 := by split <;> decide
  rw [following, add, if_pos (by omega), Primes.following]
  split <;> rfl

end Checked

/-! ## The loops -/

inductive Loop (σ : Type) where
  /-- Before the test of the outer loop. -/
  | trying (rest d : UInt64) (found : List PrimeFactor) (s : σ)
  /-- Before the test of the inner loop. -/
  | dividing (rest d : UInt64) (multiplicity : UInt32) (found : List PrimeFactor) (s : σ)
  | ended (outcome : Except Fault (List PrimeFactor)) (s : σ)

def telling (report : Op σ Unit) (s : σ) (next : σ → Option (Loop σ)) : Option (Loop σ) :=
  match report s with
  | (.ok (), s) => next s
  | (.error why, s) => some (.ended (.error why) s)

/-- From the test of a loop to the next test. -/
def Loop.turn (value : UInt64) (report : Progress → Op σ Unit) : Loop σ → Option (Loop σ)
  | .trying rest d found s => do
    if d ≤ (← Checked.div rest d) then
      if (← Checked.mod rest d) = 0 then
        return .dividing rest d 0 found s
      else
        return .trying rest (← Checked.following d) found s
    else
      telling (report .finish) s fun s => return .ended (.ok (found ++ remainder rest)) s
  | .dividing rest d multiplicity found s => do
    if (← Checked.mod rest d) = 0 then
      return .dividing (← Checked.div rest d) d (← Checked.succ multiplicity) found s
    else
      telling (report (.divided rest value)) s fun s => do
        return .trying rest (← Checked.following d) (found ++ [⟨d, multiplicity⟩]) s
  | .ended outcome s => return .ended outcome s

def Loop.after (value : UInt64) (report : Progress → Op σ Unit) (s : σ) : Nat → Option (Loop σ)
  | 0 => telling (report .start) s fun s => return .trying value 2 [] s
  | n + 1 => do (← after value report s n).turn value report

namespace Loop

def Sound : Loop σ → Prop
  | trying _ d _ _ => 2 ≤ d.toNat ∧ d.toNat ≤ 2 ^ 32 + 1
  | dividing rest d multiplicity _ _ =>
    2 ≤ d.toNat ∧ d.toNat ≤ 2 ^ 32 + 1 ∧ 1 ≤ rest.toNat ∧ multiplicity.toNat ≤ 63
  | ended _ _ => True

def Enters : Loop σ → Loop σ → Prop
  | trying rest d _ _, dividing rest' d' multiplicity _ _ =>
    rest' = rest ∧ d' = d ∧ multiplicity = 0 ∧ d.toNat * d.toNat ≤ rest.toNat
  | _, _ => True

def isDividing : Loop σ → Bool
  | dividing .. => true
  | _ => false

/-- How many turns are left at most. A divisor has 65 of them: one in the outer loop, the others in
    the inner one. -/
def left : Loop σ → Nat
  | trying _ d _ _ => 65 * (2 ^ 32 + 2 - d.toNat)
  | dividing _ d multiplicity _ _ => 65 * (2 ^ 32 + 2 - d.toNat) - (1 + multiplicity.toNat)
  | ended _ _ => 0

def inside : Loop σ → Nat
  | dividing _ _ multiplicity _ _ => 64 - multiplicity.toNat
  | _ => 0

end Loop

/-! ## What is still to come of a factorization -/

def resume (report : Progress → Op σ Unit) (value rest d : UInt64) (hd : 2 ≤ d)
    (found : List PrimeFactor) : Op σ (List PrimeFactor) := do
  let others ← factorsFrom report value rest d hd
  report .finish
  return found ++ others

def resumeInside (report : Progress → Op σ Unit) (value rest d : UInt64) (hd : 2 ≤ following d)
    (multiplicity : UInt32) (found : List PrimeFactor) : Op σ (List PrimeFactor) := do
  let stripped := strip rest d multiplicity
  report (.divided stripped.1 value)
  resume report value stripped.1 (following d) hd (found ++ [⟨d, stripped.2⟩])

theorem toNat_following_bounds {d : UInt64} (hlt : d.toNat < 2 ^ 32) :
    d.toNat < (following d).toNat ∧ (following d).toNat ≤ d.toNat + 2 := by
  rw [toNat_following hlt]
  split <;> omega

theorem two_le_following {d : UInt64} (hd : 2 ≤ d) (hlt : d.toNat < 2 ^ 32) : 2 ≤ following d := by
  have h2 : 2 ≤ d.toNat := UInt64.le_iff_toNat_le.mp hd
  exact UInt64.le_iff_toNat_le.mpr (Nat.le_trans h2 (toNat_following_bounds hlt).1.le)

section

variable {report : Progress → Op σ Unit} {value rest d : UInt64} {found : List PrimeFactor}

theorem factorize_eq_resume (value : UInt64) (report : Progress → Op σ Unit) :
    factorize value report = report .start >>= fun _ =>
      resume report value value 2 (by decide) [] := rfl

theorem resume_rest {hd : 2 ≤ d} (hw : ¬ worthTrying rest d = true) :
    resume report value rest d hd found =
      report .finish >>= fun _ => pure (found ++ remainder rest) := by
  have hnone : nextDivisor rest d = none := by rw [nextDivisor, dif_neg hw]
  rw [resume, factorsFrom_none hnone, pure_bind]

theorem resume_skip {hd : 2 ≤ d} (hw : worthTrying rest d = true) (hm : rest % d ≠ 0)
    (hnext : 2 ≤ following d) :
    resume report value rest d hd found = resume report value rest (following d) hnext found := by
  have hsame : nextDivisor rest d = nextDivisor rest (following d) := by
    rw [nextDivisor, dif_pos hw, if_neg hm]
  unfold resume
  congr 1
  cases hn : nextDivisor rest (following d) with
  | none => rw [factorsFrom_none (hsame.trans hn), factorsFrom_none hn]
  | some e =>
    have hspec := nextDivisor_spec hnext hn
    have he : 2 ≤ following e := two_le_following hspec.1 (lt_of_worthTrying hspec.2.2)
    rw [factorsFrom_some (hsame.trans hn) he, factorsFrom_some hn he]

theorem resume_divide {hd : 2 ≤ d} (hw : worthTrying rest d = true) (hm : rest % d = 0)
    (hnext : 2 ≤ following d) :
    resume report value rest d hd found = resumeInside report value rest d hnext 0 found := by
  have hsome : nextDivisor rest d = some d := by rw [nextDivisor, dif_pos hw, if_pos hm]
  unfold resumeInside resume
  rw [factorsFrom_some hsome hnext]
  simp only [bind_assoc, pure_bind, List.append_assoc, List.singleton_append]

theorem resumeInside_divide {hnext : 2 ≤ following d} {m : UInt32} (hd : 2 ≤ d) (hr : 0 < rest)
    (hm : rest % d = 0) :
    resumeInside report value rest d hnext m found =
      resumeInside report value (rest / d) d hnext (m + 1) found := by
  have hstrip : strip rest d m = strip (rest / d) d (m + 1) := by
    rw [strip, dif_pos ⟨hd, hr, hm⟩]
  unfold resumeInside
  rw [hstrip]

theorem resumeInside_leave {hnext : 2 ≤ following d} {m : UInt32} (hm : rest % d ≠ 0) :
    resumeInside report value rest d hnext m found =
      report (.divided rest value) >>= fun _ =>
        resume report value rest (following d) hnext (found ++ [⟨d, m⟩]) := by
  have hstrip : strip rest d m = (rest, m) := by rw [strip, dif_neg fun h => hm h.2.2]
  unfold resumeInside
  rw [hstrip]

end

/-! ## One turn -/

/-- The loops have come as far as a factorization whose outcome and last state are `r`. -/
inductive Standing (value : UInt64) (report : Progress → Op σ Unit)
    (r : Except Fault (List PrimeFactor) × σ) : Loop σ → Prop
  | trying {rest d : UInt64} {found : List PrimeFactor} {s : σ} (hd : 2 ≤ d) :
      d.toNat ≤ 2 ^ 32 + 1 → resume report value rest d hd found s = r →
      Standing value report r (.trying rest d found s)
  /-- The product is the number that the inner loop was entered with. -/
  | dividing {rest d : UInt64} {m : UInt32} {found : List PrimeFactor} {s : σ} (hd : 2 ≤ d)
      (hnext : 2 ≤ following d) : d.toNat < 2 ^ 32 →
      d.toNat * d.toNat ≤ rest.toNat * d.toNat ^ m.toNat →
      rest.toNat * d.toNat ^ m.toNat < 2 ^ 64 →
      resumeInside report value rest d hnext m found s = r →
      Standing value report r (.dividing rest d m found s)
  | ended : Standing value report r (.ended r.1 r.2)

structure Turned (value : UInt64) (report : Progress → Op σ Unit)
    (r : Except Fault (List PrimeFactor) × σ) (l l' : Loop σ) : Prop where
  standing : Standing value report r l'
  enters : l.Enters l'
  left : l'.left ≤ l.left - 1
  inside : l.isDividing = true → l'.inside ≤ l.inside - 1

/-- The rest in the inner loop is not zero, and the multiplicity is small. -/
theorem inside_bounds {rest d m : Nat} (hd : 2 ≤ d) (hsq : d * d ≤ rest * d ^ m)
    (hfit : rest * d ^ m < 2 ^ 64) : 1 ≤ rest ∧ m ≤ 63 := by
  have hpos : 0 < rest := by
    rcases Nat.eq_zero_or_pos rest with rfl | h
    · have := Nat.mul_le_mul hd hd
      omega
    · exact h
  exact ⟨hpos, Nat.le_of_lt_succ (exponent_lt hd (Nat.ne_of_gt hpos) rfl hfit)⟩

section

variable {value : UInt64} {report : Progress → Op σ Unit}
  {r : Except Fault (List PrimeFactor) × σ} {l : Loop σ}

theorem Standing.sound (h : Standing value report r l) : l.Sound := by
  cases h with
  | trying hd hmax _ => exact ⟨UInt64.le_iff_toNat_le.mp hd, hmax⟩
  | dividing hd _ hlt hsq hfit _ =>
    have h2 := UInt64.le_iff_toNat_le.mp hd
    exact ⟨h2, by omega, inside_bounds h2 hsq hfit⟩
  | ended => trivial

theorem turned_ended (l : Loop σ) : Turned value report r l (.ended r.1 r.2) where
  standing := .ended
  enters := by cases l <;> trivial
  left := Nat.zero_le _
  inside _ := Nat.zero_le _

/-- After a report the loops go on as the factorization does. If it fails, both end. -/
theorem telling_some {x : Op σ Unit} {f : Unit → Op σ (List PrimeFactor)} {s : σ}
    {next : σ → Option (Loop σ)} {P : Loop σ → Prop} (hr : (x >>= f) s = r)
    (hnext : ∀ u, f () u = r → ∃ l, next u = some l ∧ P l) (hend : P (.ended r.1 r.2)) :
    ∃ l, telling x s next = some l ∧ P l := by
  unfold telling
  obtain ⟨⟨⟩ | ⟨⟩, u, hx⟩ : ∃ a u, x s = (a, u) := ⟨_, _, rfl⟩
  · rw [run_bind_error hx] at hr
    subst hr
    exact ⟨_, by rw [hx], hend⟩
  · rw [run_bind_ok hx] at hr
    rw [hx]
    exact hnext u hr

/-- The outer loop goes into the inner one, or on to the next divisor, or it ends. -/
theorem Standing.turn_trying {rest d : UInt64} {found : List PrimeFactor} {s : σ} (hd : 2 ≤ d)
    (hmax : d.toNat ≤ 2 ^ 32 + 1) (hr : resume report value rest d hd found s = r) :
    ∃ l', Loop.turn value report (.trying rest d found s) = some l' ∧
      Turned value report r (.trying rest d found s) l' := by
  have h2 : 2 ≤ d.toNat := UInt64.le_iff_toNat_le.mp hd
  simp only [Loop.turn, Checked.div_some hd, Checked.mod_some hd, Option.bind_eq_bind,
    Option.bind_some]
  by_cases hw : d ≤ rest / d
  · have hworth : worthTrying rest d = true := decide_eq_true hw
    have hlt := lt_of_worthTrying hworth
    have hnext := two_le_following hd hlt
    rw [if_pos hw]
    by_cases hm : rest % d = 0
    · have hsq : d.toNat * d.toNat ≤ rest.toNat := (worthTrying_iff (by omega)).mp hworth
      rw [resume_divide hworth hm hnext] at hr
      rw [if_pos hm]
      refine ⟨_, rfl, .dividing hd hnext hlt ?_ ?_ hr, ⟨rfl, rfl, rfl, hsq⟩, ?_, nofun⟩
      · simpa using hsq
      · simpa using rest.toNat_lt
      · simp only [Loop.left, UInt32.toNat_zero]
        omega
    · have hlarger := toNat_following_bounds hlt
      rw [resume_skip hworth hm hnext] at hr
      rw [if_neg hm, Checked.following_some hlt]
      refine ⟨_, rfl, .trying hnext (by omega) hr, trivial, ?_, nofun⟩
      simp only [Loop.left]
      omega
  · rw [resume_rest fun h => hw (of_decide_eq_true h)] at hr
    rw [if_neg hw]
    refine telling_some hr (fun u hu => ⟨_, rfl, ?_⟩) (turned_ended _)
    obtain rfl : (Except.ok (found ++ remainder rest), u) = r := hu
    exact turned_ended _

/-- The inner loop divides once more, or it goes back to the outer one. -/
theorem Standing.turn_dividing {rest d : UInt64} {m : UInt32} {found : List PrimeFactor} {s : σ}
    (hd : 2 ≤ d) (hnext : 2 ≤ following d) (hlt : d.toNat < 2 ^ 32)
    (hsq : d.toNat * d.toNat ≤ rest.toNat * d.toNat ^ m.toNat)
    (hfit : rest.toNat * d.toNat ^ m.toNat < 2 ^ 64)
    (hr : resumeInside report value rest d hnext m found s = r) :
    ∃ l', Loop.turn value report (.dividing rest d m found s) = some l' ∧
      Turned value report r (.dividing rest d m found s) l' := by
  obtain ⟨hrest, hsmall⟩ := inside_bounds (UInt64.le_iff_toNat_le.mp hd) hsq hfit
  simp only [Loop.turn, Checked.div_some hd, Checked.mod_some hd, Option.bind_eq_bind,
    Option.bind_some]
  by_cases hm : rest % d = 0
  · have hm1 : (m + 1).toNat = m.toNat + 1 := by
      rw [UInt32.toNat_add, UInt32.toNat_one]
      omega
    -- what the loop was entered with stays the same
    have hsame : (rest / d).toNat * d.toNat ^ (m + 1).toNat = rest.toNat * d.toNat ^ m.toNat := by
      rw [hm1, UInt64.toNat_div, pow_succ', ← Nat.mul_assoc,
        Nat.div_mul_cancel (mod_eq_zero_iff.mp hm)]
    rw [resumeInside_divide hd (UInt64.lt_iff_toNat_lt.mpr hrest) hm] at hr
    rw [if_pos hm, Checked.succ_some (by omega)]
    refine ⟨_, rfl, .dividing hd hnext hlt (hsame ▸ hsq) (hsame ▸ hfit) hr, trivial, ?_,
      fun _ => ?_⟩
    · simp only [Loop.left, hm1]
      omega
    · simp only [Loop.inside, hm1]
      omega
  · have hlarger := toNat_following_bounds hlt
    rw [resumeInside_leave hm] at hr
    rw [if_neg hm, Checked.following_some hlt]
    refine telling_some hr (fun u hu => ⟨_, rfl, .trying hnext (by omega) hu, trivial, ?_, ?_⟩)
      (turned_ended _)
    · simp only [Loop.left]
      omega
    · exact fun _ => Nat.zero_le _

theorem Standing.turn (h : Standing value report r l) :
    ∃ l', l.turn value report = some l' ∧ Turned value report r l l' := by
  cases h with
  | trying hd hmax hr => exact turn_trying hd hmax hr
  | dividing hd hnext hlt hsq hfit hr => exact turn_dividing hd hnext hlt hsq hfit hr
  | ended => exact ⟨_, rfl, turned_ended _⟩

/-- With no turns left it is the end. -/
theorem Standing.eq_ended (h : Standing value report r l) (hl : l.left = 0) :
    l = .ended r.1 r.2 := by
  have hsound := h.sound
  cases h with
  | trying hd hmax hr =>
    simp only [Loop.left] at hl
    omega
  | dividing hd hnext hlt hsq hfit hr =>
    have hsmall := hsound.2.2.2
    simp only [Loop.left] at hl
    omega
  | ended => rfl

/-- With no turns left in the inner loop, it was left. -/
theorem Standing.not_dividing (h : Standing value report r l) (hl : l.inside = 0) :
    l.isDividing = false := by
  have hsound := h.sound
  cases h with
  | dividing hd hnext hlt hsq hfit hr =>
    have hsmall := hsound.2.2.2
    simp only [Loop.inside] at hl
    omega
  | trying | ended => rfl

end

/-! ## All turns -/

section

variable (value : UInt64) (report : Progress → Op σ Unit) (s : σ)

/-- Induction on the turns. -/
theorem after_standing (n : Nat) : ∃ l, Loop.after value report s n = some l ∧
    Standing value report (factorize value report s) l ∧ l.left ≤ 65 * 2 ^ 32 - n := by
  induction n with
  | zero =>
    refine telling_some (congrFun (factorize_eq_resume value report) s).symm
      (fun u hu => ⟨_, rfl, .trying _ (by decide) hu, ?_⟩) ⟨.ended, Nat.zero_le _⟩
    exact Nat.le_of_eq rfl
  | succ n ih =>
    obtain ⟨l, hl, hstanding, hleft⟩ := ih
    obtain ⟨l', hl', hturned⟩ := hstanding.turn
    refine ⟨l', ?_, hturned.standing, ?_⟩
    · rw [Loop.after, hl]
      exact hl'
    · have := hturned.left
      omega

/-- Induction on the turns left in the inner loop. -/
theorem after_inside {n k : Nat} {l : Loop σ} (hl : Loop.after value report s n = some l)
    (hstanding : Standing value report (factorize value report s) l) (hk : l.inside ≤ k) :
    ∃ j ≤ k, ∃ l', Loop.after value report s (n + j) = some l' ∧ l'.isDividing = false := by
  induction k generalizing n l with
  | zero => exact ⟨0, Nat.le_refl 0, l, hl, hstanding.not_dividing (Nat.le_zero.mp hk)⟩
  | succ k ih =>
    cases hd : l.isDividing with
    | false => exact ⟨0, Nat.zero_le _, l, hl, hd⟩
    | true =>
      obtain ⟨l', hl', hturned⟩ := hstanding.turn
      have hnext : Loop.after value report s (n + 1) = some l' := by
        rw [Loop.after, hl]
        exact hl'
      have hinside := hturned.inside hd
      obtain ⟨j, hj, u, hu, hout⟩ := ih hnext hturned.standing (by omega)
      refine ⟨j + 1, by omega, u, ?_, hout⟩
      rwa [Nat.add_assoc, Nat.add_comm 1 j] at hu

/-- A factorization ends for every 64-bit number, whatever its reports do. No turn of its loops
    divides by zero or computes a sum that does not fit. At every turn the divisor is at least two
    and at most 2 ^ 32 + 1. The inner loop is entered only with a rest that is at least the square of
    the divisor; in it the rest is never zero and the multiplicity never more than 63, and it is left
    within 64 turns. The outer loop ends with the outcome of the factorization and the state that it
    leaves. -/
theorem factorize_ends :
    (∀ n, ∃ l l', Loop.after value report s n = some l ∧ l.turn value report = some l' ∧
      l.Sound ∧ l.Enters l') ∧
    (∀ n, ∃ k ≤ 64, ∃ l, Loop.after value report s (n + k) = some l ∧ l.isDividing = false) ∧
    ∃ n ≤ 65 * 2 ^ 32, Loop.after value report s n =
      some (.ended (factorize value report s).1 (factorize value report s).2) := by
  refine ⟨fun n => ?_, fun n => ?_, 65 * 2 ^ 32, Nat.le_refl _, ?_⟩
  · obtain ⟨l, hl, hstanding, -⟩ := after_standing value report s n
    obtain ⟨l', hl', hturned⟩ := hstanding.turn
    exact ⟨l, l', hl, hl', hstanding.sound, hturned.enters⟩
  · obtain ⟨l, hl, hstanding, -⟩ := after_standing value report s n
    refine after_inside value report s hl hstanding ?_
    cases l with
    | dividing => exact Nat.sub_le _ _
    | trying | ended => exact Nat.zero_le _
  · obtain ⟨l, hl, hstanding, hleft⟩ := after_standing value report s (65 * 2 ^ 32)
    rw [Nat.sub_self] at hleft
    rw [hl, hstanding.eq_ended (Nat.le_zero.mp hleft)]

end

end Boundary.Primes
