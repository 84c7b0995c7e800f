/-
  Boundary.Proofs.Primes.Calculation — how a calculation ends.

  A calculation makes its reports one after the other to the callback it found at its start,
  until one of them is answered with a wish to stop (`tellAll`). While it is told, the callback may
  make any calls: it may set another value, or another callback, or calculate anew, on the very
  object too. So four ends are possible, and the order in which they are looked for is fixed: the
  value is refused before the first report, a wish to stop ends the run at once, and a value that
  is another one after the last report keeps the result from being stored.

  Proved: which of the four it is, and that only a success writes to the object
  (`calculate_ends`).
-/
import Boundary.Proofs.Intact.Tables
import Boundary.Proofs.Primes.Reports
import Boundary.Proofs.Reached.Held

namespace Boundary.Primes

variable {σ ω : Type}

/-! ## Telling -/

def tellAll (tell : Progress → StateM σ Bool) : List Progress → StateM σ (List (Progress × Bool))
  | [] => return []
  | p :: rest => do
    if ← tell p then
      return [(p, true)]
    else
      return (p, false) :: (← tellAll tell rest)

def stopped (told : List (Progress × Bool)) : Bool := told.any (·.2)

/-- These are reports from `ps`, in order, up to the one that was answered with a wish to stop. -/
structure Told (ps : List Progress) (told : List (Progress × Bool)) : Prop where
  first : told.map Prod.fst <+: ps
  /-- After a wish to stop there is nothing. -/
  last : told.Pairwise fun r _ => r.2 = false
  all : stopped told = false → told.map Prod.fst = ps

namespace Told

variable {ps : List Progress} {p : Progress}

theorem nil : Told [] [] := ⟨List.prefix_refl [], .nil, fun _ => rfl⟩

theorem stop (p : Progress) (ps : List Progress) : Told (p :: ps) [(p, true)] where
  first := ⟨ps, rfl⟩
  last := List.pairwise_singleton _ _
  all h := by cases h

theorem cons {told : List (Progress × Bool)} (h : Told ps told) :
    Told (p :: ps) ((p, false) :: told) where
  first := List.cons_prefix_cons.mpr ⟨rfl, h.first⟩
  last := .cons (fun _ _ => rfl) h.last
  all hs := congrArg (p :: ·) (h.all hs)

end Told

section

variable {tell : Progress → StateM σ Bool} {p : Progress} {rest : List Progress} {s s' u : σ}
  {told : List (Progress × Bool)}

theorem tellAll_stop (h : tell p s = (true, s')) : tellAll tell (p :: rest) s = ([(p, true)], s') :=
  state_bind h

theorem tellAll_cons (h : tell p s = (false, s')) (hrest : tellAll tell rest s' = (told, u)) :
    tellAll tell (p :: rest) s = ((p, false) :: told, u) :=
  (state_bind h).trans (state_bind hrest)

theorem tellAll_told (tell : Progress → StateM σ Bool) (ps : List Progress) (s : σ) :
    Told ps (tellAll tell ps s).1 := by
  induction ps generalizing s with
  | nil => exact .nil
  | cons p rest ih =>
    cases ht : tell p s with
    | mk stop s' =>
      cases stop with
      | true =>
        rw [tellAll_stop ht]
        exact .stop p rest
      | false =>
        rw [tellAll_cons ht rfl]
        exact (ih s').cons

/-- What every answer keeps, all of them keep. -/
theorem tellAll_keeps {P : σ → Prop} (h : ∀ p, Ends P (tell p) fun _ => P) (ps : List Progress) :
    Ends P (tellAll tell ps) fun _ => P := by
  induction ps with
  | nil => exact .pure fun _ h => h
  | cons p rest ih =>
    refine .bind (h p) fun stop => ?_
    cases stop with
    | true => exact .pure fun _ h => h
    | false => exact .bind ih fun _ => .pure fun _ h => h

end

/-! ## Reports to a callback -/

def answer (out : Outside ω) (callback : Option Foreign) (p : Progress) : Act ω Bool :=
  match callback with
  | none => pure false
  | some f => out.progress f p

section

variable {out : Outside ω} {callback : Option Foreign} {s u : Process ω}

theorem report_run {p : Progress} {stop : Bool} (h : answer out callback p s = (stop, u)) :
    report out callback p s = (if stop then .error .aborted else .ok (), u) := by
  unfold answer at h
  unfold report
  cases callback with
  | none =>
    cases h
    rfl
  | some f =>
    refine (run_bind_ok (run_lift h)).trans ?_
    cases stop <;> rfl

/-- A wish to stop fails all reports. -/
theorem forM_report {ps : List Progress} {told : List (Progress × Bool)}
    (h : tellAll (answer out callback) ps s = (told, u)) :
    forM ps (report out callback) s = (if stopped told then .error .aborted else .ok (), u) := by
  induction ps generalizing s told with
  | nil =>
    cases h
    rfl
  | cons p rest ih =>
    rw [List.forM_cons]
    cases ht : answer out callback p s with
    | mk stop s' =>
      cases stop with
      | true =>
        rw [tellAll_stop ht] at h
        cases h
        exact run_bind_error (report_run ht)
      | false =>
        cases hr : tellAll (answer out callback) rest s' with
        | mk told' u' =>
          rw [tellAll_cons ht hr] at h
          cases h
          have hrest := ih hr
          exact (run_bind_ok (report_run ht)).trans hrest

/-- A computation that follows a script goes on as long as nobody asks to stop. -/
theorem Scripted.told {α : Type} {x : (σ : Type) → (Progress → Op σ Unit) → Op σ α}
    {ps : List Progress} {r : α} (hx : Scripted x ps r) {told : List (Progress × Bool)}
    (h : tellAll (answer out callback) ps s = (told, u)) :
    x _ (report out callback) s = (if stopped told then .error .aborted else .ok r, u) := by
  rw [hx]
  cases hstop : stopped told with
  | true => exact run_bind_error ((forM_report h).trans (by rw [hstop]; rfl))
  | false => exact run_bind_ok ((forM_report h).trans (by rw [hstop]; rfl))

/-- An answer does what the callback does. -/
theorem answer_ends {P : Process ω → Prop} (h : ∀ f p, Ends P (out.progress f p) fun _ => P)
    (callback : Option Foreign) (p : Progress) :
    Ends P (answer out callback p) fun _ => P := by
  cases callback with
  | none => exact .pure fun _ h => h
  | some f => exact h f p

end

/-! ## The end of a calculation -/

section

variable {out : Outside ω} {s u : Process ω} {x : Handle} {a : Slot Object}
  {told : List (Progress × Bool)} {now : Object}

/-- A live object is held as it is. -/
theorem hold_run (hx : x.isNull = false) (ha : s.primes.slots.get? x = some a) :
    part.hold x s = (.ok (a.serial, a.object), s) := by
  show (s.primes.hold x, s) = _
  rw [Table.hold, if_neg (by simp [hx]), ha]

theorem calculate_refused (hx : x.isNull = false) (ha : s.primes.slots.get? x = some a)
    (h : Refused a.object.kind a.object.value) : calculate out x s =
      ((Status.invalidParam, ()),
        (part.fail x (.boundTooLarge a.object.value sieveLimit) s).2) := by
  show _ = (((Fault.boundTooLarge a.object.value sieveLimit).code, ()), _)
  refine Part.guard_of_error ?_
  refine (run_bind_ok (hold_run hx ha)).trans (run_bind_error ?_)
  rw [outcome_eq]
  exact compute_refused h _ s

/-- Unless the value is refused, the answers decide, and then the value after the last report. -/
theorem calculate_run (hx : x.isNull = false) (ha : s.primes.slots.get? x = some a)
    (h : ¬ Refused a.object.kind a.object.value)
    (htell : tellAll (answer out a.object.callback) (reports a.object.kind a.object.value) s =
      (told, u))
    (hnow : u.primes.held? x a.serial = some now) :
    ∃ result, Complete a.object.kind a.object.value result ∧ calculate out x s =
      if stopped told = true then ((Status.aborted, ()), (part.fail x .aborted u).2)
      else if now.value ≠ a.object.value then ((Status.generic, ()),
        (part.fail x (.valueChanged a.object.value now.value) u).2)
      else ((Status.ok, ()),
        { u with primes := u.primes.updateHeld x a.serial (found result) }) := by
  obtain ⟨result, hresult, hscript⟩ := compute_scripted h
  have hrun : outcome out a.object s =
      (if stopped told then .error .aborted else .ok result, u) := by
    rw [outcome_eq]
    exact hscript.told htell
  have hhold := hold_run hx ha
  have hheld : part.held? x a.serial u = (.ok (some now), u) := congrArg (Except.ok ·, u) hnow
  refine ⟨result, hresult, ?_⟩
  cases hstop : stopped told with
  | true =>
    rw [hstop] at hrun
    show _ = ((Fault.aborted.code, ()), _)
    exact Part.guard_of_error ((run_bind_ok hhold).trans (run_bind_error hrun))
  | false =>
    rw [hstop] at hrun
    rw [if_neg (by decide)]
    split
    · next hv =>
      show _ = (((Fault.valueChanged a.object.value now.value).code, ()), _)
      refine Part.guard_of_error ?_
      refine (run_bind_ok hhold).trans ((run_bind_ok hrun).trans ((run_bind_ok hheld).trans ?_))
      dsimp only [Option.map_some, Option.getD_some]
      rw [if_pos hv]
      rfl
    · next hv =>
      refine Part.guard_of_ok ?_
      refine (run_bind_ok hhold).trans ((run_bind_ok hrun).trans ((run_bind_ok hheld).trans ?_))
      dsimp only [Option.map_some, Option.getD_some]
      rw [if_neg hv]
      rfl

/-- A calculation makes its reports to the callback it found at its start, and none after one
    that is answered with a wish to stop. It ends in the first way that applies:
    - a sieve of a value above 2 ^ 26 is refused, before any report;
    - it is aborted if an answer was to stop;
    - it fails if the value after the last report, `now`, is another one than at its start;
    - it stores the complete result for the value, and changes nothing else.

    Wherever it fails, all is as the reports left it. If these left the calculators alone, so does
    the calculation. -/
theorem calculate_ends (hout : ∀ f p v, Reaches v (out.progress f p v).2) (hx : x.isNull = false)
    (ha : s.primes.slots.get? x = some a) :
    ∃ told u now,
      tellAll (answer out a.object.callback) (reports a.object.kind a.object.value) s = (told, u) ∧
      Told (reports a.object.kind a.object.value) told ∧
      u.primes.held? x a.serial = some now ∧
      (∀ b, u.primes.slots.get? x = some b → b.serial = a.serial → now = b.object) ∧
      (calculate out x s).1.1 =
        (if a.object.kind = .sieve ∧ 2 ^ 26 < a.object.value.toNat then Status.invalidParam
        else if stopped told = true then Status.aborted
        else if now.value ≠ a.object.value then Status.generic
        else Status.ok) ∧
      (a.object.kind = .sieve ∧ 2 ^ 26 < a.object.value.toNat → told = [] ∧ u = s) ∧
      ((calculate out x s).1.1 = Status.ok →
        ∃ result, Complete a.object.kind a.object.value result ∧
          (calculate out x s).2 =
            { u with primes := u.primes.updateHeld x a.serial (found result) }) ∧
      ((calculate out x s).1.1 ≠ Status.ok →
        u.Intact (calculate out x s).2 ∧ (calculate out x s).2.outer = u.outer ∧
        ((∀ f p v, (out.progress f p v).2.primes = v.primes) →
          s.primes.Intact (calculate out x s).2.primes)) := by
  cases htell : tellAll (answer out a.object.callback) (reports a.object.kind a.object.value) s with
  | mk told u =>
  have htold : Told (reports a.object.kind a.object.value) told := by
    have h := tellAll_told (answer out a.object.callback) (reports a.object.kind a.object.value) s
    rwa [htell] at h
  have hkeeps {P : Process ω → Prop} (hP : ∀ f p, Ends P (out.progress f p) fun _ => P) (hs : P s) :
      P u := by
    have h := tellAll_keeps (answer_ends hP a.object.callback)
      (reports a.object.kind a.object.value) s hs
    rwa [htell] at h
  have hreach : Reaches s u :=
    hkeeps (P := Reaches s) (fun f p v hv => hv.trans (hout f p v)) (.refl s)
  obtain ⟨now, hnow⟩ := hreach.seen (Table.seen_of_slot ha)
  have hslot (b : Slot Object) (hb : u.primes.slots.get? x = some b) (hs : b.serial = a.serial) :
      now = b.object := by
    have hheld := Table.held_of_slot hb
    rw [hs, hnow] at hheld
    exact Option.some.inj hheld
  have hfailed (why : Fault) : u.Intact (part.fail x why u).2 ∧
      (part.fail x why u).2.outer = u.outer ∧
      ((∀ f p v, (out.progress f p v).2.primes = v.primes) →
        s.primes.Intact (part.fail x why u).2.primes) := by
    have hintact := primesSpot.fail x why u (.refl u)
    refine ⟨hintact, Part.fail_beside (π := Process.outer) (fun _ _ => rfl) x why u, fun hp => ?_⟩
    have hsame : u.primes = s.primes :=
      hkeeps (P := fun v => v.primes = s.primes) (fun f p v hv => (hp f p v).trans hv) rfl
    exact hsame ▸ hintact.primes
  have hlimit : Refused a.object.kind a.object.value ↔
      a.object.kind = .sieve ∧ 2 ^ 26 < a.object.value.toNat :=
    and_congr_right fun _ => UInt64.lt_iff_toNat_lt
  have hinvalid : Status.invalidParam ≠ Status.ok := by decide
  have haborted : Status.aborted ≠ Status.ok := by decide
  have hgeneric : Status.generic ≠ Status.ok := by decide
  refine ⟨told, u, now, rfl, htold, hnow, hslot, ?_⟩
  by_cases hrefused : Refused a.object.kind a.object.value
  · have hnone : told = [] ∧ u = s := by
      rw [reports_refused hrefused] at htell
      cases htell
      exact ⟨rfl, rfl⟩
    obtain ⟨rfl, rfl⟩ := hnone
    rw [calculate_refused hx ha hrefused, if_pos (hlimit.mp hrefused)]
    exact ⟨rfl, fun _ => ⟨rfl, rfl⟩, fun h => absurd h hinvalid, fun _ => hfailed _⟩
  · obtain ⟨result, hresult, hrun⟩ := calculate_run hx ha hrefused htell hnow
    rw [hrun, if_neg (hlimit.not.mp hrefused)]
    refine ⟨?_, fun h => absurd (hlimit.mpr h) hrefused, ?_⟩
    · split
      · rfl
      · split <;> rfl
    · split
      · exact ⟨fun h => absurd h haborted, fun _ => hfailed _⟩
      · split
        · exact ⟨fun h => absurd h hgeneric, fun _ => hfailed _⟩
        · exact ⟨fun _ => ⟨result, hresult, rfl⟩, fun h => absurd rfl h⟩

def leaving : Outside Unit :=
  { still with progress := fun _ p => do
    discard (perform still .none (.setProgressCallback ⟨1⟩ none))
    return decide (p ≠ .start) }

theorem leaving_reaches (f : Foreign) (p : Progress) (v : Process Unit) :
    Reaches v (leaving.progress f p v).2 :=
  .call still .none (.setProgressCallback ⟨1⟩ none) (.refl v) (fun _ _ v => .refl v)
    (fun _ _ v => .refl v) fun _ _ v => .refl v

def prepared : Process Unit :=
  let s : Process Unit := { outer := () }
  let s := (perform leaving .none (.createFactorization (some Handle.null)) s).2
  let s := (perform leaving .none (.setValue ⟨1⟩ 12) s).2
  let s := (perform leaving .none (.calculate ⟨1⟩) s).2
  (perform leaving .none (.setProgressCallback ⟨1⟩ (some .lookup)) s).2

/-- The callback is told on although it is gone, the run is aborted at its second report, and the
    earlier result is still there. -/
theorem calculate_leaving : ∃ u,
    tellAll (answer leaving (some .lookup)) (reports .factorization 12) prepared =
      ([(.start, false), (.divided 3 12, true)], u) ∧
    (calculate leaving ⟨1⟩ prepared).1.1 = Status.aborted ∧
    (calculate leaving ⟨1⟩ prepared).2.primes.get? ⟨1⟩ =
      some ⟨.factorization, 12, none, some (.factors [⟨2, 2⟩, ⟨3, 1⟩])⟩ := by
  have hprepared : prepared.primes.get? ⟨1⟩ =
      some ⟨.factorization, 12, some .lookup, some (.factors [⟨2, 2⟩, ⟨3, 1⟩])⟩ := by
    decide +kernel
  obtain ⟨a, ha, ho⟩ := Option.map_eq_some_iff.mp hprepared
  obtain ⟨told, u, now, htell, -, -, -, hstatus, -, -, hfailed⟩ :=
    calculate_ends leaving_reaches (by decide) ha
  rw [ho] at htell hstatus
  have hanswers : (tellAll (answer leaving (some .lookup)) (reports .factorization 12) prepared).1 =
      [(.start, false), (.divided 3 12, true)] := by decide +kernel
  have hobject :
      (tellAll (answer leaving (some .lookup)) (reports .factorization 12) prepared).2.primes.get?
        ⟨1⟩ = some ⟨.factorization, 12, none, some (.factors [⟨2, 2⟩, ⟨3, 1⟩])⟩ := by
    decide +kernel
  rw [htell] at hanswers hobject
  subst hanswers
  have haborted : Status.aborted ≠ Status.ok := by decide
  refine ⟨u, htell, hstatus, ?_⟩
  rw [← hobject]
  exact (hfailed (hstatus.trans_ne haborted)).1.primes.get? ⟨1⟩

end

end Boundary.Primes
