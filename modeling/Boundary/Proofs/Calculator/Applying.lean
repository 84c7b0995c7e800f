/-
  Boundary.Proofs.Calculator.Applying — what applying a callable does to the variables.

  The entries of a calculator's list are put through the callable one after the other, and each
  output is stored before the next input is read. So a variable that is listed several times is
  put through that often. Where an output is not finite, or an entry is no variable, the call
  ends, and what was stored before stays stored.

  Proved: for a callable that computes a function and does nothing else, every variable ends up
  with the function iterated as often as it is listed in front of the entry that failed, or in the
  whole list if none did (`apply_iterates`).
-/
import Boundary.Proofs.Calculator.Finite
import Boundary.Proofs.Intact.Tables

namespace Boundary

variable {ω : Type}

/-- The callable computes `g`, and does nothing to the components. -/
def Outside.Computes (out : Outside ω) (a : Address) (g : Float → Float) : Prop :=
  ∀ input s, ∃ w, out.apply a input s = (g input, { s with outer := w })

namespace Calculator

variable {out : Outside ω} {s : Process ω} {t : Table Object} {g : Float → Float}
  {c v x : Handle} {vs : List Handle}

/-! ## Lists put through a function -/

def through (g : Float → Float) : Object → Object
  | .var value => .var (g value)
  | o => o

theorem through_iterate (g : Float → Float) (n : Nat) (value : Float) :
    (through g)^[n] (.var value) = .var (g^[n] value) := by
  induction n generalizing value with
  | zero => rfl
  | succ n ih => exact ih (g value)

def mapped (g : Float → Float) (t : Table Object) (vs : List Handle) : Table Object :=
  vs.foldl (fun t v => t.update v (through g)) t

/-- Each of them counts as often as it is listed. -/
theorem object_mapped (g : Float → Float) (t : Table Object) (vs : List Handle) (x : Handle) :
    (mapped g t vs).get? x = (t.get? x).map (through g)^[vs.count x] := by
  induction vs generalizing t with
  | nil => exact Option.map_id.symm ▸ rfl
  | cons v rest ih =>
    refine (ih (t.update v (through g))).trans ?_
    rw [Table.object_update]
    by_cases e : v = x
    · subst e
      rw [if_pos rfl, List.count_cons_self, Option.map_map]
      rfl
    · rw [if_neg e, List.count_cons_of_ne e]

/-- Each entry is a variable, and what comes of it in its turn is finite. -/
def Maps (g : Float → Float) : Table Object → List Handle → Prop
  | _, [] => True
  | t, v :: rest => (∃ value, t.get v = .ok (.var value) ∧ (g value).isFinite = true) ∧
    Maps g (t.update v (through g)) rest

/-! ## The run over a list -/

/-- What is no variable has no value. -/
theorem valueOf_fails (h : ∀ value, s.calculator.get v ≠ .ok (.var value)) :
    ∃ why, why.code ≠ Status.ok ∧ valueOf v s = (.error why, s) := by
  cases hv : s.calculator.get v with
  | error why => exact ⟨why, Table.get_code hv, run_bind_error (congrArg (·, s) hv)⟩
  | ok o =>
    cases o with
    | var value => exact absurd hv (h value)
    | calculator ws =>
      exact ⟨.notVariable, by decide, run_bind_ok (Part.get_run (p := part) hv)⟩

section

variable {f : Float → Act ω Float}
  (hf : ∀ input s, ∃ w, f input s = (g input, { s with outer := w }))
include hf

/-- Induction on the list: an entry is put through and stored, or it ends the run. -/
theorem mapValues_run (vs : List Handle) (s : Process ω) : ∃ (done rest : List Handle) (w : ω),
    vs = done ++ rest ∧ Maps g s.calculator done ∧
      (rest = [] ∧ mapValues f vs s =
          (.ok (), { s with calculator := mapped g s.calculator done, outer := w }) ∨
        ∃ v more why, rest = v :: more ∧ ¬ Maps g (mapped g s.calculator done) [v] ∧
          why.code ≠ Status.ok ∧ mapValues f vs s =
            (.error why, { s with calculator := mapped g s.calculator done, outer := w })) := by
  induction vs generalizing s with
  | nil => exact ⟨[], [], s.outer, rfl, trivial, .inl ⟨rfl, rfl⟩⟩
  | cons v rest ih =>
    by_cases hvar : ∃ value, s.calculator.get v = .ok (.var value)
    · obtain ⟨value, hv⟩ := hvar
      obtain ⟨w, hw⟩ := hf value s
      have hread : valueOf v s = (.ok value, s) := valueOf_run hv
      by_cases hfinite : (g value).isFinite = true
      · have hstored : part.update v (store (g value)) { s with outer := w } =
            (.ok (), { s with calculator := s.calculator.update v (through g), outer := w }) := by
          have hsame :
              s.calculator.update v (store (g value)) = s.calculator.update v (through g) :=
            Table.update_congr (Table.get_ok hv) rfl
          exact congrArg (fun t => (Except.ok (), { s with calculator := t, outer := w })) hsame
        obtain ⟨done, left, w', rfl, hmaps, hrun⟩ :=
          ih { s with calculator := s.calculator.update v (through g), outer := w }
        have hstep : mapValues f (v :: (done ++ left)) s = mapValues f (done ++ left)
            { s with calculator := s.calculator.update v (through g), outer := w } := by
          refine (run_bind_ok hread).trans ((run_bind_ok (run_lift hw)).trans ?_)
          refine (run_bind_ok (run_lift_ok (if_pos hfinite) _)).trans ?_
          exact (run_bind_ok (valueOf_run (s := { s with outer := w }) hv)).trans
            (run_bind_ok hstored)
        refine ⟨v :: done, left, w', rfl, ⟨⟨value, hv, hfinite⟩, hmaps⟩, ?_⟩
        rw [hstep]
        exact hrun
      · have hfails : mapValues f (v :: rest) s =
            (.error (.notFinite (NonFinite.ofFloat (g value))), { s with outer := w }) := by
          refine (run_bind_ok hread).trans ((run_bind_ok (run_lift hw)).trans ?_)
          exact run_bind_error (run_lift_error (if_neg hfinite) _)
        have hmaps : ¬ Maps g s.calculator [v] := by
          rintro ⟨⟨value', hv', hfinite'⟩, -⟩
          cases hv.symm.trans hv'
          exact hfinite hfinite'
        have hcode : (Fault.notFinite (NonFinite.ofFloat (g value))).code ≠ Status.ok :=
          (by decide : Status.invalidParam ≠ Status.ok)
        exact ⟨[], v :: rest, w, rfl, trivial, .inr ⟨v, rest, _, rfl, hmaps, hcode, hfails⟩⟩
    · obtain ⟨why, hwhy, hrun⟩ := valueOf_fails (s := s) fun value hv => hvar ⟨value, hv⟩
      refine ⟨[], v :: rest, s.outer, rfl, trivial, .inr ⟨v, rest, why, rfl, ?_, hwhy, ?_⟩⟩
      · exact fun h => hvar (h.1.imp fun _ hv => hv.1)
      · exact run_bind_error hrun

end

/-! ## Applications -/

def callable? (s : Process ω) (ns name : TextArg) : Option Address :=
  match ns, name with
  | .text ns, .text name => s.registry.findHost ⟨ns, name⟩
  | _, _ => none

section

variable {ns name : TextArg}

/-- Where no callable is found nothing is done. -/
theorem apply_missing (out : Outside ω) (c : Handle) (h : callable? s ns name = none) :
    ∃ why : Fault, why.code ≠ Status.ok ∧
      apply out c ns name s = ((why.code, ()), (part.fail c why s).2) := by
  have hunread {why : Fault}
      (h : ns.read = .error why ∨ (∃ t, ns.read = .ok t) ∧ name.read = .error why) :
      apply out c ns name s = ((why.code, ()), (part.fail c why s).2) := by
    rw [apply_unread h]
    exact Part.guard_of_error rfl
  cases ns with
  | null => exact ⟨.nullText, by decide, hunread (.inl rfl)⟩
  | malformed => exact ⟨.textNotUtf8, by decide, hunread (.inl rfl)⟩
  | text ns =>
    cases name with
    | null => exact ⟨.nullText, by decide, hunread (.inr ⟨⟨ns, rfl⟩, rfl⟩)⟩
    | malformed => exact ⟨.textNotUtf8, by decide, hunread (.inr ⟨⟨ns, rfl⟩, rfl⟩)⟩
    | text name =>
      have hcode : (Fault.unregistered ns name).code ≠ Status.ok :=
        (by decide : Status.symbolNotFound ≠ Status.ok)
      refine ⟨.unregistered ns name, hcode, ?_⟩
      rw [apply_found out ⟨ns, name⟩, show s.registry.findHost ⟨ns, name⟩ = none from h]
      exact Part.guard_of_error rfl

theorem apply_called {a : Address} (h : callable? s ns name = some a) :
    apply out c ns name s = part.guard c () (do mapValues (out.apply a) (← enlistedIn c)) s := by
  cases ns with
  | null => cases h
  | malformed => cases h
  | text ns =>
    cases name with
    | null => cases h
    | malformed => cases h
    | text name =>
      rw [apply_found out ⟨ns, name⟩, show s.registry.findHost ⟨ns, name⟩ = some a from h]
      rfl

/-- What an application leaves is what the run over the list leaves, but for a last error. -/
theorem apply_run (hg : ∀ a, callable? s ns name = some a → out.Computes a g)
    (hn : c.isNull = false) (hc : s.calculator.get? c = some (.calculator vs)) :
    ∃ done rest, vs = done ++ rest ∧ Maps g s.calculator done ∧
      (mapped g s.calculator done).Intact (apply out c ns name s).2.calculator ∧
      (callable? s ns name = none ∧ (apply out c ns name s).1.1 ≠ Status.ok ∧ done = [] ∨
        (callable? s ns name).isSome = true ∧
          ((apply out c ns name s).1.1 = Status.ok ∧ rest = [] ∨
            (apply out c ns name s).1.1 ≠ Status.ok ∧ ∃ v more, rest = v :: more ∧
              ¬ Maps g (mapped g s.calculator done) [v])) := by
  cases ha : callable? s ns name with
  | none =>
    obtain ⟨why, hwhy, hrun⟩ := apply_missing out c ha
    rw [hrun]
    have hintact := calculatorSpot.fail c why s (.refl s)
    exact ⟨[], vs, rfl, trivial, hintact.calculator, .inl ⟨rfl, hwhy, rfl⟩⟩
  | some a =>
    have henlisted : enlistedIn c s = (.ok vs, s) := enlistedIn_run (Table.get_some hn hc)
    obtain ⟨done, rest, w, hvs, hmaps, hrun⟩ := mapValues_run (hg a ha) vs s
    refine ⟨done, rest, hvs, hmaps, ?_⟩
    rw [apply_called ha]
    rcases hrun with ⟨hrest, hrun⟩ | ⟨v, more, why, hrest, hfails, hwhy, hrun⟩
    · rw [Part.guard_of_ok ((run_bind_ok henlisted).trans hrun)]
      exact ⟨.refl _, .inr ⟨rfl, .inl ⟨rfl, hrest⟩⟩⟩
    · rw [Part.guard_of_error ((run_bind_ok henlisted).trans hrun)]
      have hintact := calculatorSpot.fail c why
        { s with calculator := mapped g s.calculator done, outer := w } (.refl _)
      exact ⟨hintact.calculator, .inr ⟨rfl, .inr ⟨hwhy, v, more, hrest, hfails⟩⟩⟩

/-- An application puts the variables listed in front, `done`, through the callable, each as often
    as it is listed there. If it succeeds these are all; it fails where no callable is found, and
    then there are none, or at the first entry that is no variable or has an output that is not
    finite. So it changes no variable exactly if no variable in front is changed by as many
    rounds. -/
theorem apply_iterates (hg : ∀ a, callable? s ns name = some a → out.Computes a g)
    (hn : c.isNull = false) (hc : s.calculator.get? c = some (.calculator vs)) :
    ∃ done rest, vs = done ++ rest ∧ Maps g s.calculator done ∧
      (callable? s ns name = none ∧ (apply out c ns name s).1.1 ≠ Status.ok ∧ done = [] ∨
        (callable? s ns name).isSome = true ∧
          ((apply out c ns name s).1.1 = Status.ok ∧ rest = [] ∨
            (apply out c ns name s).1.1 ≠ Status.ok ∧ ∃ v more, rest = v :: more ∧
              ¬ Maps g (mapped g s.calculator done) [v])) ∧
      (∀ x value, s.calculator.get? x = some (.var value) →
        (apply out c ns name s).2.calculator.get? x =
          some (.var (g^[done.count x] value))) ∧
      ((∀ x value, s.calculator.get? x = some (.var value) →
          (apply out c ns name s).2.calculator.get? x = some (.var value)) ↔
        ∀ v ∈ done, ∀ value, s.calculator.get? v = some (.var value) →
          g^[done.count v] value = value) := by
  obtain ⟨done, rest, hvs, hmaps, hintact, hstatus⟩ := apply_run hg hn hc
  have hvalue (x : Handle) (value : Float) (hx : s.calculator.get? x = some (.var value)) :
      (apply out c ns name s).2.calculator.get? x = some (.var (g^[done.count x] value)) := by
    rw [hintact.get? x, object_mapped, hx, Option.map_some, through_iterate]
  refine ⟨done, rest, hvs, hmaps, hstatus, hvalue, fun h v _ value hv => ?_,
    fun h x value hx => ?_⟩
  · have hsame := (hvalue v value hv).symm.trans (h v value hv)
    injection hsame with hsame
    injection hsame
  · rw [hvalue x value hx]
    by_cases hmem : x ∈ done
    · rw [h x hmem value hx]
    · rw [List.count_eq_zero_of_not_mem hmem]
      rfl

end

def reckoning : Outside Unit :=
  { idle with apply := fun a input => pure (match a with
    | .foreign (.function f) => f.value input
    | _ => input) }

theorem reckoning_calling : reckoning.Calling :=
  ⟨fun _ _ s => .refl s, fun _ _ s => .refl s, fun _ _ s => .refl s⟩

theorem reckoning_computes (f : HostFunction) : reckoning.Computes (.function f) f.value :=
  fun _ s => ⟨s.outer, rfl⟩

def lopsided : Process Unit :=
  reckoning.after { outer := () }
    [⟨_, .registerSymbol (.text "math") (.text "reciprocal") (some (.function .reciprocal))⟩,
     ⟨_, .createVariable 2 (some Handle.null)⟩,
     ⟨_, .createVariable 0 (some Handle.null)⟩,
     ⟨_, .createCalculator (some Handle.null)⟩,
     ⟨_, .enlistVariable ⟨3⟩ ⟨1⟩⟩,
     ⟨_, .enlistVariable ⟨3⟩ ⟨2⟩⟩]

theorem lopsided_evaluates :
    lopsided.calculator.get? ⟨3⟩ = some (.calculator [⟨1⟩, ⟨2⟩]) ∧
      lopsided.calculator.get? ⟨1⟩ = some (.var 2) ∧
      callable? lopsided (.text "math") (.text "reciprocal") = some (.function .reciprocal) ∧
      (apply reckoning ⟨3⟩ (.text "math") (.text "reciprocal") lopsided).1.1 =
        Status.invalidParam := by
  decide +kernel

/-- It is put through as often as it stands in front of the entry that failed. -/
theorem apply_lopsided : ∃ done v more, [⟨1⟩, ⟨2⟩] = done ++ v :: more ∧
    ¬ Maps HostFunction.reciprocal.value
      (mapped HostFunction.reciprocal.value lopsided.calculator done) [v] ∧
    (apply reckoning ⟨3⟩ (.text "math") (.text "reciprocal") lopsided).2.calculator.get? ⟨1⟩ =
      some (.var (HostFunction.reciprocal.value^[done.count ⟨1⟩] 2)) := by
  obtain ⟨hc, hvar, hcallable, hrefused⟩ := lopsided_evaluates
  obtain ⟨done, rest, hvs, -, hstatus, hvalue, -⟩ := apply_iterates
    (fun a ha => Option.some.inj (hcallable.symm.trans ha) ▸ reckoning_computes .reciprocal)
    (by decide) hc
  rcases hstatus with ⟨hnone, -⟩ | ⟨-, ⟨hok, -⟩ | ⟨-, v, more, rfl, hfails⟩⟩
  · cases hcallable.symm.trans hnone
  · exact absurd (hrefused.symm.trans hok) (by decide)
  · exact ⟨done, v, more, hvs, hfails, hvalue ⟨1⟩ 2 hvar⟩

/-- The application fails at the second variable, and the first one has its reciprocal. -/
theorem failed_apply_stores : Reaches { outer := () } lopsided ∧
    lopsided.calculator.get? ⟨3⟩ = some (.calculator [⟨1⟩, ⟨2⟩]) ∧
    lopsided.calculator.get? ⟨1⟩ = some (.var 2) ∧
    (apply reckoning ⟨3⟩ (.text "math") (.text "reciprocal") lopsided).1.1 ≠ Status.ok ∧
    (apply reckoning ⟨3⟩ (.text "math") (.text "reciprocal") lopsided).2.calculator.get? ⟨1⟩ =
      some (.var 0.5) := by
  refine ⟨reckoning_calling.after (.refl _) _, ?_⟩
  decide +kernel

end Calculator

end Boundary
