/-
  Boundary.Proofs.Calculator.Combining — sums and products, in any session.

  A calculator reads the values of its variables in the order of its list, one for each entry, and
  combines them from left to right. The order tells: a sum may overflow in one order and not in
  another. The outcome is kept in a new variable if it is finite, and refused if it is not.

  Proved, of every calculator in every state that a session comes to (`add_and_multiply_fold`): a
  sum or product is made exactly if the fold over the list is finite. Then the variable that holds
  it has a handle that was never issued, and it is all that is new; otherwise nothing is.
-/
import Boundary.Proofs.Calculator.Enlisting
import Boundary.Proofs.Ownership.Typed

namespace Boundary

open Exchange (Cell)

variable {ω : Type}

namespace Calculator

variable {s u : Process ω} {e : Ledger} {c h : Handle} {vs : List Handle} {xs : List Float}
  {op : Float → Float → Float} {initial value : Float} {cell : Cell Handle}

/-! ## Runs -/

section

variable (hc : s.calculator.get c = .ok (.calculator vs))
  (hvs : List.Forall₂ (fun v x => s.calculator.get v = .ok (.var x)) vs xs)
include hc hvs

/-- What is finite is kept in a new variable. -/
theorem combine_makes (old : Handle) (hfinite : (xs.foldl op initial).isFinite = true) :
    ∃ notes, combine c initial op (some old) s = ((Status.ok, some s.shared.nextHandle),
      (s.withVariable (xs.foldl op initial)).noted notes) := by
  obtain ⟨notes, hinsert⟩ := insert_run s (xs.foldl op initial)
  refine ⟨notes, Part.guard_of_ok ?_⟩
  refine (run_bind_ok (require_run old s)).trans ?_
  refine (run_bind_ok (enlistedIn_run hc)).trans ?_
  refine (run_bind_ok (foldValues_run hvs op initial)).trans ?_
  refine (run_bind_ok (run_lift_ok (if_pos hfinite) s)).trans ?_
  exact run_bind_ok hinsert

/-- Without a place for the answer, or without a finite one, the call is refused. -/
theorem combine_refuses (h : cell.isSome = true → (xs.foldl op initial).isFinite ≠ true) :
    ∃ why : Fault, why.code = Status.invalidParam ∧
      combine c initial op cell s = ((why.code, cell), (part.fail c why s).2) := by
  cases cell with
  | none => exact ⟨.nullOut, rfl, Part.guard_of_error (run_bind_error (run_lift_error rfl s))⟩
  | some old =>
    refine ⟨.notFinite (NonFinite.ofFloat (xs.foldl op initial)), rfl, Part.guard_of_error ?_⟩
    refine (run_bind_ok (require_run old s)).trans ?_
    refine (run_bind_ok (enlistedIn_run hc)).trans ?_
    refine (run_bind_ok (foldValues_run hvs op initial)).trans ?_
    exact run_bind_error (run_lift_error (if_neg (h rfl)) s)

end

/-! ## Outcomes -/

/-- There is a variable more than before, under a handle that was never issued, and nothing else
    is changed. -/
structure Made (value : Float) (h : Handle) (s u : Process ω) : Prop where
  next : h.raw.toNat = s.shared.issued + 1
  unissued : ∀ component, .created component h ∉ s.shared.journal
  unknown : ∀ c, s.count? c h = none
  value : u.calculator.get? h = some (.var value)
  count : u.calculator.count? h = some 1
  slot : ∀ x, x ≠ h → u.calculator.slots.get? x = s.calculator.slots.get? x
  zoo : u.zoo = s.zoo
  primes : u.primes = s.primes
  registry : u.registry = s.registry
  injected : u.injected = s.injected
  issued : u.shared.issued = s.shared.issued + 1

/-- The value is in a new variable, or it is not finite and nothing has come of the call. -/
structure Combines (value : Float) (cell : Cell Handle) (s : Process ω)
    (answer : (Status × Cell Handle) × Process ω) : Prop where
  ok_iff : answer.1.1 = Status.ok ↔ cell.isSome = true ∧ value.isFinite = true
  made : answer.1.1 = Status.ok → ∃ h, answer.1.2 = some h ∧ Made value h s answer.2
  refused : answer.1.1 ≠ Status.ok →
    answer.1.1 = Status.invalidParam ∧ answer.1.2 = cell ∧ s.Intact answer.2

theorem made_withVariable (sound : Sound e s) (hb : s.shared.issued < handleLimit) (value : Float)
    (notes : List Note) :
    Made value s.shared.nextHandle s ((s.withVariable value).noted notes) := by
  have hraw := Shared.nextHandle_raw hb
  have hlater : s.shared.issued < s.shared.nextHandle.raw.toNat := by omega
  have hslot := Process.slot_withVariable s value
  refine ⟨hraw, fun component hcreated => ?_, fun c => ?_, ?_, ?_, fun x hx => ?_,
    rfl, rfl, rfl, rfl, rfl⟩
  · have hnone (c : Component) : s.shared.journal.count (.created c.name s.shared.nextHandle) = 0 := by
      cases c with
      | zoo => exact sound.zoo.fresh _ hlater
      | calculator => exact sound.calculator.fresh _ hlater
      | primes => exact sound.primes.fresh _ hlater
    obtain ⟨c, rfl⟩ := sound.makers _ hcreated component rfl
    exact List.count_eq_zero.mp (hnone c) hcreated
  · cases c with
    | zoo => exact congrArg (Option.map Slot.count) (sound.zoo.unissued hlater)
    | calculator => exact congrArg (Option.map Slot.count) (sound.calculator.unissued hlater)
    | primes => exact congrArg (Option.map Slot.count) (sound.primes.unissued hlater)
  · exact congrArg (Option.map Slot.object) ((hslot _).trans (if_pos rfl))
  · exact congrArg (Option.map Slot.count) ((hslot _).trans (if_pos rfl))
  · exact (hslot x).trans (if_neg hx.symm)

theorem combine_combines (sound : Sound e s) (hb : s.shared.issued < handleLimit)
    (hc : s.calculator.get c = .ok (.calculator vs))
    (hvs : List.Forall₂ (fun v x => s.calculator.get v = .ok (.var x)) vs xs)
    (op : Float → Float → Float) (initial : Float) (cell : Cell Handle) :
    Combines (xs.foldl op initial) cell s (combine c initial op cell s) := by
  by_cases h : cell.isSome = true ∧ (xs.foldl op initial).isFinite = true
  · obtain ⟨old, rfl⟩ := Option.isSome_iff_exists.mp h.1
    obtain ⟨notes, hrun⟩ := combine_makes hc hvs old h.2
    rw [hrun]
    exact ⟨iff_of_true rfl h, fun _ => ⟨_, rfl, made_withVariable sound hb _ notes⟩,
      fun hfails => absurd rfl hfails⟩
  · obtain ⟨why, hwhy, hrun⟩ := combine_refuses hc hvs fun hcell hfinite => h ⟨hcell, hfinite⟩
    have hcode : why.code ≠ Status.ok := by
      rw [hwhy]
      decide
    rw [hrun]
    exact ⟨iff_of_false hcode h, fun hok => absurd hok hcode,
      fun _ => ⟨hwhy, rfl, calculatorSpot.fail c why s (.refl s)⟩⟩

end Calculator

/-! ## Sessions -/

namespace Session

open Calculator (Combines Made combine_combines exists_forall₂)

variable {out : Outside World} {s : Process World} {c : Handle} {vs : List Handle}

/-- In every session the entries of a calculator have values. Their sum and their product are
    folded in the order of the list, an entry counting as often as it is listed; what is finite is
    kept in a new variable, and what is not leaves everything as it was. -/
theorem add_and_multiply_fold (q : Harmless out) (r : Run out { outer := {} } s)
    (hb : s.shared.issued < handleLimit) (hc : s.calculator.get? c = some (.calculator vs)) :
    ∃ xs, List.Forall₂ (fun v x => s.calculator.get? v = some (.var x)) vs xs ∧
      ∀ cell,
        Combines (xs.foldl (· + ·) 0) cell s (native out (.add c cell) s) ∧
        Combines (xs.foldl (· * ·) 1) cell s (native out (.multiply c cell) s) := by
  have sound := (r.ready q ready_start).sound hb
  obtain ⟨xs, hxs⟩ := exists_forall₂ ((r.typed q hb).enlisted c vs hc)
  have hvs := hxs.imp fun v x => sound.calculator.get
  have hcalculator := sound.calculator.get hc
  exact ⟨xs, hxs, fun cell => ⟨combine_combines sound hb hcalculator hvs _ _ cell,
    combine_combines sound hb hcalculator hvs _ _ cell⟩⟩

def ordering : List Step :=
  [.load .calculator "sums" {} .component, .createVariable "sums" 1e308 "up",
   .createVariable "sums" (-1e308) "down", .createCalculator "sums" "climb",
   .enlist "climb" "up", .enlist "climb" "up", .enlist "climb" "down",
   .createCalculator "sums" "swing", .enlist "swing" "up", .enlist "swing" "down",
   .enlist "swing" "up"]

def ordered : Process World :=
  ordering.foldl (fun s st => (st.run (outside depth) s).2) { outer := {} }

theorem ordered_evaluates :
    ordered.calculator.get? ⟨3⟩ = some (.calculator [⟨1⟩, ⟨1⟩, ⟨2⟩]) ∧
      ordered.calculator.get? ⟨4⟩ = some (.calculator [⟨1⟩, ⟨2⟩, ⟨1⟩]) ∧
      (native (outside depth) (.add ⟨3⟩ (some Handle.null)) ordered).1.1 ≠ Status.ok ∧
      (native (outside depth) (.add ⟨4⟩ (some Handle.null)) ordered).1 =
        (Status.ok, some ⟨5⟩) ∧
      decide (ordered.shared.issued < handleLimit) = true := by
  decide +kernel

theorem ordered_run : Run (outside depth) { outer := {} } ordered :=
  Run.refl.steps (by simp [ordering, Step.Safe])

/-- In one order the sum overflows, and nothing is made; in the other it is a new variable. -/
theorem add_and_multiply_ordered :
    ordered.Intact (native (outside depth) (.add ⟨3⟩ (some Handle.null)) ordered).2 ∧
      ∃ sum : Float, Made sum ⟨5⟩ ordered
        (native (outside depth) (.add ⟨4⟩ (some Handle.null)) ordered).2 := by
  obtain ⟨hclimb, hswing, hrefused, hmade, hb⟩ := ordered_evaluates
  have q := outside_harmless depth
  obtain ⟨_, -, hclimbs⟩ := add_and_multiply_fold q ordered_run (of_decide_eq_true hb) hclimb
  obtain ⟨_, -, hswings⟩ := add_and_multiply_fold q ordered_run (of_decide_eq_true hb) hswing
  obtain ⟨h, hh, hnew⟩ := (hswings (some Handle.null)).1.made (congrArg Prod.fst hmade)
  obtain rfl : (⟨5⟩ : Handle) = h := Option.some.inj ((congrArg Prod.snd hmade).symm.trans hh)
  exact ⟨((hclimbs (some Handle.null)).1.refused hrefused).2.2, _, hnew⟩

end Session

end Boundary
