/-
  Boundary.Proofs.Calculator.Mapping — applications that succeed, in any session.

  The outputs of an application depend on each other: an entry that stands for the same variable
  as an earlier one is put through what came of that one. In its turn an entry is put through as
  often as its variable stands in the list up to there (`maps_iff`), so the outputs are known
  before the call is made.

  Proved, of every calculator in every state that a session comes to (`apply_maps`): an
  application succeeds exactly if all of these outputs are finite. Then each variable is put
  through as often as it is listed, and nothing else changes.
-/
import Boundary.Proofs.Calculator.Applying
import Boundary.Proofs.Ownership.Typed

namespace Boundary

variable {ω : Type}

namespace Calculator

variable {out : Outside ω} {s : Process ω} {t : Table Object} {g : Float → Float}
  {c v x : Handle} {vs : List Handle} {value : Float}

/-! ## Turns -/

theorem get_through (h : t.get v = .ok (.var value)) :
    (t.update v (through g)).get v = .ok (.var (g value)) := by
  refine Table.get_some (Table.isNull_of_get h) ?_
  rw [Table.object_update, if_pos rfl, Table.get_ok h]
  rfl

/-- In its turn an entry is put through as often as its variable stands in the list up to there.
    By induction on the list: the first entry has its turn, and the rest is left with one round
    less of that variable. -/
theorem maps_iff (g : Float → Float) (t : Table Object) (vs : List Handle) :
    Maps g t vs ↔ ∀ (k : Nat) (v : Handle), vs[k]? = some v → ∃ value,
      t.get v = .ok (.var value) ∧ (g^[(vs.take (k + 1)).count v] value).isFinite = true := by
  induction vs generalizing t with
  | nil => exact ⟨fun _ _ _ hv => absurd hv (by simp), fun _ => trivial⟩
  | cons w rest ih =>
    -- the turn of a later entry, before and after the first one had its own
    have hlater {start : Float} (hw : t.get w = .ok (.var start)) (k : Nat) (v : Handle) :
        (∃ value, (t.update w (through g)).get v = .ok (.var value) ∧
          (g^[(rest.take (k + 1)).count v] value).isFinite = true) ↔
        ∃ value, t.get v = .ok (.var value) ∧
          (g^[((w :: rest).take (k + 2)).count v] value).isFinite = true := by
      rw [List.take_succ_cons]
      by_cases e : w = v
      · subst e
        rw [get_through hw, hw, List.count_cons_self]
        simp only [Except.ok.injEq, Object.var.injEq, exists_eq_left', Function.iterate_succ_apply]
      · have hsame : (t.update w (through g)).get? v = t.get? v := by
          rw [Table.object_update, if_neg e]
        rw [Table.get_congr hsame, List.count_cons_of_ne e]
    have hfirst (value : Float) : g^[((w :: rest).take 1).count w] value = g value := by
      rw [List.take_succ_cons, List.count_cons_self]
      rfl
    constructor
    · rintro ⟨⟨value, hw, hfinite⟩, hrest⟩ k v hv
      cases k with
      | zero =>
        obtain rfl : w = v := Option.some.inj hv
        exact ⟨value, hw, (hfirst value).symm ▸ hfinite⟩
      | succ k => exact (hlater hw k v).mp ((ih _).mp hrest k v hv)
    · intro h
      obtain ⟨value, hw, hfinite⟩ := h 0 w rfl
      rw [hfirst] at hfinite
      exact ⟨⟨value, hw, hfinite⟩, (ih _).mpr fun k v hv => (hlater hw k v).mpr (h (k + 1) v hv)⟩

/-! ## Lists that are mapped -/

theorem maps_append (g : Float → Float) (t : Table Object) (done rest : List Handle) :
    Maps g t (done ++ rest) ↔ Maps g t done ∧ Maps g (mapped g t done) rest := by
  induction done generalizing t with
  | nil => exact (iff_of_eq (true_and _)).symm
  | cons v done ih => exact (and_congr_right fun _ => ih _).trans and_assoc.symm

/-- Values change, and counts do not. -/
theorem count?_mapped (g : Float → Float) (t : Table Object) (vs : List Handle) (x : Handle) :
    (mapped g t vs).count? x = t.count? x := by
  induction vs generalizing t with
  | nil => rfl
  | cons v rest ih => exact (ih _).trans (t.count?_update v (through g) x)

/-- Only variables are put through. -/
theorem through_calculator (g : Float → Float) (n : Nat) (ws : List Handle) :
    (through g)^[n] (.calculator ws) = .calculator ws :=
  Function.iterate_fixed rfl n

/-- The list is mapped, or an entry is no variable, or has an output that is not finite. -/
theorem apply_answers {ns name : String} {a : Address} (hg : out.Computes a g)
    (ha : s.registry.findHost ⟨ns, name⟩ = some a) (hc : s.calculator.get c = .ok (.calculator vs)) :
    (Maps g s.calculator vs ∧ ∃ w, apply out c (.text ns) (.text name) s =
        ((Status.ok, ()), { s with calculator := mapped g s.calculator vs, outer := w })) ∨
      ¬ Maps g s.calculator vs ∧ (apply out c (.text ns) (.text name) s).1.1 ≠ Status.ok := by
  have hcalled : apply out c (.text ns) (.text name) s = _ := apply_called ha
  have henlisted : enlistedIn c s = (.ok vs, s) := enlistedIn_run hc
  obtain ⟨done, rest, w, rfl, hmaps, ⟨rfl, hrun⟩ | ⟨v, more, why, rfl, hfails, hwhy, hrun⟩⟩ :=
    mapValues_run hg vs s
  · rw [List.append_nil] at hrun henlisted ⊢
    exact .inl ⟨hmaps, w, hcalled.trans (Part.guard_of_ok ((run_bind_ok henlisted).trans hrun))⟩
  · refine .inr ⟨fun hall => hfails ?_, ?_⟩
    · have hturn := ((maps_append g s.calculator done (v :: more)).mp hall).2
      exact ⟨hturn.1, trivial⟩
    · rw [hcalled, Part.guard_of_error ((run_bind_ok henlisted).trans hrun)]
      exact hwhy

/-- Every variable is put through as often as it is listed. Lists, reference counts and what else
    there is stay what they were. -/
structure Applied (g : Float → Float) (vs : List Handle) (s u : Process ω) : Prop where
  value : ∀ x value, s.calculator.get? x = some (.var value) →
    u.calculator.get? x = some (.var (g^[vs.count x] value))
  other : ∀ x, (∀ value, s.calculator.get? x ≠ some (.var value)) →
    u.calculator.get? x = s.calculator.get? x
  count : ∀ c x, u.count? c x = s.count? c x
  zoo : u.zoo = s.zoo
  primes : u.primes = s.primes
  registry : u.registry = s.registry
  injected : u.injected = s.injected
  shared : u.shared = s.shared

theorem applied_mapped (g : Float → Float) (vs : List Handle) (s : Process ω) (w : ω) :
    Applied g vs s { s with calculator := mapped g s.calculator vs, outer := w } where
  value x value hx := by
    show (mapped g s.calculator vs).get? x = _
    rw [object_mapped, hx, Option.map_some, through_iterate]
  other x hx := by
    show (mapped g s.calculator vs).get? x = _
    rw [object_mapped]
    cases ho : s.calculator.get? x with
    | none => rfl
    | some o =>
      cases o with
      | var value => exact absurd ho (hx value)
      | calculator ws => rw [Option.map_some, through_calculator]
  count c x := by
    cases c with
    | calculator => exact count?_mapped g s.calculator vs x
    | _ => rfl
  zoo := rfl
  primes := rfl
  registry := rfl
  injected := rfl
  shared := rfl

end Calculator

/-! ## Sessions -/

namespace Session

open Calculator (Applied Maps maps_iff apply_answers applied_mapped)

variable {out : Outside World} {s : Process World} {a : Address} {g : Float → Float} {c : Handle}
  {vs : List Handle} {ns name : String}

/-- In every session, every entry of a calculator is a variable. An application succeeds exactly
    if all outputs are finite, where an entry is put through as often as its variable is listed up
    to there. Then every variable has been put through as often as it is listed in all, and
    nothing else changed. -/
theorem apply_maps (q : Harmless out) (r : Run out { outer := {} } s)
    (hb : s.shared.issued < handleLimit) (hc : s.calculator.get? c = some (.calculator vs))
    (ha : s.registry.findHost ⟨ns, name⟩ = some a) (hg : out.Computes a g) :
    (∀ v ∈ vs, ∃ value, s.calculator.get? v = some (.var value)) ∧
    ((native out (.apply c (.text ns) (.text name)) s).1.1 = Status.ok ↔
      ∀ (k : Nat) (v : Handle), vs[k]? = some v →
        ∀ value, s.calculator.get? v = some (.var value) →
          (g^[(vs.take (k + 1)).count v] value).isFinite = true) ∧
    ((native out (.apply c (.text ns) (.text name)) s).1.1 = Status.ok →
      Applied g vs s (native out (.apply c (.text ns) (.text name)) s).2) := by
  have sound := (r.ready q ready_start).sound hb
  have hvariables : ∀ v ∈ vs, ∃ value, s.calculator.get? v = some (.var value) :=
    (r.typed q hb).enlisted c vs hc
  have hfinite : Maps g s.calculator vs ↔ ∀ (k : Nat) (v : Handle), vs[k]? = some v →
      ∀ value, s.calculator.get? v = some (.var value) →
        (g^[(vs.take (k + 1)).count v] value).isFinite = true := by
    rw [maps_iff]
    refine forall₃_congr fun k v hv => ?_
    obtain ⟨value, ho⟩ := hvariables v (List.mem_of_getElem? hv)
    simp [ho, sound.calculator.get ho]
  have hanswer := apply_answers hg ha (sound.calculator.get hc)
  refine ⟨hvariables, ?_⟩
  rw [← hfinite]
  rcases hanswer with ⟨hmaps, w, hrun⟩ | ⟨hfails, hstatus⟩
  · have hrun : native out (.apply c (.text ns) (.text name)) s = _ := hrun
    rw [hrun]
    exact ⟨iff_of_true rfl hmaps, fun _ => applied_mapped g vs s w⟩
  · exact ⟨iff_of_false hstatus hfails, fun hok => absurd hok hstatus⟩

/-- The functions of a session compute, but for the one that its hook stands behind. -/
theorem outside_computes (n : Nat) {f : HostFunction} (hf : f ≠ .hook) :
    (outside (n + 1)).Computes (.function f) f.value := by
  intro input s
  refine ⟨s.outer, ?_⟩
  show applyFunction (outside n) f input s = (f.value input, s)
  cases f with
  | hook => exact absurd rfl hf
  | _ => rfl

def doubling : List Step :=
  [.load .calculator "sums" {} .component, .register "sums" ⟨"math", "halve"⟩ (some .halve),
   .createVariable "sums" 3 "x", .createVariable "sums" 5 "y", .createCalculator "sums" "twice",
   .enlist "twice" "x", .enlist "twice" "y", .enlist "twice" "x", .createCalculator "sums" "once",
   .enlist "once" "y"]

def doubled : Process World :=
  doubling.foldl (fun s st => (st.run (outside depth) s).2) { outer := {} }

theorem doubled_evaluates :
    doubled.calculator.get? ⟨3⟩ = some (.calculator [⟨1⟩, ⟨2⟩, ⟨1⟩]) ∧
      doubled.calculator.get? ⟨1⟩ = some (.var 3) ∧
      doubled.registry.findHost ⟨"math", "halve"⟩ = some (.function .halve) ∧
      HostFunction.halve.value^[2] 3 = 0.75 ∧
      (native (outside depth) (.apply ⟨3⟩ (.text "math") (.text "halve")) doubled).1.1 =
        Status.ok ∧
      decide (doubled.shared.issued < handleLimit) = true := by
  decide +kernel

theorem doubled_run : Run (outside depth) { outer := {} } doubled :=
  Run.refl.steps (by simp [doubling, Step.Safe])

/-- The variable that is enlisted twice is halved twice. -/
theorem apply_doubled :
    (native (outside depth) (.apply ⟨3⟩ (.text "math") (.text "halve")) doubled).1.1 =
        Status.ok ∧
      (native (outside depth) (.apply ⟨3⟩ (.text "math") (.text "halve")) doubled).2.calculator.get?
        ⟨1⟩ = some (.var 0.75) ∧
      Applied HostFunction.halve.value [⟨1⟩, ⟨2⟩, ⟨1⟩] doubled
        (native (outside depth) (.apply ⟨3⟩ (.text "math") (.text "halve")) doubled).2 := by
  obtain ⟨hc, hx, ha, hvalue, hok, hb⟩ := doubled_evaluates
  obtain ⟨-, -, happlied⟩ := apply_maps (outside_harmless depth) doubled_run
    (of_decide_eq_true hb) hc ha (outside_computes 4294967295 (by decide))
  have hvar := (happlied hok).value ⟨1⟩ 3 hx
  rw [show List.count (⟨1⟩ : Handle) [⟨1⟩, ⟨2⟩, ⟨1⟩] = 2 from rfl, hvalue] at hvar
  exact ⟨hok, hvar, happlied hok⟩

end Session

end Boundary
