/-
  Boundary.Proofs.Calculator.Enlisting — the primes of a sieve, enlisted at once or one by one.

  A calculator that enlists the primes of a sieve makes all variables first and then puts them
  into its list, with the references they were made with. The host can do without that: it reads
  the primes, and for each it has a variable made, has it enlisted, for which the calculator
  takes one more reference, and gives its own reference back (`enlistEach`). New handles are new,
  so it does not matter whether the list gets longer in between (`withVariables_extended`).

  Proved: both leave the same process, but for notes, with one variable for each prime at the end
  of the list (`enlistPrimes_eq_enlistRead`).
-/
import Boundary.Proofs.Calculator.Reading
import Boundary.Proofs.Host.Casts
import Boundary.Proofs.Host.References

namespace Boundary

open Exchange (Host)
open Process (calculatorPart)

variable {ω : Type} {s : Process ω} {w : ω}
  {c x : Handle} {vs ws : List Handle} {value : Float} {p : UInt64} {ps : List UInt64}

/-! ## New handles -/

def Shared.nextHandles (s : Shared) (n : Nat) : List Handle :=
  (List.range' (s.issued + 1) n).map fun m => ⟨UInt64.ofNat m⟩

namespace Shared

variable {s : Shared} {n : Nat}

theorem nextHandles_succ (s : Shared) (n : Nat) :
    s.nextHandles (n + 1) = s.nextHandle :: { s with issued := s.issued + 1 }.nextHandles n := rfl

/-- They ascend. -/
theorem nextHandles_raw (hb : s.issued + n < handleLimit) :
    (s.nextHandles n).map (fun h => h.raw.toNat) = List.range' (s.issued + 1) n := by
  rw [nextHandles, List.map_map]
  refine (List.map_congr_left fun m hm => ?_).trans (List.map_id _)
  have hm := List.mem_range'_1.mp hm
  have hlimit : handleLimit = 18446744073709551615 := rfl
  exact UInt64.toNat_ofNat_of_lt' (show m < 18446744073709551616 by omega)

/-- They are larger than those that were issued. -/
theorem not_mem_nextHandles (hx : x.raw.toNat ≤ s.issued) (hb : s.issued + n < handleLimit) :
    x ∉ s.nextHandles n := by
  intro hmem
  have hraw := List.mem_map_of_mem (f := fun h : Handle => h.raw.toNat) hmem
  rw [nextHandles_raw hb, List.mem_range'_1] at hraw
  omega

end Shared

/-! ## Variables and lists -/

namespace Process

def withVariable (s : Process ω) (value : Float) : Process ω :=
  { s with
    shared := { s.shared with issued := s.shared.issued + 1 }
    calculator := s.calculator.insert s.shared.nextHandle (s.shared.issued + 1) (.var value) }

def withVariables (s : Process ω) (ps : List UInt64) : Process ω :=
  ps.foldl (fun s p => s.withVariable p.toFloat) s

def extended (s : Process ω) (c : Handle) (vs : List Handle) : Process ω :=
  { s with calculator := s.calculator.update c (Calculator.extend vs) }

def withCount (s : Process ω) (v : Handle) (n : UInt32) : Process ω :=
  { s with calculator := s.calculator.setCount v n }

theorem withVariables_noted (notes : List Note) (s : Process ω) (ps : List UInt64) :
    (s.noted notes).withVariables ps = (s.withVariables ps).noted notes := by
  induction ps generalizing s with
  | nil => rfl
  | cons p rest ih => exact ih (s.withVariable p.toFloat)

/-- Making variables makes nothing else. -/
theorem withVariables_same (s : Process ω) (ps : List UInt64) :
    s.withVariables ps = { s with
      shared := { s.shared with issued := s.shared.issued + ps.length }
      calculator := (s.withVariables ps).calculator } := by
  induction ps generalizing s with
  | nil => rfl
  | cons p rest ih =>
    refine (ih (s.withVariable p.toFloat)).trans ?_
    rw [List.length_cons, Nat.add_comm rest.length, ← Nat.add_assoc]
    rfl

/-! ### Slots -/

theorem slot_withVariable (s : Process ω) (value : Float) (x : Handle) :
    (s.withVariable value).calculator.slots.get? x =
      if s.shared.nextHandle = x then
        some { serial := s.shared.issued + 1, count := 1, object := .var value }
      else s.calculator.slots.get? x := by
  rw [withVariable, Table.slots_insert, Handle.Map.get?_insert]

theorem slot_withVariables (hx : x ∉ s.shared.nextHandles ps.length) :
    (s.withVariables ps).calculator.slots.get? x = s.calculator.slots.get? x := by
  induction ps generalizing s with
  | nil => rfl
  | cons p rest ih =>
    rw [List.length_cons, Shared.nextHandles_succ, List.mem_cons, not_or] at hx
    refine (ih (s := s.withVariable p.toFloat) hx.2).trans ?_
    rw [slot_withVariable, if_neg (Ne.symm hx.1)]

/-- Each variable has its number and one reference. -/
theorem slot_made (hb : s.shared.issued + ps.length < handleLimit) {j : Nat}
    (hx : (s.shared.nextHandles ps.length)[j]? = some x) (hp : ps[j]? = some p) :
    (s.withVariables ps).calculator.slots.get? x =
      some { serial := s.shared.issued + 1 + j, count := 1, object := .var p.toFloat } := by
  induction ps generalizing s j with
  | nil => cases hp
  | cons q rest ih =>
    have hb' : (s.withVariable q.toFloat).shared.issued + rest.length < handleLimit := by
      show s.shared.issued + 1 + rest.length < handleLimit
      rw [List.length_cons] at hb
      omega
    rw [List.length_cons, Shared.nextHandles_succ] at hx
    cases j with
    | zero =>
      obtain rfl := Option.some.inj hx
      obtain rfl := Option.some.inj hp
      have hraw := Shared.nextHandle_raw (s := s.shared) (by omega)
      refine (slot_withVariables (s := s.withVariable q.toFloat)
        (Shared.not_mem_nextHandles hraw.le hb')).trans ?_
      rw [slot_withVariable, if_pos rfl]
    | succ j =>
      refine (ih (s := s.withVariable q.toFloat) hb' hx hp).trans ?_
      show some (Slot.mk (s.shared.issued + 1 + 1 + j) _ _ _) = _
      rw [Nat.add_right_comm _ 1 j]
      rfl

theorem slot_extended (s : Process ω) (c : Handle) (vs : List Handle) (x : Handle) :
    (s.extended c vs).calculator.slots.get? x =
      if c = x then (s.calculator.slots.get? x).map fun a =>
        { a with object := Calculator.extend vs a.object }
      else s.calculator.slots.get? x :=
  Handle.Map.get?_modify _ _ _ _

/-! ### What the order is of no matter to -/

theorem extended_nil (hc : s.calculator.get? c = some (.calculator ws)) : s.extended c [] = s :=
  congrArg (fun table => { s with calculator := table })
    (Table.update_same hc (congrArg Calculator.Object.calculator (List.append_nil ws)))

theorem extended_extended (s : Process ω) (c : Handle) (vs ws : List Handle) :
    (s.extended c vs).extended c ws = s.extended c (vs ++ ws) := by
  have hextend : Calculator.extend ws ∘ Calculator.extend vs = Calculator.extend (vs ++ ws) := by
    funext o
    cases o with
    | var _ => rfl
    | calculator us => exact congrArg Calculator.Object.calculator (List.append_assoc us vs ws)
  refine congrArg (fun table => { s with calculator := table }) ?_
  exact (Table.update_update ..).trans (hextend ▸ rfl)

theorem withVariable_extended (hc : c ≠ s.shared.nextHandle) (vs : List Handle) (value : Float) :
    (s.extended c vs).withVariable value = (s.withVariable value).extended c vs :=
  congrArg (fun table => { s.withVariable value with calculator := table })
    (Table.insert_update _ hc.symm _ _ _)

/-- A reference to a new variable that is taken and given back is as if there never was one. -/
theorem withCount_back (hc : c ≠ s.shared.nextHandle) (value : Float) (n : UInt32) (vs : List Handle) :
    (((s.withVariable value).withCount s.shared.nextHandle n).extended c vs).withCount
      s.shared.nextHandle 1 = (s.withVariable value).extended c vs := by
  refine congrArg (fun table => { s.withVariable value with calculator := table }) ?_
  show ((((s.withVariable value).calculator.setCount _ n).update c _).setCount _ 1) = _
  rw [Table.update_setCount _ hc.symm, Table.setCount_setCount, ← Table.update_setCount _ hc.symm]
  exact congrArg (Table.update · c _) (Table.setCount_insert _ _ _ _)

/-- New variables and a longer list do not concern each other. -/
theorem withVariables_extended (hc : c ∉ s.shared.nextHandles ps.length) (vs : List Handle) :
    (s.extended c vs).withVariables ps = (s.withVariables ps).extended c vs := by
  induction ps generalizing s with
  | nil => rfl
  | cons p rest ih =>
    rw [List.length_cons, Shared.nextHandles_succ, List.mem_cons, not_or] at hc
    calc ((s.extended c vs).withVariable p.toFloat).withVariables rest
        = ((s.withVariable p.toFloat).extended c vs).withVariables rest := by
          rw [withVariable_extended hc.1]
      _ = ((s.withVariable p.toFloat).withVariables rest).extended c vs :=
          ih (s := s.withVariable p.toFloat) hc.2

end Process

/-! ## At once -/

namespace Calculator

theorem insert_run (s : Process ω) (value : Float) :
    ∃ notes, part.insert (.var value) s =
      (.ok s.shared.nextHandle, (s.withVariable value).noted notes) :=
  ⟨[.created s.calculator.component s.shared.nextHandle], rfl⟩

theorem insertAll_run (done : List Handle) (ps : List UInt64) (s : Process ω) :
    ∃ notes, insertAll done ps s = (.ok (done.reverse ++ s.shared.nextHandles ps.length),
      (s.withVariables ps).noted notes) := by
  induction ps generalizing done s with
  | nil => exact ⟨[], congrArg (fun vs => (Except.ok vs, s)) (List.append_nil _).symm⟩
  | cons p rest ih =>
    obtain ⟨before, hinsert⟩ := insert_run s p.toFloat
    obtain ⟨notes, hrest⟩ := ih (s.shared.nextHandle :: done) ((s.withVariable p.toFloat).noted before)
    refine ⟨notes ++ before, (run_bind_ok hinsert).trans (hrest.trans ?_)⟩
    rw [Process.withVariables_noted, Process.noted_noted, List.reverse_cons, List.append_assoc]
    rfl

theorem enlistAll_run (hc : s.calculator.get c = .ok (.calculator ws)) (vs : List Handle) :
    enlistAll c vs s = (.ok (), s.extended c vs) := by
  rw [enlistAll, run_bind_ok (Op.outcome_run (enlistedIn_run hc))]
  rfl

theorem enlistPrimes_run (out : Outside ω) (via : Invoker (Process ω)) {lookup : Address}
    (reads : s.ReadsPrimes lookup)
    (hf : s.registry.get? Export.primes.symbol = some (Registry.exported .primes))
    (hc : s.calculator.get c = .ok (.calculator ws)) (hnew : c ∉ s.shared.nextHandles ps.length)
    {o : Primes.Object} (hx : s.primes.get x = .ok o) (ho : o.Holds ps) (hps : Primes.Listing ps) :
    ∃ notes, enlistPrimes (out.reach via) c x s = ((Status.ok, ()),
      ((s.withVariables ps).extended c (s.shared.nextHandles ps.length)).noted notes) := by
  obtain ⟨notes, hinsert⟩ := insertAll_run [] ps s
  have hafter : ((s.withVariables ps).noted notes).calculator.get c = .ok (.calculator ws) :=
    (Table.get_congr (congrArg (Option.map Slot.object) (Process.slot_withVariables hnew))).trans hc
  refine ⟨notes, Part.guard_of_ok ?_⟩
  refine (run_bind_ok (enlistedIn_run hc)).trans ?_
  refine (run_bind_ok (show _ = (Except.ok s, s) from rfl)).trans ?_
  rw [reads.injected]
  refine (run_bind_ok (readPrimes_run reads.native hf hx ho hps)).trans ?_
  exact (run_bind_ok hinsert).trans (enlistAll_run hafter _)

end Calculator

/-! ## One by one -/

namespace Host.Calculator

open Boundary.Calculator (valueOf_run enlistAll_run insert_run)

/-- Has a variable made for each number and enlisted, and gives its own reference back. -/
def enlistEach {σ : Type} [Journal σ] (via : Invoker σ) (calculator : Instance) :
    List UInt64 → Host σ Unit
  | [] => pure ()
  | p :: rest => do
    let v ← createVariable via calculator.library p.toFloat
    enlistVariable via calculator v
    v.drop via
    enlistEach via calculator rest

def enlistRead {σ : Type} [Journal σ] (via : Invoker σ) (calculator sieve : Instance) :
    Host σ Unit := do
  enlistEach via calculator (← Primes.primes via sieve)

variable (out : Outside ω) {l : Library} {i v : Instance} {a : Slot Boundary.Calculator.Object}

theorem createVariable_run (hl : l.Home) (hcomponent : l.component = .calculator)
    (hnew : s.shared.nextHandle.isNull = false) (hvalue : value.isFinite = true) :
    ∃ notes, createVariable out.invoker l value s =
      (.ok ⟨l, s.shared.nextHandle⟩, (s.withVariable value).noted notes) := by
  obtain ⟨notes, hinsert⟩ := insert_run s value
  refine ⟨notes, ?_⟩
  have hrun : perform out (out.reach .none) (.createVariable value (some Handle.null)) s =
      ((Status.ok, some s.shared.nextHandle), (s.withVariable value).noted notes) := by
    refine Part.guard_of_ok ?_
    refine (run_bind_ok (run_lift_ok rfl s)).trans ?_
    exact (run_bind_ok (run_lift_ok (if_pos hvalue) s)).trans ((run_bind_ok hinsert).trans rfl)
  have hask : l.ask out.invoker (.createVariable value (some Handle.null)) s =
      (.ok (some s.shared.nextHandle), (s.withVariable value).noted notes) :=
    Instance.ask_run (i := ⟨l, Handle.null⟩) hl hrun
  have hclass : ((s.withVariable value).noted notes).className? l.component s.shared.nextHandle =
      some "Calculator::Variable" := by
    rw [hcomponent]
    have hslot := Process.slot_withVariable s value s.shared.nextHandle
    rw [if_pos rfl] at hslot
    exact congrArg (fun r => (r.map Slot.object).map Boundary.Calculator.Object.className) hslot
  have hresolve : resolve out.invoker l .calculatorVariable (.bare s.shared.nextHandle)
      ((s.withVariable value).noted notes) = (.ok ⟨l, _⟩, _) :=
    resolve_known hl hnew hclass (hcomponent ▸ Boundary.Calculator.ofTag?_variable)
      (fun _ h => by cases h) rfl
  exact (run_bind_ok hask).trans hresolve

/-- The calculator takes a reference. -/
theorem enlistVariable_run (hi : i.Home) (hnull : i.isNull = false) (hvnull : v.isNull = false)
    (hc : s.calculator.get i.handle = .ok (.calculator ws))
    (hv : s.calculator.slots.get? v.handle = some a) (hvalue : a.object = .var value)
    (hroom : a.count ≠ 4294967295) :
    enlistVariable out.invoker i v s =
      (.ok (), (s.withCount v.handle (a.count + 1)).extended i.handle [v.handle]) := by
  have hget : s.calculator.get v.handle = .ok (.var value) := by
    refine Table.get_some hvnull ?_
    rw [Table.get?, hv, Option.map_some, hvalue]
  have hacquire : s.calculator.acquire v.handle =
      .ok (s.calculator.setCount v.handle (a.count + 1)) := by
    rw [Table.acquire, hv]
    exact if_neg hroom
  have hrun : perform out (out.reach .none) (.enlistVariable i.handle v.handle) s =
      ((Status.ok, ()), (s.withCount v.handle (a.count + 1)).extended i.handle [v.handle]) := by
    refine Part.guard_of_ok ((run_bind_ok (valueOf_run hget)).trans ?_)
    refine (run_bind_ok (Part.acquire_ok (p := calculatorPart) hacquire)).trans ?_
    exact enlistAll_run ((Table.get_congr (Table.object_setCount _ _ _ _)).trans hc) [v.handle]
  refine (Instance.checked_run hnull s).trans ((Instance.checked_run hvnull s).trans ?_)
  exact Instance.ask_run hi hrun

/-- A reference that is not the last one is given back. -/
theorem drop_run (hv : v.Home) (hcomponent : v.library.component = .calculator)
    (hnull : v.isNull = false) (hslot : s.calculator.slots.get? v.handle = some a)
    (hmore : ¬ a.count ≤ 1) {n : UInt32} (hn : a.count - 1 = n) :
    ∃ notes, v.drop out.invoker s = ((), (s.withCount v.handle n).noted notes) := by
  have hcount : s.count? v.library.component v.handle = some a.count := by
    rw [hcomponent]
    exact congrArg (Option.map Slot.count) hslot
  obtain ⟨notes, hdrop⟩ := Instance.drop_run out hv hnull (Option.isSome_of_eq_some hcount)
  refine ⟨notes, hdrop.trans ?_⟩
  rw [Process.without_kept hnull hcount hmore, hn, hcomponent]
  rfl

/-- What each round comes to: the references that were taken and given back in it cancel out. -/
theorem enlistEach_step (hi : i.Home) (hcomponent : i.library.component = .calculator)
    (hnull : i.isNull = false) (hc : s.calculator.get i.handle = .ok (.calculator ws))
    (hnext : s.shared.nextHandle.isNull = false) (hne : i.handle ≠ s.shared.nextHandle)
    (p : UInt64) (rest : List UInt64) :
    ∃ notes, enlistEach out.invoker i (p :: rest) s = enlistEach out.invoker i rest
      (((s.withVariable p.toFloat).extended i.handle [s.shared.nextHandle]).noted notes) := by
  let v : Instance := ⟨i.library, s.shared.nextHandle⟩
  let a : Slot Boundary.Calculator.Object :=
    { serial := s.shared.issued + 1, count := 1, object := .var p.toFloat }
  have hslot : (s.withVariable p.toFloat).calculator.slots.get? v.handle = some a := by
    rw [Process.slot_withVariable, if_pos rfl]
  have hcalculator : (s.withVariable p.toFloat).calculator.get i.handle = .ok (.calculator ws) :=
    (Table.get_congr (Table.get?_insert_ne _ hne.symm _ _)).trans hc
  have hshared : (((s.withVariable p.toFloat).withCount v.handle 2).extended i.handle
      [v.handle]).calculator.slots.get? v.handle = some { a with count := 2 } := by
    rw [Process.slot_extended, if_neg hne]
    show ((s.withVariable p.toFloat).calculator.setCount v.handle 2).slots.get? v.handle = _
    rw [Table.get?_setCount, if_pos rfl, hslot]
    rfl
  obtain ⟨made, hcreate⟩ := createVariable_run out (s := s) hi hcomponent hnext
    (Boundary.Calculator.isFinite_toFloat p)
  have henlist := enlistVariable_run out (s := (s.withVariable p.toFloat).noted made) (v := v)
    hi hnull hnext hcalculator hslot rfl (show (1 : UInt32) ≠ 4294967295 by decide)
  obtain ⟨dropped, hdrop⟩ := drop_run out (v := v)
    (s := (((s.withVariable p.toFloat).withCount v.handle 2).extended i.handle [v.handle]).noted made)
    hi hcomponent hnext hshared (show ¬ (2 : UInt32) ≤ 1 by decide) (n := 1)
    (show (2 : UInt32) - 1 = 1 by decide)
  refine ⟨dropped ++ made, (run_bind_ok hcreate).trans ((run_bind_ok henlist).trans
    ((run_bind_ok (run_lift hdrop)).trans (congrArg (enlistEach out.invoker i rest) ?_)))⟩
  rw [← Process.noted_noted, ← Process.withCount_back hne _ 2]
  rfl

/-- Induction on the numbers that are left: what is made for one is as new to the calculator as what
    is made for the next. -/
theorem enlistEach_run (hi : i.Home) (hcomponent : i.library.component = .calculator)
    (hnull : i.isNull = false) (hc : s.calculator.get i.handle = .ok (.calculator ws))
    (hnew : i.handle ∉ s.shared.nextHandles ps.length)
    (hb : s.shared.issued + ps.length < handleLimit) :
    ∃ notes, enlistEach out.invoker i ps s = (.ok (),
      ((s.withVariables ps).extended i.handle (s.shared.nextHandles ps.length)).noted notes) := by
  induction ps generalizing s ws with
  | nil =>
    exact ⟨[], congrArg (fun u => (Except.ok (), u)) (Process.extended_nil (Table.get_ok hc)).symm⟩
  | cons p rest ih =>
    rw [List.length_cons] at hb hnew ⊢
    rw [Shared.nextHandles_succ, List.mem_cons, not_or] at hnew
    obtain ⟨before, hstep⟩ := enlistEach_step out hi hcomponent hnull hc
      (Shared.nextHandle_isNull (by omega)) hnew.1 p rest
    let next := (s.withVariable p.toFloat).extended i.handle [s.shared.nextHandle]
    have hafter : next.calculator.get i.handle = .ok (.calculator (ws ++ [s.shared.nextHandle])) := by
      refine Table.get_some hnull ((Table.object_update _ _ _ _).trans ?_)
      rw [if_pos rfl]
      show ((s.calculator.insert _ _ _).get? i.handle).map _ = _
      rw [Table.get?_insert_ne _ (Ne.symm hnew.1), Table.get_ok hc]
      rfl
    have hleft : next.shared.issued + rest.length < handleLimit := by
      show s.shared.issued + 1 + rest.length < handleLimit
      omega
    have hall : (next.withVariables rest).extended i.handle (next.shared.nextHandles rest.length) =
        (s.withVariables (p :: rest)).extended i.handle (s.shared.nextHandles (rest.length + 1)) :=
      calc (next.withVariables rest).extended i.handle (next.shared.nextHandles rest.length)
          = (((s.withVariable p.toFloat).withVariables rest).extended i.handle
              [s.shared.nextHandle]).extended i.handle (next.shared.nextHandles rest.length) := by
            rw [Process.withVariables_extended (s := s.withVariable p.toFloat) hnew.2]
        _ = _ := Process.extended_extended ..
    obtain ⟨notes, hrest⟩ := ih (s := next.noted before) hafter hnew.2 hleft
    refine ⟨notes ++ before, hstep.trans (hrest.trans ?_)⟩
    rw [Process.withVariables_noted, ← Process.noted_noted, ← hall]
    rfl

end Host.Calculator

/-! ## Either way -/

/-- In `u` there is one more variable for each number, with the handles `hs`, at the end of the
    list of `c`; nothing else is other than in `s`. -/
structure Process.Enlisted (s : Process ω) (c : Handle) (ps : List UInt64) (hs : List Handle)
    (u : Process ω) : Prop where
  /-- There are other variables and lists, and more handles were issued. -/
  same : u = { s with
    shared := { s.shared with issued := s.shared.issued + ps.length }, calculator := u.calculator }
  ascending : hs.map (fun h => h.raw.toNat) = List.range' (s.shared.issued + 1) ps.length
  fresh : ∀ h ∈ hs, s.calculator.slots.get? h = none
  made : ∀ j h p, hs[j]? = some h → ps[j]? = some p → u.calculator.slots.get? h =
    some { serial := s.shared.issued + 1 + j, count := 1, object := .var p.toFloat }
  list : ∀ a vs, s.calculator.slots.get? c = some a → a.object = .calculator vs →
    u.calculator.slots.get? c = some { a with object := .calculator (vs ++ hs) }
  others : ∀ x, x ≠ c → x ∉ hs → u.calculator.slots.get? x = s.calculator.slots.get? x

theorem Process.enlisted_extended (hnumbered : ∀ x a, s.calculator.slots.get? x = some a →
      x.raw.toNat ≤ s.shared.issued) (hc : (s.calculator.slots.get? c).isSome = true)
    (hb : s.shared.issued + ps.length < handleLimit) :
    s.Enlisted c ps (s.shared.nextHandles ps.length)
      ((s.withVariables ps).extended c (s.shared.nextHandles ps.length)) := by
  have hold {x : Handle} {a} (hx : s.calculator.slots.get? x = some a) :
      x ∉ s.shared.nextHandles ps.length :=
    Shared.not_mem_nextHandles (hnumbered x a hx) hb
  obtain ⟨a, ha⟩ := Option.isSome_iff_exists.mp hc
  refine ⟨?_, Shared.nextHandles_raw hb, fun h hh => ?_, fun j h p hh hp => ?_, fun b vs hb hvs => ?_,
    fun x hx hxs => ?_⟩
  · rw [extended, withVariables_same]
  · by_contra hlive
    obtain ⟨b, hb⟩ := Option.ne_none_iff_exists'.mp hlive
    exact hold hb hh
  · have hne : c ≠ h := fun e => hold ha (e ▸ List.mem_of_getElem? hh)
    rw [slot_extended, if_neg hne]
    exact slot_made hb hh hp
  · rw [slot_extended, if_pos rfl, slot_withVariables (hold hb), hb, Option.map_some, hvs]
    rfl
  · rw [slot_extended, if_neg hx.symm]
    exact slot_withVariables hxs

namespace Host.Calculator

/-- A calculator reads the primes of a sieve of its process, and enlists one variable for each. That
    comes to what it comes to when the host reads the primes, and for each has a variable made and
    enlisted and gives back its own reference: but for notes, both leave the same process. The new
    variables are at the end of the list, in the order of the primes, which ascend, each with one
    reference; nothing else has changed, as long as there are handles left. -/
theorem enlistPrimes_eq_enlistRead (out : Outside ω) (r : Reaches { outer := w } s)
    {lookup : Address} (reads : s.ReadsPrimes lookup) {calculator sieve : Instance}
    (hcalculator : calculator.Home) (hcomponent : calculator.library.component = .calculator)
    (hsieve : sieve.Home)
    (hc : s.calculator.get? calculator.handle = some (.calculator vs)) {o : Boundary.Primes.Object}
    (hx : s.primes.get? sieve.handle = some o) (ho : o.Holds ps)
    (hb : s.shared.issued + ps.length < handleLimit) :
    ∃ hs after notes notes',
      enlistPrimes out.invoker calculator sieve s = (.ok (), after.noted notes) ∧
      enlistRead out.invoker calculator sieve s = (.ok (), after.noted notes') ∧
      s.Enlisted calculator.handle ps hs after ∧ ps.Pairwise (· < ·) := by
  have k : Kindred s s := r.kindred (.refl s) (by omega)
  have hnull {c : Component} {x : Handle} {n : String} (hn : s.className? c x = some n) :
      x.isNull = false := by
    refine Bool.eq_false_iff.mpr fun hnull => ?_
    have hpos := (k.numbered c x n hn).1
    rw [Table.isNull_iff.mp hnull] at hpos
    exact absurd hpos (by decide)
  have hcnull : calculator.isNull = false :=
    hnull (c := .calculator) (congrArg (Option.map Boundary.Calculator.Object.className) hc)
  have hxnull : sieve.isNull = false :=
    hnull (c := .primes) (congrArg (Option.map Boundary.Primes.Object.className) hx)
  have hnumbered (x : Handle) (a) (ha : s.calculator.slots.get? x = some a) :
      x.raw.toNat ≤ s.shared.issued :=
    (k.numbered .calculator x a.object.className (congrArg (fun r => (r.map Slot.object).map
      Boundary.Calculator.Object.className) ha)).2
  obtain ⟨a, ha, hobject⟩ := Option.map_eq_some_iff.mp hc
  have hnew := Shared.not_mem_nextHandles (hnumbered _ a ha) hb
  have hps := Boundary.Primes.listing_of_result r hx ho.result
  have hcget := Table.get_some hcnull hc
  have hxget := Table.get_some hxnull hx
  have hf := r.offers reads.installed (f := .primes) rfl
  -- at once
  obtain ⟨notes, hnative⟩ := Boundary.Calculator.enlistPrimes_run out .none reads hf
    hcget hnew hxget ho hps
  have hdirect : enlistPrimes out.invoker calculator sieve s = (.ok (), _) :=
    (Instance.checked_run hcnull s).trans ((Instance.checked_run hxnull s).trans
      (Instance.ask_run hcalculator (c := .enlistPrimes calculator.handle sieve.handle) hnative))
  -- one by one
  obtain ⟨read, hread⟩ := Primes.primes_run out hsieve hxnull hxget ho hps
  obtain ⟨notes', hlong⟩ := enlistEach_run out (s := s.noted read) hcalculator hcomponent hcnull
    hcget hnew hb
  rw [Process.withVariables_noted] at hlong
  refine ⟨_, _, notes, notes' ++ read, hdirect, (run_bind_ok hread).trans (hlong.trans ?_),
    Process.enlisted_extended hnumbered (by rw [ha]; rfl) hb, hps.ascending⟩
  rw [← Process.noted_noted]
  rfl

def sieved : Process Unit :=
  idle.after { outer := () }
    [⟨_, .entryPoint .primes (some none)⟩,
     ⟨_, .injectComponent (.text "primes") (some .registryLookup)⟩,
     ⟨_, .createSieve (some Handle.null)⟩,
     ⟨_, .setValue ⟨1⟩ 7⟩,
     ⟨_, .calculate ⟨1⟩⟩,
     ⟨_, .createCalculator (some Handle.null)⟩,
     ⟨_, .createVariable 0.5 (some Handle.null)⟩,
     ⟨_, .enlistVariable ⟨2⟩ ⟨3⟩⟩]

theorem sieved_evaluates :
    sieved.injected = some .registryLookup ∧ Component.primes ∈ sieved.registry.installed ∧
    sieved.primes.get? ⟨1⟩ = some ⟨.sieve, 7, none, some (.primes [2, 3, 5, 7])⟩ ∧
    sieved.calculator.get? ⟨2⟩ = some (.calculator [⟨3⟩]) ∧ sieved.shared.issued = 3 := by
  decide +kernel

theorem enlistPrimes_sieved : ∃ hs after notes notes',
    enlistPrimes idle.invoker ⟨.own .calculator {}, ⟨2⟩⟩ ⟨.own .primes {}, ⟨1⟩⟩ sieved =
      (.ok (), after.noted notes) ∧
    enlistRead idle.invoker ⟨.own .calculator {}, ⟨2⟩⟩ ⟨.own .primes {}, ⟨1⟩⟩ sieved =
      (.ok (), after.noted notes') ∧
    sieved.Enlisted ⟨2⟩ [2, 3, 5, 7] hs after := by
  let calculator : Instance := ⟨.own .calculator {}, ⟨2⟩⟩
  let sieve : Instance := ⟨.own .primes {}, ⟨1⟩⟩
  obtain ⟨hinjected, hinstalled, hsieve, hcalculator, hissued⟩ := sieved_evaluates
  have r : Reaches { outer := () } sieved := idle_calling.after (.refl _) _
  have hb : sieved.shared.issued + ([2, 3, 5, 7] : List UInt64).length < handleLimit := by
    rw [hissued]
    decide
  have hc : sieved.calculator.get? calculator.handle = some (.calculator [⟨3⟩]) := hcalculator
  have hx : sieved.primes.get? sieve.handle = some _ := hsieve
  obtain ⟨hs, after, notes, notes', hdirect, hlong, henlisted, -⟩ :=
    enlistPrimes_eq_enlistRead idle r ⟨hinjected, ⟨_, rfl⟩, hinstalled⟩ (Library.own_home ..) rfl
      (Library.own_home ..) hc hx ⟨rfl, rfl⟩ hb
  exact ⟨hs, after, notes, notes', hdirect, hlong, henlisted⟩

end Host.Calculator

end Boundary
