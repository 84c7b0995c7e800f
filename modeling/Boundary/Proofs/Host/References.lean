/-
  Boundary.Proofs.Host.References — references that a wrapper takes and gives back.

  To take one more reference raises the count of the object by one. To give one back lowers it;
  if it was the last one, the object goes, and the references that it held are given back in turn
  (`GivesBack`). A drop tells nobody of a release that failed, but no release of a live object
  fails.

  Proved, in any state of the process: to take another reference of a live object raises one count
  by one (`Instance.acquire_takes`), and otherwise leaves everything as it was; and what the drop of
  a wrapper of a live object leaves is the process with one reference fewer, but for notes
  (`Instance.drop_givesBack`).
-/
import Boundary.Proofs.Calculator.Clearing
import Boundary.Proofs.Host.Methods
import Boundary.Proofs.Session.Lifetimes

namespace Boundary

variable {ω : Type} {out : Outside ω} {s u : Process ω} {c : Component} {x : Handle} {n : UInt32}

/-! ## Tables -/

namespace Table

variable {O : Type} {t : Table O}

theorem slot_of_count? (h : t.count? x = some n) : ∃ a, t.slots.get? x = some a ∧ a.count = n :=
  Option.map_eq_some_iff.mp h

theorem count?_setCount (t : Table O) (x : Handle) (n : UInt32) (y : Handle) :
    (t.setCount x n).count? y = if x = y then (t.count? y).map fun _ => n else t.count? y := by
  rw [count?, get?_setCount]
  split
  · rw [count?, Option.map_map, Option.map_map]
    rfl
  · rfl

variable [Resource O]

theorem release_answers (h : (t.count? x).isSome = true) : Release.answer (t.release x).2 = .ok () := by
  cases ha : Release.answer (t.release x).2 with
  | ok _ => rfl
  | error why =>
    rw [count?, Option.isSome_map, (release_missing ha).2] at h
    cases h

theorem release_setCount (hx : x.isNull = false) (hn : t.count? x = some n) (h1 : ¬ n ≤ 1) :
    (t.release x).1 = t.setCount x (n - 1) := by
  obtain ⟨a, ha, rfl⟩ := slot_of_count? hn
  rw [release_single (releaseOnce_kept hx ha h1)]

/-- The object goes first, and then what it held is released in turn. -/
theorem release_owned (hx : x.isNull = false) (hn : t.count? x = some n) (h1 : n ≤ 1) :
    (t.release x).1 =
      ((t.slots.get? x).elim t (t.destroy x)).releaseEach (t.ownedBy x) := by
  obtain ⟨a, ha, rfl⟩ := slot_of_count? hn
  rw [release_last hx ha h1, ownedBy_some ha, ha, Option.elim_some]

/-- It does not come back. -/
theorem release_gone (hx : x.isNull = false) (hn : t.count? x = some n) (h1 : n ≤ 1) :
    (t.release x).1.count? x = none := by
  obtain ⟨a, ha, rfl⟩ := slot_of_count? hn
  rw [release_last hx ha h1, count?, Option.map_eq_none_iff]
  cases hb : ((t.destroy x a).releaseEach (Resource.owned a.object)).slots.get? x with
  | none => rfl
  | some b =>
    obtain ⟨_, hslot, -⟩ := releaseEach_slots hb
    rw [get?_destroy, if_pos rfl] at hslot
    cases hslot

end Table

/-! ## Processes -/

namespace Process

def changed (s : Process ω) (c : Component)
    (f : ∀ {O : Type} [Resource O], Table O → Table O) : Process ω :=
  match c with
  | .zoo => { s with zoo := f s.zoo }
  | .calculator => { s with calculator := f s.calculator }
  | .primes => { s with primes := f s.primes }

def recounted (s : Process ω) (c : Component) (x : Handle) (n : UInt32) : Process ω :=
  s.changed c fun t => t.setCount x n

def destroyed (s : Process ω) (c : Component) (x : Handle) : Process ω :=
  s.changed c fun t => (t.slots.get? x).elim t (t.destroy x)

def without (s : Process ω) (c : Component) (x : Handle) : Process ω :=
  s.changed c fun t => (t.release x).1

def ownedBy (s : Process ω) (c : Component) (x : Handle) : List Handle :=
  match c with
  | .zoo => s.zoo.ownedBy x
  | .calculator => s.calculator.ownedBy x
  | .primes => s.primes.ownedBy x

theorem count?_recounted (hn : s.count? c x = some n) (m : UInt32) (c' : Component) (y : Handle) :
    (s.recounted c x m).count? c' y = if c' = c ∧ y = x then some m else s.count? c' y := by
  have htable {O : Type} {t : Table O} (hn : t.count? x = some n) :
      (t.setCount x m).count? y = if y = x then some m else t.count? y := by
    rw [Table.count?_setCount]
    by_cases e : x = y
    · subst e
      rw [if_pos rfl, if_pos rfl, hn, Option.map_some]
    · rw [if_neg e, if_neg (Ne.symm e)]
  by_cases h : c' = c
  · subst h
    simp only [true_and]
    cases c' with
    | zoo => exact htable (t := s.zoo) hn
    | calculator => exact htable (t := s.calculator) hn
    | primes => exact htable (t := s.primes) hn
  · rw [if_neg fun h' => h h'.1]
    cases c <;> cases c' <;> first | rfl | exact absurd rfl h

theorem foldl_without (s : Process ω) (c : Component) (xs : List Handle) :
    xs.foldl (·.without c ·) s = s.changed c fun t => t.releaseEach xs := by
  induction xs generalizing s with
  | nil => cases c <;> rfl
  | cons x rest ih =>
    refine (ih (s.without c x)).trans ?_
    cases c <;> rfl

theorem without_kept (hx : x.isNull = false) (hn : s.count? c x = some n) (h1 : ¬ n ≤ 1) :
    s.without c x = s.recounted c x (n - 1) := by
  cases c with
  | zoo => exact congrArg (fun t => { s with zoo := t }) (Table.release_setCount hx hn h1)
  | calculator => exact congrArg (fun t => { s with calculator := t }) (Table.release_setCount hx hn h1)
  | primes => exact congrArg (fun t => { s with primes := t }) (Table.release_setCount hx hn h1)

theorem without_last (hx : x.isNull = false) (hn : s.count? c x = some n) (h1 : n ≤ 1) :
    s.without c x = (s.ownedBy c x).foldl (·.without c ·) (s.destroyed c x) := by
  rw [foldl_without]
  cases c with
  | zoo => exact congrArg (fun t => { s with zoo := t }) (Table.release_owned hx hn h1)
  | calculator => exact congrArg (fun t => { s with calculator := t }) (Table.release_owned hx hn h1)
  | primes => exact congrArg (fun t => { s with primes := t }) (Table.release_owned hx hn h1)

theorem count?_without_last (hx : x.isNull = false) (hn : s.count? c x = some n) (h1 : n ≤ 1) :
    (s.without c x).count? c x = none := by
  cases c with
  | zoo => exact Table.release_gone hx hn h1
  | calculator => exact Table.release_gone hx hn h1
  | primes => exact Table.release_gone hx hn h1

/-! ### Notes -/

theorem count?_noted (notes : List Note) (s : Process ω) (c : Component) (x : Handle) :
    (s.noted notes).count? c x = s.count? c x := by
  cases c <;> rfl

theorem ownedBy_noted (notes : List Note) (s : Process ω) (c : Component) (x : Handle) :
    (s.noted notes).ownedBy c x = s.ownedBy c x := by
  cases c <;> rfl

theorem changed_noted (notes : List Note) (s : Process ω) (c : Component)
    (f : ∀ {O : Type} [Resource O], Table O → Table O) :
    (s.noted notes).changed c f = (s.changed c f).noted notes := by
  cases c <;> rfl

/-- Nothing is new but notes, which tell of no object made or destroyed, and of no lost release. -/
def Noted (s u : Process ω) : Prop := ∃ notes, (∀ m ∈ notes, m.Plain) ∧ u = s.noted notes

theorem Noted.refl (s : Process ω) : s.Noted s := ⟨[], fun _ hm => absurd hm List.not_mem_nil, rfl⟩

theorem Noted.trans {v : Process ω} (h : s.Noted u) (h' : u.Noted v) : s.Noted v := by
  obtain ⟨notes, hplain, rfl⟩ := h
  obtain ⟨more, hmore, rfl⟩ := h'
  refine ⟨more ++ notes, fun m hm => ?_, noted_noted more notes⟩
  exact (List.mem_append.mp hm).elim (hmore m) (hplain m)

end Process

/-! ## Calls -/

theorem releaseInstance_run (out : Outside ω) (via : Invoker (Process ω))
    (hlive : (s.count? c x).isSome = true) :
    ∃ notes, perform out via (.releaseInstance c x) s =
      ((Status.ok, ()), (s.without c x).noted notes) := by
  have hguard {O : Type} [Resource O] {p : Part (Process ω) O}
      (hp : ((p.view s).table.count? x).isSome = true) :
      ∃ notes : List Note, Fixed.releaseInstance p x s = ((Status.ok, ()),
        p.put ⟨(p.view s).shared.notes notes, ((p.view s).table.release x).1⟩ s) :=
    ⟨((p.view s).table.release x).2.flatMap (Release.notes (p.view s).table.component),
      Part.guard_of_ok (congrArg (·, (p.release x s).2) (Table.release_answers hp))⟩
  cases c with
  | zoo =>
    obtain ⟨notes, hrun⟩ := hguard (p := Process.zooPart) hlive
    exact ⟨notes.reverse, hrun⟩
  | calculator =>
    obtain ⟨notes, hrun⟩ := hguard (p := Process.calculatorPart) hlive
    exact ⟨notes.reverse, hrun⟩
  | primes =>
    obtain ⟨notes, hrun⟩ := hguard (p := Process.primesPart) hlive
    exact ⟨notes.reverse, hrun⟩

theorem acquireInstance_run (out : Outside ω) (via : Invoker (Process ω))
    (hn : s.count? c x = some n) (hroom : n ≠ 4294967295) :
    perform out via (.acquireInstance c x) s = ((Status.ok, ()), s.recounted c x (n + 1)) := by
  have htable {O : Type} {t : Table O} (hn : t.count? x = some n) :
      t.acquire x = .ok (t.setCount x (n + 1)) := by
    obtain ⟨a, ha, rfl⟩ := Table.slot_of_count? hn
    rw [Table.acquire, ha]
    exact if_neg hroom
  cases c with
  | zoo => exact Part.guard_of_ok (Part.acquire_ok (p := Process.zooPart) (htable hn))
  | calculator => exact Part.guard_of_ok (Part.acquire_ok (p := Process.calculatorPart) (htable hn))
  | primes => exact Part.guard_of_ok (Part.acquire_ok (p := Process.primesPart) (htable hn))

/-- A reference is not taken where there is no object or its count is full. -/
theorem acquireInstance_refused (out : Outside ω) (via : Invoker (Process ω))
    (h : ∀ n, s.count? c x = some n → n = 4294967295) :
    ∃ why : Fault, why.code ≠ Status.ok ∧ (perform out via (.acquireInstance c x) s).1.1 = why.code ∧
      s.Intact (perform out via (.acquireInstance c x) s).2 := by
  have htable {O : Type} {t : Table O} (h : ∀ n, t.count? x = some n → n = 4294967295) :
      ∃ why : Fault, why.code ≠ Status.ok ∧ t.acquire x = .error why := by
    unfold Table.acquire
    cases ha : t.slots.get? x with
    | none => exact ⟨.unknownHandle x, (by decide : Status.invalidParam ≠ Status.ok), rfl⟩
    | some a =>
      have hfull : a.count = 4294967295 := h a.count (congrArg (Option.map Slot.count) ha)
      exact ⟨.countOverflow, by decide, if_pos hfull⟩
  have hguard {O : Type} {p : Part (Process ω) O} (spot : Spot p) {why : Fault}
      (ha : (p.view s).table.acquire x = .error why) :
      (Fixed.acquireInstance p x s).1.1 = why.code ∧ s.Intact (Fixed.acquireInstance p x s).2 := by
    have hrun : Fixed.acquireInstance p x s = ((why.code, ()), (p.fail x why s).2) :=
      Part.guard_of_error (Part.acquire_error ha)
    rw [hrun]
    exact ⟨rfl, spot.fail x why s (.refl s)⟩
  cases c with
  | zoo =>
    obtain ⟨why, hwhy, ha⟩ := htable (t := s.zoo) h
    exact ⟨why, hwhy, hguard zooSpot ha⟩
  | calculator =>
    obtain ⟨why, hwhy, ha⟩ := htable (t := s.calculator) h
    exact ⟨why, hwhy, hguard calculatorSpot ha⟩
  | primes =>
    obtain ⟨why, hwhy, ha⟩ := htable (t := s.primes) h
    exact ⟨why, hwhy, hguard primesSpot ha⟩

/-! ## Wrappers -/

theorem Process.Intact.noted (h : s.Intact u) (notes : List Note) : s.Intact (u.noted notes) :=
  ⟨h.zoo, h.calculator, h.primes, h.issued, h.thread, h.threads, h.registry, h.injected⟩

theorem Process.Intact.count? (h : s.Intact u) (c : Component) (x : Handle) :
    u.count? c x = s.count? c x := by
  cases c with
  | zoo => exact h.zoo.count? x
  | calculator => exact h.calculator.count? x
  | primes => exact h.primes.count? x

/-- One reference to an object is given back: it has one fewer and nothing else is changed, or it
    is gone, and the references that it held are given back in turn. In books that balance, that is
    the caller's own reference, and nobody else loses one. -/
structure GivesBack (c : Component) (x : Handle) (s u : Process ω) : Prop where
  fewer : ∀ n, s.count? c x = some n → 1 < n →
    (∃ notes, u = (s.recounted c x (n - 1)).noted notes) ∧
      ∀ c' y, u.count? c' y = if c' = c ∧ y = x then some (n - 1) else s.count? c' y
  last : ∀ n, s.count? c x = some n → n ≤ 1 → u.count? c x = none ∧
    ∃ notes, u = ((s.ownedBy c x).foldl (·.without c ·) (s.destroyed c x)).noted notes
  books : ∀ {J : ω → Prop} {e : Ledger}, Balanced J (e + .of c [x]) s → Balanced J e u

theorem GivesBack.references (h : GivesBack c x s u) (hn : s.count? c x = some n) :
    u.references c x = s.references c x - 1 := by
  rw [Process.references, Process.references, hn, Option.elim_some]
  by_cases h1 : n ≤ 1
  · have : n.toNat ≤ 1 := h1
    rw [(h.last n hn h1).1, Option.elim_none]
    omega
  · rw [(h.fewer n hn (UInt32.not_le.mp h1)).2, if_pos ⟨rfl, rfl⟩, Option.elim_some]
    exact Nat.eq_sub_of_add_eq (Table.toNat_sub_one h1)

structure Takes (c : Component) (x : Handle) (s u : Process ω) : Prop where
  references : u.references c x = s.references c x + 1
  others : ∀ c' y, ¬ (c' = c ∧ y = x) → u.count? c' y = s.count? c' y
  same : ∃ n notes, u = (s.recounted c x n).noted notes

theorem takes_recounted (hn : s.count? c x = some n) (hroom : n ≠ 4294967295) (notes : List Note) :
    Takes c x s ((s.recounted c x (n + 1)).noted notes) := by
  have hcount (c' : Component) (y : Handle) :
      ((s.recounted c x (n + 1)).noted notes).count? c' y =
        if c' = c ∧ y = x then some (n + 1) else s.count? c' y := by
    rw [Process.count?_noted, Process.count?_recounted hn]
  refine ⟨?_, fun c' y h => (hcount c' y).trans (if_neg h), n + 1, notes, rfl⟩
  rw [Process.references, Process.references, hcount, if_pos ⟨rfl, rfl⟩, hn]
  exact Table.toNat_add_one hroom

/-- Notes beforehand do not matter. -/
theorem GivesBack.noted {v : Process ω} (hu : s.Noted u) (h : GivesBack c x u v) :
    GivesBack c x s v := by
  obtain ⟨notes, hplain, rfl⟩ := hu
  have hnoted : s.noted notes = { s with shared := s.shared.notes notes.reverse } := by
    rw [Shared.notes, List.reverse_reverse]
    rfl
  refine ⟨fun n hn h1 => ?_, fun n hn h1 => ?_, fun hs => h.books ?_⟩
  · obtain ⟨⟨more, hv⟩, hcount⟩ := h.fewer n ((Process.count?_noted notes s c x).trans hn) h1
    rw [Process.recounted, Process.changed_noted, Process.noted_noted] at hv
    exact ⟨⟨_, hv⟩, fun c' y => (hcount c' y).trans (by rw [Process.count?_noted])⟩
  · obtain ⟨hgone, more, hv⟩ := h.last n ((Process.count?_noted notes s c x).trans hn) h1
    rw [Process.foldl_without, Process.ownedBy_noted, Process.destroyed, Process.changed_noted,
      Process.changed_noted, Process.noted_noted, ← Process.destroyed, ← Process.foldl_without] at hv
    exact ⟨hgone, _, hv⟩
  · rw [hnoted]
    exact hs.notes notes.reverse fun m hm => hplain m (List.mem_reverse.mp hm)

namespace Host.Instance

variable {i : Instance}

theorem drop_run (out : Outside ω) (hi : i.Home) (hx : i.isNull = false)
    (hlive : (s.count? i.library.component i.handle).isSome = true) :
    ∃ notes, i.drop out.invoker s =
      ((), (s.without i.library.component i.handle).noted notes) := by
  obtain ⟨notes, hrun⟩ := releaseInstance_run out (out.reach .none) hlive
  refine ⟨.released i.library.component.ns i.handle :: notes, ?_⟩
  exact state_bind ((release_run hi hx hrun).trans rfl)

theorem drop_givesBack (hi : i.Home) (hx : i.isNull = false)
    (hlive : (s.count? i.library.component i.handle).isSome = true) :
    GivesBack i.library.component i.handle s (i.drop out.invoker s).2 := by
  obtain ⟨notes, hrun⟩ := drop_run out hi hx hlive
  refine ⟨fun n hn h1 => ?_, fun n hn h1 => ?_, fun h => drop_books hi s h⟩
  · rw [hrun, Process.without_kept hx hn (UInt32.not_le.mpr h1)]
    refine ⟨⟨notes, rfl⟩, fun c' y => ?_⟩
    rw [Process.count?_noted, Process.count?_recounted hn]
  · rw [hrun, Process.count?_noted, Process.without_last hx hn h1]
    exact ⟨Process.without_last hx hn h1 ▸ Process.count?_without_last hx hn h1, notes, rfl⟩

def Acquirable (i : Instance) (s : Process ω) : Prop :=
  i.isNull = false ∧ ∃ n, s.count? i.library.component i.handle = some n ∧ n ≠ 4294967295

theorem acquire_takes (out : Outside ω) (hi : i.Home) (h : i.Acquirable s) :
    ∃ u, i.acquire out.invoker s = (.ok i, u) ∧ Takes i.library.component i.handle s u := by
  obtain ⟨hx, n, hn, hroom⟩ := h
  have hask := ask_run hi (acquireInstance_run out (out.reach .none) hn hroom)
  refine ⟨_, (checked_run hx s).trans ((run_bind_ok (hask.trans rfl)).trans rfl), ?_⟩
  exact takes_recounted hn hroom [.acquired i.library.component.ns i.handle]

/-- Nothing has come of it but a failure. -/
theorem acquire_refused (out : Outside ω) (hi : i.Home) (h : ¬ i.Acquirable s) :
    ∃ why u, i.acquire out.invoker s = (.error why, u) ∧ s.Intact u := by
  by_cases hx : i.isNull = true
  · exact ⟨.invalidHandle, s, run_bind_error (run_lift_error (if_pos hx) s), .refl s⟩
  have hx : i.isNull = false := Bool.eq_false_iff.mpr hx
  have hfull (n : UInt32) (hn : s.count? i.library.component i.handle = some n) :
      n = 4294967295 :=
    Decidable.byContradiction fun hne => h ⟨hx, n, hn, hne⟩
  obtain ⟨why, hwhy, hstatus, hintact⟩ := acquireInstance_refused out (out.reach .none) hfull
  obtain ⟨message, notes, hcheck⟩ := Library.checkStatus_blames hi (hstatus ▸ hwhy) i.handle
    (perform out (out.reach .none) (.acquireInstance i.library.component i.handle) s).2
  have hask : i.ask out.invoker (.acquireInstance i.library.component i.handle) s = _ :=
    (ask_run hi rfl).trans (run_bind_error hcheck)
  exact ⟨_, _, (checked_run hx s).trans (run_bind_error hask), hintact.noted notes⟩

end Host.Instance

end Boundary
