/-
  Boundary.Proofs.Errors.Routing — where the message of a failed call goes.

  A guard runs any operation, and looks at the tables only when it has ended: by then it may have
  destroyed its target, made objects and recorded errors of its own. The tables share one process
  (`Apart`), and some may have one name: a thread has one slot for all of that name.

  Proved: whatever the operation did, its outcome is the status, and all that a guard adds to what it
  left is the message of its failure, in the slot of a target that is still live, else in the one
  that the thread has for the name of the table (`Apart.guard_settles`).
-/
import Boundary.Proofs.Tables

namespace Boundary

/-! ## One store -/

namespace Store

variable {O : Type} {st : Store O} {h : Handle} {why : Fault}

/-- Only the slots of threads change in what the process shares, and there is a note more. -/
theorem fail_shared : (st.fail h why).shared =
    { st.shared.note (.callFailed st.table.component why) with
      globals := (st.fail h why).shared.globals } := by
  unfold fail record
  split <;> rfl

theorem fail_slots {x : Handle} (hx : x ≠ h) :
    (st.fail h why).table.slots.get? x = st.table.slots.get? x := by
  unfold fail record
  split
  · exact (Handle.Map.get?_modify _ _ _ _).trans (if_neg hx.symm)
  · rfl

theorem fail_component : (st.fail h why).table.component = st.table.component := by
  unfold fail record
  split <;> rfl

theorem fail_slot (hn : h.isNull = false) {a : Slot O} (ha : st.table.slots.get? h = some a) :
    (st.fail h why).table.slots.get? h = some { a with lastError := some why.message } := by
  have hl : st.table.live h = true := Option.isSome_of_eq_some ha
  rw [fail_live why hn hl, Table.setError, Handle.Map.get?_modify, if_pos rfl, ha]
  rfl

theorem fail_globals (hm : h.isNull = true ∨ st.table.live h = false) (thread : Nat) (name : String) :
    (st.fail h why).shared.globals.lookup (thread, name) =
      if thread = st.shared.thread ∧ name = st.table.component then some why.message
      else st.shared.globals.lookup (thread, name) := by
  rw [fail_missed why hm, Shared.lookup_setGlobal]
  simp [Shared.note]

end Store

namespace Part

variable {σ O : Type} {p : Part σ O} {h : Handle} {s : σ}

theorem lastError_slot (hn : h.isNull = false) {a : Slot O}
    (ha : (p.view s).table.slots.get? h = some a) : p.lastError h s = (.ok a.lastError, s) := by
  simp [lastError, hn, ha]

theorem lastError_null : p.lastError Handle.null s =
    (.ok ((p.view s).shared.globals.lookup ((p.view s).shared.thread, (p.view s).table.component)), s) :=
  rfl

end Part

/-! ## Tables of one process -/

namespace Together

variable {σ ι ρ : Type} {O : ι → Type}

/-- Tables that share a process, each in a place of its own: what is put there twice is as if it was
    put there once. -/
structure Apart (part : (i : ι) → Part σ (O i)) (fit : σ → Prop) : Prop
    extends Sharing part fit where
  put_put : ∀ {s i} st st', fit s → (part i).put st' ((part i).put st s) = (part i).put st' s

/-- What an operation cannot change, whatever else it does: it runs on the thread that calls it, and
    a table has one name for good. -/
structure Stays (part : (i : ι) → Part σ (O i)) (fit : σ → Prop) (i : ι) (s u : σ) : Prop where
  fit : fit u
  thread : ((part i).view u).shared.thread = ((part i).view s).shared.thread
  named : ((part i).view u).table.component = ((part i).view s).table.component

structure Recorded (part : (i : ι) → Part σ (O i)) (thread : Nat) (name : String) (i : ι) (h : Handle)
    (why : Fault) (u t : σ) : Prop where
  /-- The slot of a live target has the message. -/
  live : h.isNull = false → ∀ a, ((part i).view u).table.slots.get? h = some a →
    ((part i).view t).table.slots.get? h = some { a with lastError := some why.message } ∧
      ((part i).view t).shared.globals = ((part i).view u).shared.globals
  /-- Without a live target the thread has it, for this name. -/
  missed : h.isNull = true ∨ ((part i).view u).table.live h = false →
    ((part i).view t).table = ((part i).view u).table ∧
      ∀ thread' name', ((part i).view t).shared.globals.lookup (thread', name') =
        if thread' = thread ∧ name' = name then some why.message
        else ((part i).view u).shared.globals.lookup (thread', name')
  /-- All other slots are as they were, -/
  slots : ∀ x, x ≠ h →
    ((part i).view t).table.slots.get? x = ((part i).view u).table.slots.get? x
  /-- and so are all other tables, -/
  tables : ∀ j, j ≠ i → ((part j).view t).table = ((part j).view u).table
  /-- what the process shares, but for one note, -/
  shared : ((part i).view t).shared = { ((part i).view u).shared.note (.callFailed name why) with
    globals := ((part i).view t).shared.globals }
  /-- and what else there is. -/
  rest : t = (part i).put ((part i).view t) u
  /-- A live target has the message read from it, -/
  found : h.isNull = false → ((part i).view u).table.live h = true →
    (part i).lastError h t = (.ok (some why.message), t)
  /-- or else the thread reads it from every table of the name. -/
  shown : h.isNull = true ∨ ((part i).view u).table.live h = false →
    ∀ j, ((part j).view u).table.component = name →
      (part j).lastError Handle.null t = (.ok (some why.message), t)

/-- What a guard with the target `h` makes of an operation that came to `r`, from `s` to `u`. -/
structure Settled (part : (i : ι) → Part σ (O i)) (i : ι) (h : Handle) (s : σ) (r : Except Fault ρ)
    (u : σ) (status : Status) (t : σ) : Prop where
  ok_iff : status = Status.ok ↔
    (∃ after, r = .ok after) ∨ ∃ why, r = .error why ∧ why.code = Status.ok
  code : ∀ why, r = .error why → status = why.code
  panicked : ∀ payload, r = .error (.panicked payload) → status = Status.generic ∧
    (Fault.panicked payload).message = payload.getD "panic in native call"
  done : ∀ after, r = .ok after → t = u
  recorded : ∀ why, r = .error why → Recorded part ((part i).view s).shared.thread
    ((part i).view s).table.component i h why u t

variable {part : (i : ι) → Part σ (O i)} {fit : σ → Prop} {s u : σ}

namespace Apart

variable (ap : Apart part fit)
include ap

/-- The failure is recorded in the store of its table, and nowhere else. -/
theorem fail_run (hu : fit u) (i : ι) (h : Handle) (why : Fault) :
    ((part i).fail h why u).2 = (part i).put (((part i).view u).fail h why) u := by
  rw [Part.fail_run fun st => ap.view_put st hu, ap.put_put _ _ hu]

theorem fail_recorded (hu : fit u) (i : ι) (h : Handle) (why : Fault) :
    Recorded part ((part i).view u).shared.thread ((part i).view u).table.component i h why u
      ((part i).fail h why u).2 := by
  have hrun := ap.fail_run hu i h why
  have hview : (part i).view ((part i).fail h why u).2 = ((part i).view u).fail h why := by
    rw [hrun, ap.view_put _ hu]
  have hfit : fit ((part i).fail h why u).2 := hrun ▸ ap.fit_put _ hu
  have htables (j : ι) (hj : j ≠ i) :
      ((part j).view ((part i).fail h why u).2).table = ((part j).view u).table := by
    rw [hrun, ap.others _ hu hj]
  have hmissed (hm : h.isNull = true ∨ ((part i).view u).table.live h = false) (thread : Nat)
      (name : String) : ((part i).view ((part i).fail h why u).2).shared.globals.lookup (thread, name) =
        if thread = ((part i).view u).shared.thread ∧ name = ((part i).view u).table.component then
          some why.message
        else ((part i).view u).shared.globals.lookup (thread, name) := by
    rw [hview, Store.fail_globals hm]
  refine {
    live := fun hn a ha => ?_
    missed := fun hm => ⟨by rw [hview, Store.fail_missed why hm], hmissed hm⟩
    slots := fun x hx => by rw [hview, Store.fail_slots hx]
    tables := htables
    shared := by rw [hview, Store.fail_shared]
    rest := by rw [hview, hrun]
    found := fun hn hl => ?_
    shown := fun hm j hname => ?_ }
  · have hl : ((part i).view u).table.live h = true := Option.isSome_of_eq_some ha
    rw [hview, Store.fail_slot hn ha]
    exact ⟨rfl, by rw [Store.fail_live why hn hl]; rfl⟩
  · obtain ⟨a, ha⟩ := Table.live_iff.mp hl
    refine Part.lastError_slot hn (a := { a with lastError := some why.message }) ?_
    rw [hview, Store.fail_slot hn ha]
  · have hnamed : ((part j).view ((part i).fail h why u).2).table.component =
        ((part i).view u).table.component := by
      by_cases hj : j = i
      · subst hj
        rw [hview, Store.fail_component]
      · rw [htables j hj, hname]
    have hthread : ((part i).view ((part i).fail h why u).2).shared.thread =
        ((part i).view u).shared.thread := by
      rw [hview, Store.fail_shared]
      rfl
    rw [Part.lastError_null, ap.shared j i hfit, hnamed, hthread, hmissed hm, if_pos ⟨rfl, rfl⟩]

/-- Whatever an operation does, its outcome is the status, and if it failed the message goes where
    its target is looked for when it has ended. -/
theorem guard_settles (i : ι) (h : Handle) (cells : ρ) (op : Op σ ρ)
    (hop : Stays part fit i s (op s).2) :
    Settled part i h s (op s).1 (op s).2 ((part i).guard h cells op s).1.1
      ((part i).guard h cells op s).2 := by
  rcases hrun : op s with ⟨r, u⟩
  rw [hrun] at hop
  cases r with
  | ok after =>
    rw [Part.guard_of_ok hrun]
    exact {
      ok_iff := by simp
      code := by simp
      panicked := by simp
      done := fun _ _ => rfl
      recorded := by simp }
  | error why =>
    rw [Part.guard_of_error hrun]
    refine {
      ok_iff := by simp
      code := by simp
      panicked := fun payload hpanic => ?_
      done := by simp
      recorded := fun e he => ?_ }
    · obtain rfl := Except.error.inj hpanic
      exact ⟨rfl, rfl⟩
    · obtain rfl := Except.error.inj he
      rw [← hop.thread, ← hop.named]
      exact ap.fail_recorded hop.fit i h why

end Apart

end Together

namespace Bench

theorem tables_apart (n : Nat) : Together.Apart (tables n) fun s => s.tables.length = n where
  toSharing := tables_sharing n
  put_put _ _ _ := by simp [tables, part]

def twins : State :=
  ((part 0).insert ⟨⟨1⟩, []⟩ { tables := ["Test", "Test"].map fun c => { component := c } }).2

def late : Op State Unit := Guarded.run (part 0) ⟨1⟩ (.releaseThenFail Status.generic "late")

theorem late_settles : Together.Stays (tables 2) (fun s => s.tables.length = 2) 0 twins (late twins).2 ∧
    ((tables 2 0).guard ⟨1⟩ () late twins).1.1 = Status.generic ∧
    ∃ t, ((tables 2 0).guard ⟨1⟩ () late twins).2 = t ∧
      (tables 2 1).lastError Handle.null t = (.ok (some "late"), t) := by
  have hstays : Together.Stays (tables 2) (fun s => s.tables.length = 2) 0 twins (late twins).2 :=
    ⟨by decide +kernel, by decide +kernel, by decide +kernel⟩
  have hfailed : (late twins).1 = .error (.foreign Status.generic "late") := by decide +kernel
  have hgone : ((tables 2 0).view (late twins).2).table.live ⟨1⟩ = false := by decide +kernel
  have hnamed : ((tables 2 1).view (late twins).2).table.component =
      ((tables 2 0).view twins).table.component := by decide +kernel
  have hsettled := (tables_apart 2).guard_settles 0 ⟨1⟩ () late hstays
  exact ⟨hstays, hsettled.code _ hfailed, _, rfl,
    (hsettled.recorded _ hfailed).shown (.inr hgone) 1 hnamed⟩

end Bench

/-! ## The components of a process -/

namespace Component

def Held : Component → Type
  | zoo => Zoo.Object
  | calculator => Calculator.Object
  | primes => Primes.Object

def part {ω : Type} : (c : Component) → Part (Process ω) c.Held
  | zoo => Process.zooPart
  | calculator => Process.calculatorPart
  | primes => Process.primesPart

theorem parts_apart {ω : Type} : Together.Apart (part (ω := ω)) fun _ => True where
  view_put {s i} st _ := by cases i <;> rfl
  put_view {s i} _ := by cases i <;> rfl
  shared {s} i j _ := by cases i <;> cases j <;> rfl
  others {s i j} st _ hne := by cases i <;> cases j <;> first | rfl | exact absurd rfl hne
  fit_put _ _ := trivial
  put_put {s i} st st' _ := by cases i <;> rfl

end Component

end Boundary
