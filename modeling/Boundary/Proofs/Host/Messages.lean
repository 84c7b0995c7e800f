/-
  Boundary.Proofs.Host.Messages — the message of a failure, from its record to the caller.

  A guarded call that fails records its failure last: on its target if that is live, else with
  the running thread. The bindings then ask for the message with a handle of their own choice.
  What they read back is the record: the one in the slot of a live object (`recorded_live`), or,
  asked for with the null handle, the one of the thread (`recorded_thread`); an object that is
  gone has no slot to read (`lastRead_gone`).

  Proved: a status that is not success becomes a failure with the component's name, the status
  and the message that was read (`checkStatus_failed`); asking for it makes notes and nothing
  else, however many attempts it takes.
-/
import Boundary.Proofs.Errors.Channel
import Boundary.Proofs.Exchange.Text
import Boundary.Proofs.Host.Library

namespace Boundary

open Exchange (Cell Servable Host Place Room Filled textFilling)

variable {ω O ρ α : Type} {out : Outside ω} {via : Invoker (Process ω)} {s : Process ω} {x : Handle}

/-! ## Slots -/

namespace Process

def noted (notes : List Note) (s : Process ω) : Process ω :=
  { s with shared := { s.shared with journal := notes ++ s.shared.journal } }

theorem noted_noted (more notes : List Note) :
    (s.noted notes).noted more = s.noted (more ++ notes) := by
  simp [noted]

def lastRead (s : Process ω) (c : Component) (x : Handle) : Except Fault (Option String) :=
  match c with
  | .zoo => (zooPart.lastError x s).1
  | .calculator => (calculatorPart.lastError x s).1
  | .primes => (primesPart.lastError x s).1

def reported (s : Process ω) (c : Component) (slot : Handle) (why : Fault) : Option String :=
  if slot.isNull = true ∨ (s.count? c slot).isSome = true then some why.message else none

end Process

theorem Part.lastError_noted {p : Part (Process ω) O} (notes : List Note)
    (htable : (p.view (s.noted notes)).table = (p.view s).table)
    (hshared : (p.view (s.noted notes)).shared.global (p.view s).table.component =
      (p.view s).shared.global (p.view s).table.component) :
    (p.lastError x (s.noted notes)).1 = (p.lastError x s).1 := by
  unfold Part.lastError
  dsimp only
  rw [htable, hshared]
  by_cases hx : x.isNull = true
  · rw [if_pos hx, if_pos hx]
  · rw [if_neg hx, if_neg hx]
    cases (p.view s).table.slots.get? x <;> rfl

/-- Notes are no errors. -/
theorem Process.lastRead_noted (notes : List Note) (c : Component) (x : Handle) :
    (s.noted notes).lastRead c x = s.lastRead c x := by
  cases c with
  | zoo => exact Part.lastError_noted (p := zooPart) notes rfl rfl
  | calculator => exact Part.lastError_noted (p := calculatorPart) notes rfl rfl
  | primes => exact Part.lastError_noted (p := primesPart) notes rfl rfl

theorem Part.lastError_gone {p : Part (Process ω) O} (hx : x.isNull = false)
    (hgone : ((p.view s).table.count? x).isSome = false) :
    (p.lastError x s).1 = .error (.unknownHandle x) := by
  rw [Table.count?, Option.isSome_map, Option.isSome_eq_false_iff, Option.isNone_iff_eq_none]
    at hgone
  unfold Part.lastError
  dsimp only
  rw [hx, hgone]
  rfl

/-- An object that is gone has no slot. -/
theorem Process.lastRead_gone {c : Component} (hx : x.isNull = false)
    (hgone : (s.count? c x).isSome = false) : s.lastRead c x = .error (.unknownHandle x) := by
  cases c with
  | zoo => exact Part.lastError_gone (p := zooPart) hx hgone
  | calculator => exact Part.lastError_gone (p := calculatorPart) hx hgone
  | primes => exact Part.lastError_gone (p := primesPart) hx hgone

/-! ## Records -/

namespace Site

variable [Resource O] [Layered O] {p : Part (Process ω) O} {c : Component} (site : Site p c)
include site

/-- The store after a failure was recorded. -/
theorem view_fail (x : Handle) (why : Fault) (s : Process ω) :
    p.view (p.fail x why s).2 =
      if !x.isNull && (p.view s).table.live x then
        ⟨(p.view s).shared.note (.callFailed (p.view s).table.component why),
          (p.view s).table.setError x why.message⟩
      else
        ⟨((p.view s).shared.note (.callFailed (p.view s).table.component why)).setGlobal
          (p.view s).table.component why.message, (p.view s).table⟩ := by
  rw [Part.fail_run fun st => site.view_put st s, site.view_put]
  rfl

/-- Recording a failure ends no object. -/
theorem live_fail (x : Handle) (why : Fault) (s : Process ω) :
    ((p.view (p.fail x why s).2).table.count? x).isSome = (p.view s).table.live x := by
  rw [site.view_fail, Table.count?, Option.isSome_map]
  split
  · next h =>
    simp only [Bool.and_eq_true, Bool.not_eq_true'] at h
    rw [Table.setError, Handle.Map.get?_modify, if_pos rfl, Option.isSome_map]
    rfl
  · rfl

theorem lastError_live {why : Fault} (hx : x.isNull = false)
    (hlive : ((p.view (p.fail x why s).2).table.count? x).isSome = true) :
    (p.lastError x (p.fail x why s).2).1 = .ok (some why.message) := by
  rw [site.live_fail] at hlive
  obtain ⟨a, ha⟩ := Table.live_iff.mp hlive
  have hslot : (p.view (p.fail x why s).2).table.slots.get? x =
      some { a with lastError := some why.message } := by
    rw [site.view_fail, if_pos (by simp [hx, hlive]), Table.setError, Handle.Map.get?_modify,
      if_pos rfl, ha]
    rfl
  unfold Part.lastError
  dsimp only
  rw [hx, hslot]
  rfl

theorem lastError_thread {why : Fault} (hmissed : x.isNull = true ∨
    ((p.view (p.fail x why s).2).table.count? x).isSome = false) :
    (p.lastError Handle.null (p.fail x why s).2).1 = .ok (some why.message) := by
  rw [site.live_fail] at hmissed
  have hnot : ¬ (!x.isNull && (p.view s).table.live x) = true := by
    rcases hmissed with h | h <;> simp [h]
  have hread : (p.lastError Handle.null (p.fail x why s).2).1 = .ok ((p.view
      (p.fail x why s).2).shared.global (p.view (p.fail x why s).2).table.component) := rfl
  rw [hread, site.view_fail, if_neg hnot]
  refine congrArg Except.ok ?_
  exact (Shared.lookup_setGlobal _ _ _ _ _).trans (if_pos rfl)

end Site

namespace Component

variable {c : Component} {why : Fault}

/-- A live target has the message. -/
theorem recorded_live (hx : x.isNull = false)
    (hlive : ((c.fail x why s).2.count? c x).isSome = true) :
    (c.fail x why s).2.lastRead c x = .ok (some why.message) := by
  cases c with
  | zoo => exact zooSite.lastError_live hx hlive
  | calculator => exact calculatorSite.lastError_live hx hlive
  | primes => exact primesSite.lastError_live hx hlive

/-- Without a live target the running thread has it. -/
theorem recorded_thread
    (hmissed : x.isNull = true ∨ ((c.fail x why s).2.count? c x).isSome = false) :
    (c.fail x why s).2.lastRead c Handle.null = .ok (some why.message) := by
  cases c with
  | zoo => exact zooSite.lastError_thread hmissed
  | calculator => exact calculatorSite.lastError_thread hmissed
  | primes => exact primesSite.lastError_thread hmissed

end Component

/-! ## Asking -/

theorem Fixed.getLastError_refused {p : Part (Process ω) O} {why : Fault}
    (hr : (p.lastError x s).1 = .error why) (capacity : UInt32) (place : Place UInt32 UInt8)
    (hasError : Cell Bool) :
    (getLastError p x capacity place hasError s).1 = (why.code, place, hasError) := by
  have hread : Ends (fun s' => s' = s) (p.lastError x).run fun r _ => r = .error why := by
    rintro _ rfl
    exact hr
  have hall : Ends (fun s' => s' = s) (getLastError p x capacity place hasError)
      fun a _ => a = (why.code, place, hasError) := by
    refine .bind hread fun r => ?_
    rintro _ rfl
    rfl
  exact hall s rfl

section

variable {c : Component} {why : Fault} (capacity : UInt32) (place : Place UInt32 UInt8)
  (hasError : Cell Bool)

theorem getLastError_found (h : s.lastRead c x = .ok (some why.message)) :
    (perform out via (.getLastError c x capacity place hasError) s).1 =
      reading (some why) capacity place hasError := by
  cases c with
  | zoo => exact Fixed.getLastError_answer (p := Process.zooPart) (e := some why) h capacity place hasError
  | calculator =>
    exact Fixed.getLastError_answer (p := Process.calculatorPart) (e := some why) h capacity place
      hasError
  | primes => exact Fixed.getLastError_answer (p := Process.primesPart) (e := some why) h capacity place hasError

theorem getLastError_refused (h : s.lastRead c x = .error why) :
    (perform out via (.getLastError c x capacity place hasError) s).1 =
      (why.code, place, hasError) := by
  cases c with
  | zoo => exact Fixed.getLastError_refused (p := Process.zooPart) h capacity place hasError
  | calculator =>
    exact Fixed.getLastError_refused (p := Process.calculatorPart) h capacity place hasError
  | primes => exact Fixed.getLastError_refused (p := Process.primesPart) h capacity place hasError

end

namespace Host.Library

variable {l : Library} (hl : l.Home) {why : Fault}
include hl

/-- One call serves the message, and tells that there is one. -/
theorem askLastError_found (ht : Servable why.message)
    (h : s.lastRead l.component x = .ok (some why.message)) (room : Room UInt32) (flag : Bool) :
    l.askLastError out.invoker x room (s, flag) =
      (.ok (textFilling why.message room), (s, true)) := by
  obtain ⟨place, hserve, hfilled⟩ : ∃ place,
      Exchange.serveText why.message room.capacity room.narrow = .ok place ∧
        place.filled = textFilling why.message room := by
    have hserve := Exchange.serveText_filling ht room
    revert hserve
    cases Exchange.serveText why.message room.capacity room.narrow with
    | ok place => exact fun h => ⟨place, rfl, Except.ok.inj h⟩
    | error why => exact fun h => by cases h
  have hcall : l.call out.invoker (.getLastError l.component x room.capacity room.narrow (some flag))
      s = ((Status.ok, place, some true), s) := by
    rw [hl.call]
    refine Prod.ext ((getLastError_found _ _ _ h).trans ?_) (getLastError_same _ _ _ _ _ s)
    rw [reading]
    dsimp only [Option.map_some, Option.getD_some]
    rw [hserve]
    rfl
  simp only [askLastError, hcall, if_pos, hfilled, Option.getD_some]

theorem askLastError_refused {why : Fault} (hcode : why.code ≠ Status.ok)
    (h : s.lastRead l.component x = .error why) (room : Room UInt32) (flag : Bool) :
    l.askLastError out.invoker x room (s, flag) =
      (.error (.native l.component.name why.code none), (s, flag)) := by
  have hcall : l.call out.invoker (.getLastError l.component x room.capacity room.narrow (some flag))
      s = ((why.code, room.narrow, some flag), s) := by
    rw [hl.call]
    exact Prod.ext (getLastError_refused _ _ _ h) (getLastError_same _ _ _ _ _ s)
  simp only [askLastError, hcall, if_neg hcode, Option.getD_some]

/-- A message that can be counted and does not end with a zero is read as it was recorded. -/
theorem fetchLastError_found (ht : Servable why.message)
    (hend : why.message.toList.getLast? ≠ some '\x00')
    (h : s.lastRead l.component x = .ok (some why.message)) :
    ∃ notes, l.fetchLastError out.invoker x s = (.ok (some why.message), s.noted notes) := by
  have hfill (room : Room UInt32) : Does (fun q : Process ω × Bool => ∃ notes, q.1 = s.noted notes)
      (l.askLastError out.invoker x room) (fun filled q => filled = textFilling why.message room ∧
        q.2 = true ∧ ∃ notes, q.1 = s.noted notes) fun _ _ => False := by
    refine .of_run fun ⟨s', flag⟩ ⟨notes, hs⟩ => .inl ⟨_, (s.noted notes, true), ?_, rfl, rfl, notes,
      rfl⟩
    obtain rfl : s' = s.noted notes := hs
    exact askLastError_found hl ht ((Process.lastRead_noted notes _ x).trans h) room flag
  have hnote (n : UInt64) (q : Process ω × Bool) (hq : q.2 = true ∧ ∃ notes, q.1 = s.noted notes) :
      (Journal.note (.fetched n) q).2 = true ∧
        ∃ notes, (Journal.note (.fetched n) q).1 = s.noted notes := by
    obtain ⟨hflag, notes, hs⟩ := hq
    refine ⟨hflag, .fetched n :: notes, ?_⟩
    show Journal.note (.fetched n) q.1 = _
    rw [hs]
    rfl
  obtain ⟨r, ⟨s', flag⟩, hrun, rfl, rfl, notes, rfl⟩ := (Exchange.fetchText_served ht hfill hend
    (fun _ hq => hq.2) hnote l.options.attempts).run_ok (s := (s, false)) ⟨[], rfl⟩
  exact ⟨notes, fetchLastError_run hrun⟩

/-- The first call fails, and there is no other. -/
theorem fetchLastError_refused {why : Fault} (hcode : why.code ≠ Status.ok)
    (h : s.lastRead l.component x = .error why) :
    l.fetchLastError out.invoker x s = (.error (.native l.component.name why.code none), s) := by
  have hrun : Exchange.fetchText l.options.attempts (l.askLastError out.invoker x) (s, false) = _ :=
    Exchange.fetchText_fails _ (askLastError_refused hl hcode h .query false)
  exact fetchLastError_run hrun

/-- The failure comes with the message that is read. -/
theorem checkStatus_read {status : Status} (hne : status ≠ Status.ok) (ht : Servable why.message)
    (hend : why.message.toList.getLast? ≠ some '\x00')
    (h : s.lastRead l.component x = .ok (some why.message)) :
    ∃ notes, l.checkStatus out.invoker x status s =
      (.error (.native l.component.name status (some why.message)), s.noted notes) := by
  obtain ⟨notes, hfetch⟩ := fetchLastError_found hl ht hend h
  exact ⟨notes, checkStatus_run hne (messageFor_found hfetch)⟩

/-- The message is left out if it cannot be had. -/
theorem checkStatus_unread {status : Status} (hne : status ≠ Status.ok) {why : Fault}
    (hcode : why.code ≠ Status.ok) (h : s.lastRead l.component x = .error why) :
    ∃ notes, l.checkStatus out.invoker x status s =
      (.error (.native l.component.name status none), s.noted notes) := by
  have hmessage : l.messageFor out.invoker x status s = (none, s.noted
      [.messageLost l.component.name status (.native l.component.name why.code none)]) :=
    messageFor_lost (fetchLastError_refused hl hcode h)
  exact ⟨_, checkStatus_run hne hmessage⟩

/-- Whatever message there is, the failure is over the status, and notes are all that is left. -/
theorem checkStatus_blames {status : Status} (hne : status ≠ Status.ok) (x : Handle)
    (s : Process ω) : ∃ message notes, l.checkStatus out.invoker x status s =
      (.error (.native l.component.name status message), s.noted notes) := by
  have hnotes : OutlastsNotes fun u : Process ω => ∃ notes, u = s.noted notes :=
    fun n _ u ⟨notes, hu⟩ => ⟨n :: notes, hu ▸ rfl⟩
  obtain ⟨notes, hnoted⟩ : ∃ notes, (l.messageFor out.invoker x status s).2 = s.noted notes :=
    messageFor_does hnotes hl x status s ⟨[], rfl⟩
  have hmessage : l.messageFor out.invoker x status s =
      ((l.messageFor out.invoker x status s).1, s.noted notes) := Prod.ext rfl hnoted
  exact ⟨_, notes, checkStatus_run hne hmessage⟩

/-- A failure of a call with the target `x` comes with its own message, unless the message is
    asked for with a target that is gone. -/
theorem checkStatus_failed (out : Outside ω) (slot : Handle) (hcode : why.code ≠ Status.ok)
    (ht : Servable why.message) (hend : why.message.toList.getLast? ≠ some '\x00')
    (hslot : slot = x ∨ slot = Handle.null ∧
      ((l.component.fail x why s).2.count? l.component x).isSome = false) (before : List Note) :
    ∃ notes, l.checkStatus out.invoker slot why.code ((l.component.fail x why s).2.noted before) =
      (.error (.native l.component.name why.code
        ((l.component.fail x why s).2.reported l.component slot why)),
        (l.component.fail x why s).2.noted notes) := by
  have hread (h : (l.component.fail x why s).2.lastRead l.component slot = .ok (some why.message)) :
      ∃ notes, l.checkStatus out.invoker slot why.code ((l.component.fail x why s).2.noted before) =
        (.error (.native l.component.name why.code (some why.message)),
          (l.component.fail x why s).2.noted notes) := by
    obtain ⟨more, hrun⟩ := checkStatus_read hl hcode ht hend
      ((Process.lastRead_noted before _ slot).trans h)
    exact ⟨more ++ before, hrun.trans (by rw [Process.noted_noted])⟩
  unfold Process.reported
  by_cases hnull : slot = Handle.null
  · -- the running thread has it
    rw [if_pos (.inl (Table.isNull_iff.mpr hnull))]
    subst hnull
    refine hread (Component.recorded_thread ?_)
    rcases hslot with rfl | ⟨-, hgone⟩
    · exact .inl rfl
    · exact .inr hgone
  · obtain rfl : slot = x := hslot.resolve_right fun h => hnull h.1
    have hx : slot.isNull = false := Bool.eq_false_iff.mpr fun h => hnull (Table.isNull_iff.mp h)
    by_cases hlive : ((l.component.fail slot why s).2.count? l.component slot).isSome = true
    · rw [if_pos (.inr hlive)]
      exact hread (Component.recorded_live hx hlive)
    · rw [if_neg (by simp [hx, hlive])]
      have hgone := (Process.lastRead_noted before _ slot).trans
        (Process.lastRead_gone hx (by simpa using hlive))
      have hlost : (Fault.unknownHandle slot).code ≠ Status.ok :=
        (by decide : Status.invalidParam ≠ Status.ok)
      obtain ⟨more, hrun⟩ := checkStatus_unread hl hcode hlost hgone
      exact ⟨more ++ before, hrun.trans (by rw [Process.noted_noted])⟩

end Host.Library

end Boundary
