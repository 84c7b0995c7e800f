/-
  Boundary.Proofs.Calculator.Failures — failures inside the primes component, passed on.

  A calculator that is not served the primes of a sieve answers the status it got, and asks for
  the message: it counts it, fetches it, cuts it off at the first zero and reads what is left,
  whether it is a text or not. The messages of these failures lose nothing on that way. But the
  message can be had only where it was recorded: with the null handle, or on a live object. For
  any other handle a text with the status stands in for it.

  Proved: a calculator enlists the primes of a sieve if and only if the sieve serves them.
  Otherwise it fails with the same status and the same message, as far as that can be had, and
  nothing but last errors has changed (`enlistPrimes_passes_on`).
-/
import Boundary.Proofs.Calculator.Enlisting
import Boundary.Proofs.Exchange.Lossy

namespace Boundary

open Exchange (Buffer Cell Place Servable textCount)
open Process (calculatorPart primesPart)
open Registry (exported)

variable {ω : Type} {out : Outside ω} {via : Invoker (Process ω)} {s : Process ω} {w : ω}
  {c x : Handle} {vs : List Handle} {why : Fault} {lookup : Address}

/-! ## Places -/

/-- The caller can receive something, and room that it announces is there. -/
structure Exchange.Place.Receives {α : Type} (place : Place UInt64 α) (capacity : UInt64) : Prop where
  room : 0 < capacity → place.buffer.isSome = true
  somewhere : place.needed.isSome = true ∨ place.buffer.isSome = true

theorem Exchange.serveArray_receives {α : Type} (data : List α) {place : Place UInt64 α}
    {capacity : UInt64} (h : place.Receives capacity) :
    ∃ after, serveArray data capacity place = .ok after := by
  have hroom : ¬ (0 < capacity ∧ place.buffer.isNone = true) := by
    rintro ⟨hpos, hnone⟩
    have hsome := h.room hpos
    rw [Option.isNone_iff_eq_none] at hnone
    simp [hnone] at hsome
  have hplace : ¬ (place.needed.isNone = true ∧ place.buffer.isNone = true) := by
    rintro ⟨hneeded, hbuffer⟩
    have hsome := h.somewhere
    rw [Option.isNone_iff_eq_none] at hneeded hbuffer
    simp [hneeded, hbuffer] at hsome
  unfold serveArray
  rw [if_neg hroom, if_neg hplace]
  exact ⟨_, rfl⟩

/-! ## Sieves that serve nothing -/

namespace Primes

inductive Unserved (t : Table Object) (x : Handle) : Fault → Prop
  | null : x.isNull = true → Unserved t x .nullHandle
  | unknown : x.isNull = false → t.get? x = none → Unserved t x (.unknownHandle x)
  | kind {o : Object} : t.get x = .ok o → o.kind ≠ .sieve → Unserved t x .notSieve
  | result {o : Object} : t.get x = .ok o → o.kind = .sieve →
      (∀ ps, o.result ≠ some (.primes ps)) → Unserved t x .noPrimes

/-- Any handle names a sieve that holds primes, or there is a reason why it serves none. -/
theorem holds_or_unserved (t : Table Object) (x : Handle) :
    (∃ o ps, t.get x = .ok o ∧ o.Holds ps) ∨ ∃ why, Unserved t x why := by
  by_cases hn : x.isNull = true
  · exact .inr ⟨_, .null hn⟩
  have hnull : x.isNull = false := by simpa using hn
  cases ho : t.get? x with
  | none => exact .inr ⟨_, .unknown hnull ho⟩
  | some o =>
    have hget := Table.get_some hnull ho
    by_cases hk : o.kind = .sieve
    · by_cases hr : ∃ ps, o.result = some (.primes ps)
      · obtain ⟨ps, hps⟩ := hr
        exact .inl ⟨o, ps, hget, hk, hps⟩
      · exact .inr ⟨_, .result hget hk fun ps hps => hr ⟨ps, hps⟩⟩
    · exact .inr ⟨_, .kind hget hk⟩

namespace Unserved

/-- A call that asks for the primes fails over it, and records that. -/
theorem run (h : Unserved s.primes x why) (capacity : UInt64) (place : Place UInt64 UInt64) :
    primes x capacity place s = ((why.code, place), (part.fail x why s).2) := by
  refine Part.guard_of_error ?_
  cases h with
  | null hn =>
    have hget : s.primes.get x = .error .nullHandle := by
      simp only [Table.get, Table.hold, hn, if_pos]
      rfl
    exact run_bind_error (congrArg (·, s) hget)
  | unknown hn hx =>
    rw [Table.get?, Option.map_eq_none_iff] at hx
    have hget : s.primes.get x = .error (.unknownHandle x) := by
      simp only [Table.get, Table.hold, hn, hx]
      rfl
    exact run_bind_error (congrArg (·, s) hget)
  | kind hget hk =>
    refine (run_bind_ok (Part.get_run hget)).trans ?_
    rw [if_pos hk]
    rfl
  | @result o hget hk hr =>
    refine (run_bind_ok (Part.get_run hget)).trans ?_
    rw [if_neg (by simp [hk])]
    cases ho : o.result with
    | none => rfl
    | some found =>
      cases found with
      | factors _ => rfl
      | primes ps => exact absurd ho (hr ps)

theorem code (h : Unserved s.primes x why) : why.code ≠ Status.ok := by
  cases h with
  | null _ => exact (by decide : Status.invalidParam ≠ Status.ok)
  | unknown _ _ => exact (by decide : Status.invalidParam ≠ Status.ok)
  | kind _ _ => exact (by decide : Status.invalidCast ≠ Status.ok)
  | result _ _ _ => exact (by decide : Status.noResult ≠ Status.ok)

/-- The messages that can be had are short, and have no zeros. -/
theorem message (h : Unserved s.primes x why)
    (hx : x.isNull = true ∨ (s.primes.get? x).isSome = true) :
    Servable why.message ∧ '\x00' ∉ why.message.toList := by
  have hshort (t : String) (ht : t.utf8ByteSize < 64) : Servable t :=
    Nat.lt_trans ht (by decide)
  cases h with
  | null _ => exact ⟨hshort _ (by decide), by decide⟩
  | unknown hn hgone => simp [hn, hgone] at hx
  | kind _ _ => exact ⟨hshort _ (by decide), by decide⟩
  | result _ _ _ => exact ⟨hshort _ (by decide), by decide⟩

end Unserved

/-- A failure can be read back with the handle of the call, unless it names no object of the
    component. -/
theorem recorded (why : Fault) (hx : x.isNull = true ∨ (s.primes.get? x).isSome = true) :
    (part.fail x why s).2.lastRead .primes x = .ok (some why.message) := by
  by_cases hnull : x.isNull = true
  · obtain rfl := Table.isNull_iff.mp hnull
    exact Component.recorded_thread (c := .primes) (.inl rfl)
  · have hlive : (s.primes.get? x).isSome = true := hx.resolve_left hnull
    rw [Table.get?, Option.isSome_map] at hlive
    have hcount := primesSite.live_fail x why s
    exact Component.recorded_live (c := .primes) (by simpa using hnull) (hcount.trans hlive)

end Primes

/-! ## Reading the message -/

namespace Calculator

section

variable (hl : lookup.Native)
  (hf : s.registry.get? (Export.getLastError .primes).symbol = some (exported (.getLastError .primes)))
include hl hf

/-- A message that can be counted and has no zeros is read as it was recorded. -/
theorem readMessage_found (ht : Servable why.message) (hz : '\x00' ∉ why.message.toList)
    (h : s.lastRead .primes x = .ok (some why.message)) :
    readMessage (out.reach via) lookup x s = (.ok (some why.message), s) := by
  have hasked (capacity : UInt32) (place : Place UInt32 UInt8) (flag : Cell Bool) :
      (out.reach via).call (.native (.getLastError .primes))
        (.getLastError .primes x capacity place flag) s = (reading (some why) capacity place flag, s) :=
    Prod.ext (getLastError_found capacity place flag h) (getLastError_same ..)
  let n := textCount why.message
  have hcounted : reading (some why) 0 ⟨some 0, none⟩ (some false) =
      (Status.ok, ⟨some n, none⟩, some true) := by
    simp only [reading, Option.map_some, Option.getD_some, Exchange.serveText_query ht]
    rfl
  have hall : (Text.Utf8.write why.message ++ [0]).take n.toNat =
      Text.Utf8.write why.message ++ [0] := by
    refine List.take_of_length_le ?_
    rw [Exchange.length_bytes, Exchange.toNat_textCount ht]
  have hfetched : reading (some why) n ⟨some n, some (.fresh n.toNat 0)⟩ (some true) =
      (Status.ok, ⟨some n, some ((Buffer.fresh n.toNat 0).overwrite
        (Text.Utf8.write why.message ++ [0]))⟩, some true) := by
    simp only [reading, Option.map_some, Option.getD_some, Exchange.serveText_fresh ht, hall]
    rfl
  have hread : Text.Utf8.readLossy ((Buffer.fresh n.toNat 0).overwrite
      (Text.Utf8.write why.message ++ [0])).beforeBlank = why.message := by
    rw [Exchange.beforeBlank_served hz _ rfl, Text.Utf8.readLossy_write]
  unfold readMessage
  refine (run_bind_ok (Op.outcome_run (resolve_run hl (f := .getLastError .primes) rfl hf))).trans ?_
  refine (run_bind_ok (run_lift (hasked _ _ _))).trans ?_
  rw [hcounted]
  refine (run_bind_ok (run_lift (hasked n ⟨some n, some (.fresh n.toNat 0)⟩ (some true)))).trans ?_
  rw [hfetched]
  exact congrArg (fun message => (Except.ok (some message), s)) hread

/-- Asked for with a handle that names no object, it cannot be had. -/
theorem readMessage_refused {e : Fault} (he : e.code ≠ Status.ok)
    (h : s.lastRead .primes x = .error e) :
    readMessage (out.reach via) lookup x s = (.ok none, s) := by
  have hasked (capacity : UInt32) (place : Place UInt32 UInt8) (flag : Cell Bool) :
      (out.reach via).call (.native (.getLastError .primes))
        (.getLastError .primes x capacity place flag) s = ((e.code, place, flag), s) :=
    Prod.ext (getLastError_refused capacity place flag h) (getLastError_same ..)
  unfold readMessage
  refine (run_bind_ok (Op.outcome_run (resolve_run hl (f := .getLastError .primes) rfl hf))).trans ?_
  refine (run_bind_ok (run_lift (hasked _ _ _))).trans ?_
  simp [he]
  rfl

end

/-! ## Passing it on -/

def passedOn (s : Process ω) (x : Handle) (why : Fault) : String :=
  if x.isNull = true ∨ (s.primes.get? x).isSome = true then why.message else statusText why.code

/-- The calculator fails with the status of the call that it made, and with its message. -/
theorem readPrimes_fails (r : Reaches { outer := w } s) (reads : s.ReadsPrimes lookup)
    (h : Primes.Unserved s.primes x why) :
    readPrimes (out.reach via) lookup x s =
      (.error (.foreign why.code (passedOn s x why)), (primesPart.fail x why s).2) := by
  let s' := (primesPart.fail x why s).2
  have hsame : s.Intact s' := primesSpot.fail x why s (.refl s)
  have hf := r.offers reads.installed (f := .primes) rfl
  have hf' : s'.registry.get? (Export.getLastError .primes).symbol =
      some (exported (.getLastError .primes)) := by
    rw [hsame.registry]
    exact r.offers reads.installed rfl
  have hmessage : ∃ message, readMessage (out.reach via) lookup x s' = (.ok message, s') ∧
      message.getD (statusText why.code) = passedOn s x why := by
    by_cases hx : x.isNull = true ∨ (s.primes.get? x).isSome = true
    · obtain ⟨ht, hz⟩ := h.message hx
      exact ⟨_, readMessage_found reads.native hf' ht hz (Primes.recorded why hx), (if_pos hx).symm⟩
    · have hgone : (s'.count? .primes x).isSome = false := by
        have hlive := primesSite.live_fail x why s
        simp only [not_or, Table.get?, Option.isSome_map, Bool.not_eq_true] at hx
        exact hlive.trans hx.2
      have hnull : x.isNull = false := by
        simp only [not_or, Bool.not_eq_true] at hx
        exact hx.1
      have hcode : (Fault.unknownHandle x).code ≠ Status.ok :=
        (by decide : Status.invalidParam ≠ Status.ok)
      exact ⟨none, readMessage_refused reads.native hf' hcode (Process.lastRead_gone hnull hgone),
        (if_neg hx).symm⟩
  obtain ⟨message, hread, htext⟩ := hmessage
  have hcall : (out.reach via).call (.native .primes) (.primes x 0 ⟨some 0, none⟩) s =
      ((why.code, ⟨some 0, none⟩), s') := h.run 0 ⟨some 0, none⟩
  unfold readPrimes
  refine (run_bind_ok (resolve_run reads.native (f := .primes) rfl hf)).trans ?_
  refine (run_bind_ok (run_lift hcall)).trans ?_
  dsimp only
  rw [if_pos h.code]
  refine run_bind_error ?_
  refine (run_bind_ok hread).trans ?_
  rw [htext]
  rfl

theorem enlistPrimes_fails {e : Fault} {s' : Process ω} (hc : s.calculator.get c = .ok (.calculator vs))
    (hinjected : s.injected = some lookup)
    (h : readPrimes (out.reach via) lookup x s = (.error e, s')) :
    enlistPrimes (out.reach via) c x s = ((e.code, ()), (part.fail c e s').2) := by
  refine Part.guard_of_error ?_
  refine (run_bind_ok (enlistedIn_run hc)).trans ?_
  refine (run_bind_ok (show _ = (Except.ok s, s) from rfl)).trans ?_
  rw [hinjected]
  exact run_bind_error h

/-- The primes of a sieve are enlisted, and it holds them still. -/
theorem enlistPrimes_served {o : Primes.Object} {ps : List UInt64} (r : Reaches { outer := w } s)
    (reads : s.ReadsPrimes lookup) (hc : s.calculator.get c = .ok (.calculator vs))
    (hx : s.primes.get x = .ok o) (ho : o.Holds ps)
    (hb : s.shared.issued + ps.length < handleLimit) :
    let enlisted := enlistPrimes (out.reach via) c x s
    enlisted.1 = (Status.ok, ()) ∧ s.primes.Intact enlisted.2.primes := by
  have k : Kindred s s := r.kindred (.refl s) (by omega)
  have hraw : c.raw.toNat ≤ s.shared.issued :=
    (k.numbered .calculator c _ (congrArg (Option.map Object.className) (Table.get_ok hc))).2
  obtain ⟨notes, hrun⟩ := enlistPrimes_run out via reads (r.offers reads.installed rfl) hc
    (Shared.not_mem_nextHandles hraw hb) hx ho
    (Primes.listing_of_result r (Table.get_ok hx) ho.result)
  intro enlisted
  have henlisted : enlisted = ((Status.ok, ()), _) := hrun
  rw [henlisted]
  refine ⟨rfl, ?_⟩
  show s.primes.Intact (s.withVariables ps).primes
  rw [Process.withVariables_same]
  exact .refl _

/-- Where a sieve serves nothing, the calculator records what it passes on, and nothing but last
    errors has changed. -/
theorem enlistPrimes_unserved (r : Reaches { outer := w } s) (reads : s.ReadsPrimes lookup)
    (hc : s.calculator.get c = .ok (.calculator vs)) (h : Primes.Unserved s.primes x why) :
    let enlisted := enlistPrimes (out.reach via) c x s
    enlisted.1 = (why.code, ()) ∧
    enlisted.2.lastRead .calculator c = .ok (some (passedOn s x why)) ∧ s.Intact enlisted.2 := by
  have hsame : s.Intact (primesPart.fail x why s).2 := primesSpot.fail x why s (.refl s)
  let e : Fault := .foreign why.code (passedOn s x why)
  intro enlisted
  have henlisted : enlisted = ((why.code, ()), (calculatorPart.fail c e (primesPart.fail x why s).2).2) :=
    enlistPrimes_fails hc reads.injected (readPrimes_fails r reads h)
  rw [henlisted]
  refine ⟨rfl, ?_, calculatorSpot.fail c e _ hsame⟩
  rw [show passedOn s x why = e.message from rfl]
  refine Component.recorded_live (c := .calculator) (Table.isNull_of_get hc) ?_
  refine (calculatorSite.live_fail c e _).trans ?_
  have hlive := (hsame.calculator.get? c).trans (Table.get_ok hc)
  obtain ⟨a, ha, -⟩ := Option.map_eq_some_iff.mp hlive
  exact Table.live_iff.mpr ⟨a, ha⟩

/-- In a process whose calculators read from its own primes component, for any handle: a calculator
    enlists the primes of a sieve if and only if the sieve would serve them, to whoever can
    receive them, as long as there are handles left for the variables. Otherwise it answers the
    status that the sieve would answer. Its message is the one that would be recorded, and read
    back with the handle; only for a handle of no object of the primes component does a text with
    the status stand in for it. That message is the last error of the calculator then, and apart from
    last errors nothing has changed. Either way the primes component holds what it held. -/
theorem enlistPrimes_passes_on (r : Reaches { outer := w } s) (reads : s.ReadsPrimes lookup)
    (hc : s.calculator.get c = .ok (.calculator vs))
    (hb : ∀ o ps, s.primes.get x = .ok o → o.Holds ps →
      s.shared.issued + ps.length < handleLimit)
    {capacity : UInt64} {place : Place UInt64 UInt64} (hplace : place.Receives capacity) :
    let asked := perform out (out.reach via) (.primes x capacity place) s
    let enlisted := perform out (out.reach via) (.enlistPrimes c x) s
    (enlisted.1.1 = Status.ok ↔ asked.1.1 = Status.ok) ∧
    (asked.1.1 ≠ Status.ok → enlisted.1.1 = asked.1.1 ∧ ∃ message,
      (x.isNull = true ∨ (s.primes.get? x).isSome = true →
        asked.2.lastRead .primes x = .ok (some message)) ∧
      (x.isNull = false → s.primes.get? x = none → message = "Primes Error " ++ asked.1.1.text) ∧
      enlisted.2.lastRead .calculator c = .ok (some message) ∧ s.Intact enlisted.2) ∧
    s.primes.Intact enlisted.2.primes := by
  intro asked enlisted
  rcases Primes.holds_or_unserved s.primes x with ⟨o, ps, hx, ho⟩ | ⟨why, h⟩
  · obtain ⟨after, hserve⟩ := Exchange.serveArray_receives ps hplace
    have hasked : asked = ((Status.ok, after), s) := Primes.primes_run hx ho hserve
    obtain ⟨henlisted, hprimes⟩ : enlisted.1 = (Status.ok, ()) ∧
      s.primes.Intact enlisted.2.primes := enlistPrimes_served r reads hc hx ho (hb o ps hx ho)
    rw [hasked, henlisted]
    exact ⟨Iff.rfl, fun hne => absurd rfl hne, hprimes⟩
  · have hasked : asked = ((why.code, place), (primesPart.fail x why s).2) := h.run capacity place
    obtain ⟨henlisted, hrecorded, hintact⟩ : enlisted.1 = (why.code, ()) ∧
        enlisted.2.lastRead .calculator c = .ok (some (passedOn s x why)) ∧ s.Intact enlisted.2 :=
      enlistPrimes_unserved r reads hc h
    rw [hasked, henlisted]
    refine ⟨Iff.rfl, fun _ => ⟨rfl, passedOn s x why, fun hx => ?_, fun hn hgone => ?_, hrecorded,
      hintact⟩, hintact.primes⟩
    · rw [passedOn, if_pos hx]
      exact Primes.recorded why hx
    · rw [passedOn, if_neg (by simp [hn, hgone])]
      rfl

end Calculator

namespace Host.Calculator

/-- A calculator reads from a sieve, and then takes itself for one: that handle names nothing in the
    primes component. -/
theorem enlistPrimes_misread :
    (perform idle (idle.reach .none) (.enlistPrimes ⟨2⟩ ⟨1⟩) sieved).1.1 = Status.ok ∧
    (perform idle (idle.reach .none) (.enlistPrimes ⟨2⟩ ⟨2⟩) sieved).1.1 = Status.invalidParam ∧
    (perform idle (idle.reach .none) (.enlistPrimes ⟨2⟩ ⟨2⟩) sieved).2.lastRead .calculator ⟨2⟩ =
      .ok (some "Primes Error 2") := by
  obtain ⟨hinjected, hinstalled, hsieve, hcalculator, hissued⟩ := sieved_evaluates
  have r : Reaches { outer := () } sieved := idle_calling.after (.refl _) _
  have reads : sieved.ReadsPrimes .registryLookup := ⟨hinjected, ⟨_, rfl⟩, hinstalled⟩
  have hc : sieved.calculator.get ⟨2⟩ = .ok (.calculator [⟨3⟩]) := Table.get_some rfl hcalculator
  have hget : sieved.primes.get ⟨1⟩ = .ok ⟨.sieve, 7, none, some (.primes [2, 3, 5, 7])⟩ :=
    Table.get_some rfl hsieve
  have hgone : sieved.primes.get? ⟨2⟩ = none := by decide +kernel
  have hplace : (⟨some 0, none⟩ : Place UInt64 UInt64).Receives 0 :=
    ⟨fun h => absurd h (by decide), .inl rfl⟩
  have hserved : (perform idle (idle.reach .none) (.primes ⟨1⟩ 0 ⟨some 0, none⟩) sieved).1.1 =
      Status.ok := by decide +kernel
  have hmissed : (perform idle (idle.reach .none) (.primes ⟨2⟩ 0 ⟨some 0, none⟩) sieved).1.1 =
      Status.invalidParam := by decide +kernel
  obtain ⟨hiff, -, -⟩ := @Boundary.Calculator.enlistPrimes_passes_on _ idle .none _ _ _ ⟨1⟩ _ _
    r reads hc (fun o ps ho hps => by
      rw [hget] at ho
      cases ho
      cases hps.result
      rw [hissued]
      decide) _ _ hplace
  obtain ⟨-, hfails, -⟩ := @Boundary.Calculator.enlistPrimes_passes_on _ idle .none _ _ _ ⟨2⟩ _ _
    r reads hc (fun o ps ho _ => by
      rw [Table.get_ok ho] at hgone
      cases hgone) _ _ hplace
  rw [hmissed] at hfails
  obtain ⟨hstatus, message, -, htext, hread, -⟩ := hfails (by decide)
  refine ⟨hiff.mpr hserved, hstatus, hread.trans ?_⟩
  rw [htext rfl hgone]
  rfl

end Host.Calculator

end Boundary
