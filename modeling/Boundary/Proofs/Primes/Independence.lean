/-
  Boundary.Proofs.Primes.Independence — calculators do not interfere.

  The calculators of the primes component share a table, the counter of handles and, for failures
  without an object, a last error per thread. An operation on one of them keeps to its slot all
  the same: what it answers and what it leaves there is told by what was there, and the other
  slots stay as they are (`Local`). A calculation does so as long as its callback makes no calls
  and decides from the fraction that it is told alone.

  Proved: in a sequence of operations on any calculators, on any threads, those on one of them
  answer what they answer when the others are left out, and leave the same in its slot
  (`calculators_independent`).
-/
import Boundary.Proofs.Errors.Channel
import Boundary.Proofs.Intact.Tables

namespace Boundary

open Exchange (Cell Place)

variable {ω α β ρ : Type} {out : Outside ω} {via : Invoker (Process ω)} {s s' : Process ω}
  {a x : Handle}

def Process.slot (s : Process ω) (x : Handle) : Option (Slot Primes.Object) := s.primes.slots.get? x

/-- The computation depends on the slot of one calculator, and changes no other one. -/
structure Local (a : Handle) (y : Act ω α) : Prop where
  /-- The answer. -/
  answer : ∀ {s s'}, s.slot a = s'.slot a → (y s).1 = (y s').1
  /-- What is left in the slot. -/
  leaves : ∀ {s s'}, s.slot a = s'.slot a → (y s).2.slot a = (y s').2.slot a
  others : ∀ s {x}, x ≠ a → (y s).2.slot x = s.slot x

namespace Local

theorem pure (r : α) : Local a (pure r : Act ω α) := ⟨fun _ => rfl, fun h => h, fun _ _ _ => rfl⟩

theorem bind {y : Act ω α} {f : α → Act ω β} (hy : Local a y) (hf : ∀ r, Local a (f r)) :
    Local a (y >>= f) where
  answer {s s'} h := by
    show (f (y s).1 (y s).2).1 = (f (y s').1 (y s').2).1
    rw [hy.answer h]
    exact (hf _).answer (hy.leaves h)
  leaves {s s'} h := by
    show (f (y s).1 (y s).2).2.slot a = (f (y s').1 (y s').2).2.slot a
    rw [hy.answer h]
    exact (hf _).leaves (hy.leaves h)
  others s x hx := ((hf _).others _ hx).trans (hy.others s hx)

/-- It answers the same from every state, and changes nothing but what is outside the components. -/
theorem outside {y : Act ω α} {r : α} (h : ∀ s, ∃ w, y s = (r, { s with outer := w })) :
    Local a y where
  answer {s s'} _ := by
    obtain ⟨w, hw⟩ := h s
    obtain ⟨w', hw'⟩ := h s'
    rw [hw, hw']
  leaves {s s'} hs := by
    obtain ⟨w, hw⟩ := h s
    obtain ⟨w', hw'⟩ := h s'
    rw [hw, hw']
    exact hs
  others s x _ := by
    obtain ⟨w, hw⟩ := h s
    rw [hw]
    rfl

/-- It changes nothing. -/
theorem reads {y : Act ω α} (hy : ∀ s, (y s).2 = s)
    (h : ∀ {s s'}, s.slot a = s'.slot a → (y s).1 = (y s').1) : Local a y where
  answer := h
  leaves {s s'} hs := by rwa [hy, hy]
  others s x _ := by rw [hy]

/-- What it answers and what it does to the slot are functions of that. -/
theorem of_slot {y : Act ω α} (answers : Option (Slot Primes.Object) → α)
    (change : Option (Slot Primes.Object) → Option (Slot Primes.Object))
    (h : ∀ s, (y s).1 = answers (s.slot a) ∧
      ∀ x, (y s).2.slot x = if a = x then change (s.slot x) else s.slot x) : Local a y where
  answer {s s'} hs := by rw [(h s).1, (h s').1, hs]
  leaves {s s'} hs := by rw [(h s).2, (h s').2, if_pos rfl, if_pos rfl, hs]
  others s x hx := by rw [(h s).2, if_neg hx.symm]

/-! ## Operations -/

theorem ok (r : α) : Local a (Pure.pure r : Op (Process ω) α).run := Local.pure (Except.ok r)

theorem throw (e : Fault) : Local a (throw e : Op (Process ω) α).run := Local.pure (Except.error e)

theorem lift (r : Except Fault α) : Local a (liftM r : Op (Process ω) α).run := by
  cases r with
  | ok r => exact .ok r
  | error e => exact .throw e

theorem monadLift {y : Act ω α} (hy : Local a y) : Local a (liftM y : Op (Process ω) α).run :=
  show Local a (y >>= fun r => Pure.pure (Except.ok r)) from hy.bind fun r => .pure (Except.ok r)

theorem chain {op : Op (Process ω) α} {f : α → Op (Process ω) β} (hop : Local a op.run)
    (hf : ∀ r, Local a (f r).run) : Local a (op >>= f).run := by
  show Local a (op.run >>= ExceptT.bindCont f)
  refine hop.bind fun r => ?_
  cases r with
  | ok r => exact hf r
  | error e => exact .pure (Except.error e)

theorem ite {c : Prop} [Decidable c] {y z : Op (Process ω) α} (hy : Local a y.run)
    (hz : Local a z.run) : Local a (if c then y else z).run := by
  split
  · exact hy
  · exact hz

end Local

namespace Primes

/-! ## The store -/

theorem get_local (a : Handle) : Local a (part (ω := ω).get a).run := by
  refine .reads (fun _ => rfl) fun {s s'} h => ?_
  exact Table.get_congr (congrArg (Option.map Slot.object) h)

theorem hold_local (a : Handle) : Local a (part (ω := ω).hold a).run := by
  refine .reads (fun _ => rfl) fun {s s'} h => ?_
  show s.primes.hold a = s'.primes.hold a
  unfold Table.hold
  rw [show s.primes.slots.get? a = s'.primes.slots.get? a from h]

theorem update_local (a : Handle) (f : Object → Object) : Local a (part (ω := ω).update a f).run :=
  .of_slot (fun _ => .ok ()) (Option.map fun b => { b with object := f b.object }) fun _ =>
    ⟨rfl, fun _ => Handle.Map.get?_modify _ _ _ _⟩

theorem updateHeld_local (a : Handle) (n : Nat) (f : Object → Object) :
    Local a (part (ω := ω).updateHeld a n f).run :=
  .of_slot (fun _ => .ok ())
    (Option.map fun b => if b.serial = n then { b with object := f b.object } else b) fun _ =>
    ⟨rfl, fun _ => Handle.Map.get?_modify _ _ _ _⟩

/-- What a call holds is what it sees, while the object is there. -/
theorem held_of_hold {t : Table Object} {n : Nat} {o : Object} (h : t.hold a = .ok (n, o)) :
    t.held? a n = some o := by
  unfold Table.hold at h
  split at h
  · cases h
  · split at h
    · next b hb =>
      cases h
      exact Table.held_of_slot hb
    · cases h

/-- A slot that stays as it is. -/
theorem slot_kept {change : Option (Slot Object) → Option (Slot Object)}
    (h : change (s.slot a) = s.slot a) (x : Handle) :
    s.slot x = if a = x then change (s.slot x) else s.slot x := by
  split
  · next hx => rw [← hx, h]
  · rfl

theorem acquire_local (a : Handle) : Local a (part (ω := ω).acquire a).run := by
  refine .of_slot (Option.elim · (.error (.unknownHandle a)) fun b =>
      if b.count = 4294967295 then .error .countOverflow else .ok ())
    (Option.map fun b => if b.count = 4294967295 then b else { b with count := b.count + 1 })
    fun s => ?_
  show (part.acquire a s).1 = _ ∧ ∀ x, (part.acquire a s).2.slot x = _
  cases hs : s.slot a with
  | none =>
    have ha : s.primes.acquire a = .error (.unknownHandle a) := by
      rw [Table.acquire, show s.primes.slots.get? a = none from hs]
    rw [Part.acquire_error (p := part) ha]
    exact ⟨rfl, slot_kept (by rw [hs]; rfl)⟩
  | some b =>
    by_cases hc : b.count = 4294967295
    · have ha : s.primes.acquire a = .error .countOverflow := by
        rw [Table.acquire, show s.primes.slots.get? a = some b from hs]
        exact if_pos hc
      rw [Part.acquire_error (p := part) ha]
      exact ⟨(if_pos hc).symm, slot_kept (by rw [hs, Option.map_some, if_pos hc])⟩
    · have ha : s.primes.acquire a = .ok (s.primes.setCount a (b.count + 1)) := by
        rw [Table.acquire, show s.primes.slots.get? a = some b from hs]
        exact if_neg hc
      rw [Part.acquire_ok (p := part) ha]
      refine ⟨(if_neg hc).symm, fun x => (Handle.Map.get?_modify _ _ _ _).trans
        (ite_congr rfl (fun hx => ?_) fun _ => rfl)⟩
      rw [← hx, hs, show s.primes.slots.get? a = some b from hs, Option.map_some, Option.map_some,
        if_neg hc]

/-- A calculator owns no other object, so a release is one call. -/
theorem release_once (t : Table Object) (x : Handle) :
    t.release x = ((t.releaseOnce x).1, [⟨x, none, (t.releaseOnce x).2.1⟩]) := by
  have hnone : (t.releaseOnce x).2.2 = [] := by
    unfold Table.releaseOnce
    split
    · rfl
    · split
      · rfl
      · split <;> rfl
  refine Table.release_single ?_
  rw [← hnone]

theorem release_local (a : Handle) : Local a (part (ω := ω).release a).run := by
  have hanswer (s : Process ω) : ((part (ω := ω).release a).run s).1 =
      Release.answer [⟨a, none, (s.primes.releaseOnce a).2.1⟩] := by
    show Release.answer (s.primes.release a).2 = _
    rw [release_once]
  have hslot (s : Process ω) (x : Handle) : ((part (ω := ω).release a).run s).2.slot x =
      (s.primes.releaseOnce a).1.slots.get? x := by
    show (s.primes.release a).1.slots.get? x = _
    rw [release_once]
  by_cases hn : a.isNull = true
  · refine .of_slot (fun _ => .ok ()) id fun s => ?_
    have honce : s.primes.releaseOnce a = (s.primes, .null, []) := by
      rw [Table.releaseOnce, if_pos hn]
    simp only [hanswer, hslot, honce]
    exact ⟨rfl, slot_kept rfl⟩
  have hn : a.isNull = false := by simpa using hn
  refine .of_slot (Option.elim · (.error (.unknownHandle a)) fun _ => .ok ())
    (Option.bind · fun b => if b.count ≤ 1 then none else some { b with count := b.count - 1 })
    fun s => ?_
  simp only [hanswer, hslot]
  cases hs : s.slot a with
  | none =>
    have honce : s.primes.releaseOnce a = (s.primes, .unknown, []) := by
      rw [Table.releaseOnce, if_neg (by simp [hn]), show s.primes.slots.get? a = none from hs]
    rw [honce]
    refine ⟨rfl, fun x => ?_⟩
    by_cases hx : a = x
    · rw [if_pos hx, ← hx, hs]
      exact hs
    · exact (if_neg hx).symm
  | some b =>
    by_cases hc : b.count ≤ 1
    · rw [Table.releaseOnce_last hn hs hc]
      refine ⟨rfl, fun x => (Table.get?_destroy _ _ _ _).trans
        (ite_congr rfl (fun hx => ?_) fun _ => rfl)⟩
      rw [← hx, hs, Option.bind_some, if_pos hc]
    · rw [Table.releaseOnce_kept hn hs hc]
      refine ⟨rfl, fun x => (Table.get?_setCount _ _ _ _).trans
        (ite_congr rfl (fun hx => ?_) fun _ => rfl)⟩
      rw [← hx, hs, Option.bind_some, if_neg hc]
      exact congrArg (Option.map _) hs

/-! ## Failures -/

theorem fail_primes (a : Handle) (why : Fault) (s : Process ω) : (part.fail a why s).2.primes =
    if !a.isNull && s.primes.live a then s.primes.setError a why.message else s.primes := by
  rw [Part.fail_run fun _ => rfl]
  show (if !a.isNull && s.primes.live a then _ else _ : Store Object).table = _
  split <;> rfl

/-- A failure is recorded in the slot of the target, or not in any. -/
theorem fail_local (a : Handle) (why : Fault) : Local a (part (ω := ω).fail a why) := by
  by_cases hn : a.isNull = true
  · refine .of_slot (fun _ => ()) id fun s => ⟨rfl, fun x => ?_⟩
    rw [Process.slot, fail_primes, hn]
    exact (ite_self _).symm
  refine .of_slot (fun _ => ()) (Option.map fun b => { b with lastError := some why.message })
    fun s => ⟨rfl, fun x => ?_⟩
  rw [Process.slot, fail_primes]
  by_cases hlive : s.primes.live a = true
  · rw [if_pos (by simp [hn, hlive])]
    exact Handle.Map.get?_modify _ _ _ _
  · rw [if_neg (by simp [hlive])]
    have hgone : s.slot a = none := by
      by_contra h
      obtain ⟨b, hb⟩ := Option.ne_none_iff_exists'.mp h
      exact hlive (Table.live_iff.mpr ⟨b, hb⟩)
    exact slot_kept (by rw [hgone]; rfl) x

theorem guard_local {cells : ρ} {op : Op (Process ω) ρ} (hop : Local a op.run) :
    Local a (part.guard a cells op) := by
  refine hop.bind fun r => ?_
  cases r with
  | ok after => exact .pure (Status.ok, after)
  | error why => exact (fail_local a why).bind fun _ => .pure (why.code, cells)

end Primes

/-! ## Calculations -/

/-- Callbacks make no calls, and whether they stop a calculation is told by the fraction alone. -/
def Outside.Decides (out : Outside ω) (decision : Foreign → Float32 → Bool) : Prop :=
  ∀ f p s, ∃ w, out.progress f p s = (decision f p.fraction, { s with outer := w })

namespace Primes

variable {decision : Foreign → Float32 → Bool} (hout : out.Decides decision)

section

variable {report : Progress → Op (Process ω) Unit} (hr : ∀ p, Local a (report p).run)
include hr

theorem factorsFrom_local (value rest d : UInt64) (hd : 2 ≤ d) :
    Local a (factorsFrom report value rest d hd).run := by
  fun_induction factorsFrom report value rest d hd with
  | case1 rest d hd hn => exact .ok _
  | case2 rest d hd e hn found ih => exact .chain (hr _) fun _ => .chain ih fun _ => .ok _

theorem sieveFrom_local (table : Marks) (c : Nat) (hc : 0 < c) :
    Local a (sieveFrom report table c hc).run := by
  fun_induction sieveFrom report table c hc with
  | case1 table c hc h hlt hm ih => exact ih
  | case2 table c hc h hlt hm struck ih => exact .chain (hr _) fun _ => ih
  | case3 table c hc h => exact .ok _

theorem factorize_local (value : UInt64) : Local a (factorize value report).run :=
  .chain (hr .start) fun _ => .chain (factorsFrom_local hr _ _ _ _) fun _ =>
    .chain (hr .finish) fun _ => .ok _

theorem sieve_local (limit : UInt64) : Local a (sieve limit report).run := by
  have hrest : Local a (do
      report .start
      let table ← sieveFrom report (.blank (limit.toNat + 1)) 2 (by decide)
      report .finish
      return unmarked table table.size [] : Op (Process ω) (List UInt64)).run :=
    .chain (hr .start) fun _ => .chain (sieveFrom_local hr _ _ _) fun _ =>
      .chain (hr .finish) fun _ => .ok _
  exact .ite (.chain (.throw _) fun _ => hrest) hrest

end

include hout

theorem report_local (callback : Option Foreign) (p : Progress) :
    Local a (report out callback p).run := by
  unfold report
  split
  · exact .ok ()
  · next f =>
    refine .chain (.monadLift (.outside (hout f p))) fun stop => ?_
    exact .ite (.throw _) (.ok ())

theorem outcome_local (o : Object) : Local a (outcome out o).run := by
  have hr := report_local (a := a) hout o.callback
  unfold outcome
  split
  · exact .chain (factorize_local hr _) fun _ => .ok _
  · exact .chain (sieve_local hr _) fun _ => .ok _

/-- All calculators are as they were when a calculation is over. -/
theorem outcome_same (o : Object) (t : Table Object) : Does (fun s => s.primes = t) (outcome out o)
    (fun _ s => s.primes = t) fun _ _ => True := by
  have hprogress (f : Foreign) (p : Progress) :
      Ends (fun s => s.primes = t) (out.progress f p) fun _ s => s.primes = t := by
    intro s hs
    obtain ⟨w, hw⟩ := hout f p s
    rw [hw]
    exact hs
  exact (outcome_fares (report_fares hprogress o.callback)).mono (fun _ h => h) (fun _ _ h => h.2)
    fun _ _ _ => trivial

/-- So the value is still the one that the calculation began with, and need not be looked at. -/
theorem calculate_local (a : Handle) : Local a (calculate out a) := by
  let settle : Op (Process ω) Unit := do
    let held ← part.hold a
    let found ← outcome out held.2
    part.updateHeld a held.1 fun o => { o with result := some found }
  have hsettle : Local a settle.run := .chain (hold_local a) fun held =>
    .chain (outcome_local hout held.2) fun _ => updateHeld_local a held.1 _
  have hsame : calculate out a = part.guard a () settle := by
    funext s
    refine Part.guard_congr (run_bind_congr fun held t ht => ?_)
    obtain ⟨serial, o⟩ := held
    refine run_bind_congr fun found u hu => ?_
    have hhold : s.primes.hold a = .ok (serial, o) := congrArg Prod.fst ht
    obtain rfl : s = t := congrArg Prod.snd ht
    have hprimes : u.primes = s.primes := (outcome_same hout o s.primes).after_ok rfl hu
    have hheld : u.primes.held? a serial = some o := hprimes ▸ held_of_hold hhold
    refine (run_bind_ok (show part.held? a serial u = (.ok (some o), u) from
      congrArg (fun r => (Except.ok r, u)) hheld)).trans ?_
    exact congrFun (if_neg (not_not.mpr rfl)) u
  rw [hsame]
  exact guard_local hsettle

omit hout

/-! ## All operations -/

/-- A result is served from the object, which is of one of the two kinds. -/
theorem fetch_local (kind : Kind) (why : Fault) (cells : ρ)
    {serve : Object → Op (Process ω) ρ} (hserve : ∀ o, Local a (serve o).run) :
    Local a (part.guard a cells do
      let o ← part.get a
      if o.kind ≠ kind then
        throw why
      serve o) :=
  guard_local (.chain (get_local a) fun o =>
    .ite (.chain (.throw why) fun _ => hserve o) (hserve o))

theorem lastError_local (hn : a.isNull = false) : Local a (part (ω := ω).lastError a).run := by
  have hread (s : Process ω) : (part.lastError a s).1 =
      (s.slot a).elim (.error (.unknownHandle a)) fun b => .ok b.lastError := by
    unfold Part.lastError
    dsimp only
    rw [if_neg (by simp [hn])]
    have hslot : (part.view s).table.slots.get? a = s.slot a := rfl
    rw [hslot]
    cases s.slot a <;> rfl
  refine .reads (fun s => ?_) fun {s s'} h => ?_
  · show (part.lastError a s).2 = s
    unfold Part.lastError
    dsimp only
    split
    · rfl
    · split <;> rfl
  · show (part.lastError a s).1 = (part.lastError a s').1
    rw [hread, hread, h]

/-- The last error of a live object is its own. That of the null handle is not. -/
theorem getLastError_local (hn : a.isNull = false) (capacity : UInt32) (place : Place UInt32 UInt8)
    (hasError : Cell Bool) :
    Local a (Fixed.getLastError (part (ω := ω)) a capacity place hasError) := by
  refine .bind (lastError_local hn) fun r => ?_
  cases r with
  | error why => exact .pure _
  | ok message =>
    dsimp only
    split <;> exact .pure _

end Primes

/-! ## Operations -/

namespace Call

def operand {ρ : Type} : Call ρ → Option Handle
  | getValue x _ => some x
  | setValue x _ => some x
  | calculate x => some x
  | setProgressCallback x _ => some x
  | primeFactors x _ _ => some x
  | primes x _ _ => some x
  | getLastError .primes x _ _ _ => some x
  | acquireInstance .primes x => some x
  | releaseInstance .primes x => some x
  | classTypeId .primes x _ => some x
  | _ => none

end Call

/-- Every operation keeps to its calculator. -/
theorem perform_local {decision : Foreign → Float32 → Bool} (hout : out.Decides decision)
    {c : Call ρ} (hc : c.operand = some a) (hn : a.isNull = false) : Local a (perform out via c) := by
  cases c <;> try cases hc
  case getLastError c x capacity place hasError =>
    cases c <;> cases hc
    exact Primes.getLastError_local hn capacity place hasError
  case acquireInstance c x =>
    cases c <;> cases hc
    exact Primes.guard_local (Primes.acquire_local a)
  case releaseInstance c x =>
    cases c <;> cases hc
    exact Primes.guard_local (Primes.release_local a)
  case classTypeId c x tag =>
    cases c <;> cases hc
    exact Primes.guard_local (.chain (Primes.get_local a) fun _ => .chain (.lift _) fun _ => .ok _)
  case getValue value =>
    exact Primes.guard_local (.chain (.lift _) fun _ => .chain (Primes.get_local a) fun _ => .ok _)
  case setValue value =>
    exact Primes.guard_local (.chain (Primes.get_local a) fun _ => Primes.update_local a _)
  case calculate => exact Primes.calculate_local hout a
  case setProgressCallback callback =>
    exact Primes.guard_local (.chain (Primes.get_local a) fun _ => Primes.update_local a _)
  case primeFactors capacity place =>
    refine Primes.fetch_local .factorization .notFactorization place fun o => ?_
    split
    · exact .lift _
    · exact .throw _
  case primes capacity place =>
    refine Primes.fetch_local .sieve .notSieve place fun o => ?_
    split
    · exact .lift _
    · exact .throw _

/-! ## Sequences -/

structure Errand where
  thread : Nat
  {Cells : Type}
  call : Call Cells

structure Sight where
  {Cells : Type}
  answer : Status × Cells
  slot : Option (Slot Primes.Object)

namespace Errand

def run (out : Outside ω) (via : Invoker (Process ω)) (t : Errand) (s : Process ω) :
    (Status × t.Cells) × Process ω :=
  perform out via t.call (s.on t.thread)

def seen (out : Outside ω) (via : Invoker (Process ω)) (a : Handle) :
    List Errand → Process ω → List Sight
  | [], _ => []
  | t :: rest, s =>
    let u := t.run out via s
    if t.call.operand = some a then ⟨u.1, u.2.slot a⟩ :: seen out via a rest u.2
    else seen out via a rest u.2

variable {decision : Foreign → Float32 → Bool} (hout : out.Decides decision)
include hout

/-- Induction on the sequence: an operation on the calculator comes to the same in both, and one on
    another does nothing to it. -/
theorem seen_filter {errands : List Errand}
    (herrands : ∀ t ∈ errands, ∃ x, t.call.operand = some x ∧ x.isNull = false)
    (h : s.slot a = s'.slot a) :
    seen out via a errands s =
      seen out via a (errands.filter fun t => t.call.operand = some a) s' := by
  induction errands generalizing s s' with
  | nil => rfl
  | cons t rest ih =>
    obtain ⟨x, hx, hn⟩ := herrands t List.mem_cons_self
    have hrest := fun t ht => herrands t (List.mem_cons_of_mem _ ht)
    have hlocal : Local x (perform out via t.call) := perform_local hout hx hn
    by_cases hxa : x = a
    · subst hxa
      have hanswer : (t.run out via s).1 = (t.run out via s').1 := hlocal.answer h
      have hleaves : (t.run out via s).2.slot x = (t.run out via s').2.slot x := hlocal.leaves h
      rw [List.filter_cons_of_pos (by simp [hx]), seen, seen, if_pos hx, if_pos hx,
        ih hrest hleaves]
      have hsight : (⟨(t.run out via s).1, (t.run out via s).2.slot x⟩ : Sight) =
          ⟨(t.run out via s').1, (t.run out via s').2.slot x⟩ := by
        show (⟨_, _⟩ : Sight) = _
        exact congrArg₂ Sight.mk hanswer hleaves
      rw [hsight]
    · have hne : ¬ t.call.operand = some a := by
        rw [hx]
        exact fun e => hxa (Option.some.inj e)
      have hleft : (t.run out via s).2.slot a = s'.slot a :=
        (hlocal.others (s.on t.thread) (Ne.symm hxa)).trans h
      rw [List.filter_cons_of_neg (by simpa using hne), seen, if_neg hne]
      exact ih hrest hleft

end Errand

inductive Interleaved {α : Type _} : List α → List α → List α → Prop
  | nil : Interleaved [] [] []
  | left (x : α) {xs ys zs : List α} : Interleaved xs ys zs → Interleaved (x :: xs) ys (x :: zs)
  | right (y : α) {xs ys zs : List α} : Interleaved xs ys zs → Interleaved xs (y :: ys) (y :: zs)

namespace Interleaved

variable {α : Type _} {xs ys zs : List α}

theorem swap (h : Interleaved xs ys zs) : Interleaved ys xs zs := by
  induction h with
  | nil => exact .nil
  | left x _ ih => exact .right x ih
  | right y _ ih => exact .left y ih

theorem mem (h : Interleaved xs ys zs) {z : α} (hz : z ∈ zs) : z ∈ xs ∨ z ∈ ys := by
  induction h with
  | nil => exact .inl hz
  | left x _ ih =>
    rcases List.mem_cons.mp hz with rfl | hz
    · exact .inl List.mem_cons_self
    · exact (ih hz).imp_left (List.mem_cons_of_mem x)
  | right y _ ih =>
    rcases List.mem_cons.mp hz with rfl | hz
    · exact .inr List.mem_cons_self
    · exact (ih hz).imp_right (List.mem_cons_of_mem y)

/-- What tells the elements of the two lists apart gives the one list back. -/
theorem filter_eq (h : Interleaved xs ys zs) {p : α → Bool} (hxs : ∀ x ∈ xs, p x = true)
    (hys : ∀ y ∈ ys, p y = false) : zs.filter p = xs := by
  induction h with
  | nil => rfl
  | left x _ ih =>
    rw [List.filter_cons_of_pos (hxs x List.mem_cons_self),
      ih (fun z hz => hxs z (List.mem_cons_of_mem x hz)) hys]
  | right y _ ih =>
    rw [List.filter_cons_of_neg (by simp [hys y List.mem_cons_self]),
      ih hxs fun z hz => hys z (List.mem_cons_of_mem y hz)]

end Interleaved

/-- Two calculators of the primes component, and any sequence of operations on each, on any threads:
    however the two are interleaved, in any state, what is seen of either is what is seen
    of it alone, the answers and the count, the object and the last error after each operation. -/
theorem calculators_independent {decision : Foreign → Float32 → Bool} (hout : out.Decides decision)
    {a b : Handle} (hab : a ≠ b) (ha : a.isNull = false) (hb : b.isNull = false)
    {as bs errands : List Errand} (has : ∀ t ∈ as, t.call.operand = some a)
    (hbs : ∀ t ∈ bs, t.call.operand = some b) (h : Interleaved as bs errands) (s : Process ω) :
    Errand.seen out via a errands s = Errand.seen out via a as s ∧
    Errand.seen out via b errands s = Errand.seen out via b bs s := by
  have herrands : ∀ t ∈ errands, ∃ x, t.call.operand = some x ∧ x.isNull = false := by
    intro t ht
    rcases h.mem ht with ht | ht
    · exact ⟨a, has t ht, ha⟩
    · exact ⟨b, hbs t ht, hb⟩
  have has' : errands.filter (fun t => t.call.operand = some a) = as :=
    h.filter_eq (fun t ht => by simp [has t ht]) fun t ht => by simp [hbs t ht, hab.symm]
  have hbs' : errands.filter (fun t => t.call.operand = some b) = bs :=
    h.swap.filter_eq (fun t ht => by simp [hbs t ht]) fun t ht => by simp [has t ht, hab]
  refine ⟨(Errand.seen_filter hout herrands rfl).trans ?_,
    (Errand.seen_filter hout herrands rfl).trans ?_⟩
  · rw [has']
  · rw [hbs']

def paired : Process Unit :=
  let s := (perform idle .none (.createFactorization (some Handle.null)) { outer := () }).2
  (perform idle .none (.createSieve (some Handle.null)) s).2

def factoring : List Errand :=
  [⟨0, .setValue ⟨1⟩ 12⟩, ⟨1, .calculate ⟨1⟩⟩, ⟨0, .primes ⟨1⟩ 0 ⟨some 0, none⟩⟩,
   ⟨1, .getLastError .primes ⟨1⟩ 0 ⟨some 0, none⟩ (some false)⟩, ⟨0, .releaseInstance .primes ⟨1⟩⟩]

def sieving : List Errand :=
  [⟨0, .calculate ⟨2⟩⟩, ⟨0, .releaseInstance .primes ⟨2⟩⟩, ⟨0, .getValue ⟨2⟩ (some 0)⟩]

def alternating : List Errand :=
  [⟨0, .setValue ⟨1⟩ 12⟩, ⟨0, .calculate ⟨2⟩⟩, ⟨1, .calculate ⟨1⟩⟩,
   ⟨0, .releaseInstance .primes ⟨2⟩⟩, ⟨0, .primes ⟨1⟩ 0 ⟨some 0, none⟩⟩, ⟨0, .getValue ⟨2⟩ (some 0)⟩,
   ⟨1, .getLastError .primes ⟨1⟩ 0 ⟨some 0, none⟩ (some false)⟩, ⟨0, .releaseInstance .primes ⟨1⟩⟩]

/-- The failure of the one is no last error of the other. -/
theorem paired_independent :
    Interleaved factoring sieving alternating ∧
    Errand.seen idle .none ⟨1⟩ alternating paired = Errand.seen idle .none ⟨1⟩ factoring paired ∧
    (Errand.seen idle .none ⟨1⟩ factoring paired).map (·.answer.1) =
      [Status.ok, Status.ok, Status.invalidCast, Status.ok, Status.ok] := by
  have hout : idle.Decides fun _ _ => false := fun _ _ _ => ⟨(), rfl⟩
  have h : Interleaved factoring sieving alternating :=
    .left _ (.right _ (.left _ (.right _ (.left _ (.right _ (.left _ (.left _ .nil)))))))
  have hon (x : Handle) (errands : List Errand)
      (hall : errands.map (·.call.operand) = errands.map fun _ => some x) :
      ∀ t ∈ errands, t.call.operand = some x := List.map_inj_left.mp hall
  refine ⟨h, (calculators_independent hout (a := ⟨1⟩) (b := ⟨2⟩) (by decide) rfl rfl
    (hon _ _ rfl) (hon _ _ rfl) h paired).1, ?_⟩
  decide +kernel

end Boundary
