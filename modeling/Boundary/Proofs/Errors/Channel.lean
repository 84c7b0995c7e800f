/-
  Boundary.Proofs.Errors.Channel — the last-error channel is an exact history.

  Exports are called one after the other, on any threads; functions outside the components
  keep apart. Every call adds its events to the history: `issue` takes them from the notes
  the call makes. A call that has the calculator read a sieve makes calls into the primes
  component, which are events of its thread as well.

  Proved of every run from a fresh process (`last_errors_exact`):
  - the last error of a live object is the newest failure on it since it was created, whoever
    asks, and there is none if there was no failure;
  - without an object, a thread reads the newest of its own failures in the component that
    found no live object;
  - a call that succeeds, and one that is not guarded, such as reading the last error itself,
    changes neither; a guarded call that fails is the newest event, with the status it answers.
-/
import Boundary.Proofs.Errors.History

namespace Boundary

open Exchange (Cell Place)

variable {ω O ρ : Type} {out : Outside ω} {via : Invoker (Process ω)} {H : History} {t : Nat}
  {target : String → Handle} {s : Process ω}

/-! ## Calls on threads -/

/-- The target of the guarded functions that a call runs in a component: its own, or the sieve
    it has another component read. -/
def Call.targetIn (c : Call ρ) (component : String) : Handle :=
  match c.guard with
  | some (g, h) => if component = g.name then h else c.sieve
  | none => Handle.null

/-- One call of an exported function on a thread, with its events, newest first. -/
def issue (out : Outside ω) (t : Nat) (c : Call ρ) : Act ω ((Status × ρ) × History) := do
  modify fun s => { s with shared := { s.shared with thread := t } }
  let r ← out.invoker.call (.native c.target) c
  let notes ← takeNotes
  return (r, notes.reverse.filterMap (Event.ofNote t c.targetIn))

inductive Ran (out : Outside ω) : History → Process ω → Prop where
  | start (w : ω) : Ran out [] { outer := w }
  | call {H : History} {s : Process ω} (t : Nat) {ρ : Type} (c : Call ρ) : Ran out H s →
      Ran out ((issue out t c s).1.2 ++ H) (issue out t c s).2

def reading (error : Option Fault) (capacity : UInt32) (place : Place UInt32 UInt8)
    (hasError : Cell Bool) : Status × Place UInt32 UInt8 × Cell Bool :=
  match Exchange.serveText ((error.map Fault.message).getD "") capacity place with
  | .ok place => (Status.ok, place, hasError.write error.isSome)
  | .error why => (why.code, place, hasError.write error.isSome)

def Process.lastError? (s : Process ω) (c : Component) (x : Handle) : Option (Option String) :=
  match c with
  | .zoo => (s.zoo.slots.get? x).map (·.lastError)
  | .calculator => (s.calculator.slots.get? x).map (·.lastError)
  | .primes => (s.primes.slots.get? x).map (·.lastError)

/-! ## Notes of the registry -/

def Note.OfSymbols : Note → Prop
  | exportedTwice _ _ | installed _ _ | refused _ _ | registered _ _ | injected _ => True
  | _ => False

namespace Registry

theorem insertExports_notes (es : List Export) (r : Registry) :
    ∀ n ∈ (insertExports es r).2, n.OfSymbols := by
  induction es generalizing r with
  | nil => simp [insertExports]
  | cons e rest ih =>
    unfold insertExports
    dsimp only
    split
    · exact ih _
    · intro n hn
      rcases List.mem_cons.mp hn with rfl | hn
      · trivial
      · exact ih _ n hn

theorem install_notes (r : Registry) (c : Component) : ∀ n ∈ (r.install c).2, n.OfSymbols := by
  unfold install
  dsimp only
  split
  · simp
  · intro n hn
    rcases List.mem_append.mp hn with hn | hn
    · exact insertExports_notes _ _ n hn
    · rw [List.mem_singleton.mp hn]
      trivial

theorem register_notes (r : Registry) (ns name : TextArg) (address : Option Address) :
    ∀ n ∈ (r.register ns name address).2.2, n.OfSymbols := by
  unfold register
  split
  · split
    · simp
    · split
      · intro n hn
        rw [List.mem_singleton.mp hn]
        trivial
      · dsimp only
        split
        · intro n hn
          rw [List.mem_singleton.mp hn]
          trivial
        · simp
  · simp

end Registry

/-! ## The history is kept -/

section

variable {may : String → Prop}

theorem Told.outer (h : Told t target may H s) (w : ω) :
    Told t target may H { s with outer := w } :=
  ⟨h.thread, ⟨h.agrees.zoo, h.agrees.calculator, h.agrees.primes, h.agrees.globals⟩, h.failed⟩

/-- Notes about symbols, and whatever is registered or injected. -/
theorem Told.aside (h : Told t target may H s) {N : List Note}
    (hns : ∀ n ∈ N, n.OfSymbols) (r : Registry) (a : Option Address) :
    Told t target may H { s with registry := r, injected := a, shared := s.shared.notes N } := by
  have hnone : N.reverse.filterMap (Event.ofNote t target) = [] := by
    refine List.filterMap_eq_nil_iff.mpr fun n hn => ?_
    have := hns n (List.mem_reverse.mp hn)
    cases n <;> first | rfl | exact this.elim
  refine ⟨h.thread, ?_, fun name why hm => ?_⟩
  · show Agrees ((N.reverse ++ s.shared.journal).filterMap (Event.ofNote t target) ++ H) _
    rw [List.filterMap_append, hnone, List.nil_append]
    exact ⟨h.agrees.zoo, h.agrees.calculator, h.agrees.primes, h.agrees.globals⟩
  · rcases List.mem_append.mp hm with hm | hm
    · exact (hns _ (List.mem_reverse.mp hm)).elim
    · exact h.failed name why hm

theorem told_outlastsGrowth (d : out.Detached) :
    OutlastsGrowth out (fun _ => True) (Told t target may H) where
  zoo := zooSeat.outlastsInserts.toOutlastsRefs
  makeZoo := zooSeat.outlastsInserts.insert
  calculator := calculatorSeat.outlastsInserts
  primes := primesSeat.outlastsInserts
  pushAnimal x a _ h :=
    zooSeat.change h x (f := fun b => { b with object := Zoo.pushAnimal a b.object })
      fun _ => rfl
  updateCalculator x f _ h :=
    calculatorSeat.change h x (f := fun b => { b with object := f b.object })
      fun _ => rfl
  updatePrimes x f _ h := primesSeat.change h x (f := fun b => { b with object := f b.object })
    fun _ => rfl
  updateHeld x n f _ h := primesSeat.change h x
    (f := fun b => if b.serial = n then { b with object := f b.object } else b) fun b => by
      split <;> rfl
  entryPoint c address s h := by
    unfold entryPoint
    dsimp only
    split
    · exact h
    · exact h.aside (Registry.install_notes _ _) _ s.injected
  registerSymbol ns name address s h := h.aside (Registry.register_notes _ _ _ _) _ s.injected
  injected _ _ _ _ := trivial
  inject a v s _ h := h.aside (N := [.injected v]) (fun n hn => by
    rw [List.mem_singleton.mp hn]
    trivial) s.registry (some a)
  apply a x := ends_outer (d.apply a x) fun _ w h => h.outer w
  progress f p := ends_outer (d.progress f p) fun _ w h => h.outer w

/-- A failure in any component goes to the target that the history has for it. -/
theorem Told.fail (h : Told t target may H s) (c : Component) (hc : may c.name) (why : Fault) :
    Told t target may H (c.fail (target c.name) why s).2 := by
  cases c with
  | zoo => exact zooSeat.fail h hc why
  | calculator => exact calculatorSeat.fail h hc why
  | primes => exact primesSeat.fail h hc why

theorem Call.targetIn_guard {c : Call ρ} {site : Component × Handle} (h : c.guard = some site) :
    c.targetIn site.1.name = site.2 := by
  rw [targetIn, h]
  exact if_pos rfl

theorem Call.targetIn_primes {c : Call ρ} (h : c.Asks) :
    c.targetIn Component.primes.name = c.sieve := by
  cases c <;> first | exact h.elim | rfl

theorem told_inner (d : out.Detached) {c : Call ρ} (h : c.Asks)
    (hmay : may Component.primes.name) :
    Inner (out.reach via) (Told t c.targetIn may H) (fun _ => True) c.sieve := by
  refine d.inner (fun _ w h => h.outer w) fun why s hs => ?_
  rw [← Call.targetIn_primes h]
  exact hs.fail .primes hmay why

/-- A guarded call keeps the history up to its own failure. -/
theorem told_routed (d : out.Detached) {c : Call ρ} (hmay : c.Asks → may Component.primes.name)
    {site : Component × Handle} (hc : c.guard = some site) :
    site.1.Routes site.2 (Told t c.targetIn may H) (perform out (out.reach via) c) := by
  refine perform_routed (told_outlastsGrowth d) (fun h => told_inner d h (hmay h)) (fun it _ s h => ?_)
    (fun _ _ => trivial) hc
  exact zooSeat.change h it (f := fun b => { b with object := Zoo.stepOn b.object }) fun _ => rfl

end

/-- Every call keeps the history, its own failure included. -/
theorem perform_told (d : out.Detached) (c : Call ρ) :
    Ends (Told t c.targetIn (fun _ => True) H) (perform out (out.reach via) c)
      fun _ => Told t c.targetIn (fun _ => True) H := by
  cases hc : c.guard with
  | none => exact perform_unguarded (told_outlastsGrowth d).toOutlastsUpdates hc
  | some site =>
    refine (told_routed d (fun _ => trivial) hc).tells.post fun r s hr => ?_
    rcases hr with ⟨-, h⟩ | ⟨why, s', -, -, h, rfl⟩
    · exact h
    · rw [← Call.targetIn_guard hc]
      exact h.fail site.1 trivial why

/-! ## Success -/

section

variable {P : Process ω → Prop}

/-- A call between components that succeeds keeps what is known. -/
theorem Outside.Detached.answers (d : out.Detached) (ho : ∀ s w, P s → P { s with outer := w })
    {c : Call ρ} {k : Component} {x : Handle} (hc : k.Routes x P (perform out via c))
    (a : Address) :
    Ends P ((out.reach via).call a c) fun r s => r.1 = Status.ok → P s := by
  cases a with
  | native e =>
    refine hc.tells.post fun r s hr hok => ?_
    rcases hr with ⟨-, h⟩ | ⟨why, s', hstatus, hcode, -, -⟩
    · exact h
    · exact absurd (hstatus.symm.trans hok) hcode
  | foreign f => exact (ends_outer (d.call f c) ho).post fun _ _ h _ => h

namespace Calculator

variable (d : out.Detached) (ho : ∀ s w, P s → P { s with outer := w })
include d ho

theorem resolve_reads (lookup : Address) (name : String) :
    Does P (resolve (out.reach via) lookup name) (fun _ => P) fun why _ => why.code ≠ Status.ok := by
  have hlookup : Ends P ((out.reach via).call lookup
      (.lookupSymbol (.text primesNs) (.text name) (some none))) fun _ => P := by
    cases lookup with
    | native e => exact fun s h => (lookupSymbol_same _ _ _ s).symm ▸ h
    | foreign f => exact ends_outer (d.call f _) ho
  refine .bind (.monadLift hlookup) fun (status, cell) => ?_
  dsimp only
  split
  · exact .ite (fun _ => .pure fun _ h => h)
      fun _ => .throw fun _ _ => (by decide : Status.symbolNotFound ≠ Status.ok)
  · exact .throw fun _ _ => (by decide : Status.symbolNotFound ≠ Status.ok)

omit ho in
/-- A failure of the primes component is passed on, whatever becomes of its message. -/
theorem passOn_fails {α : Type} (lookup : Address) (sieve : Handle) {status : Status}
    (h : status ≠ Status.ok) (P : Process ω → Prop) :
    Does P (passOn (α := α) (out.reach via) lookup sieve status) (fun _ _ => False)
      fun why _ => why.code ≠ Status.ok := by
  have hinner : Inner (out.reach via) (fun _ => True) (fun _ => True) sieve :=
    d.inner (fun _ _ _ => trivial) fun _ _ _ => trivial
  refine .bind (Q := fun _ _ => True) ?_ fun _ => .throw fun _ _ => h
  exact Does.mono (readMessage_fares hinner trivial) (fun _ _ => trivial)
    (fun _ _ h => h) fun _ _ h => h.1

theorem readPrimes_noFailures (lookup : Address) (sieve : Handle) :
    Does P (readPrimes (out.reach via) lookup sieve) (fun _ => P)
      fun why _ => why.code ≠ Status.ok := by
  have hcall (f : Address) (capacity : UInt64) (place : Place UInt64 UInt64) :
      Ends P ((out.reach via).call f (.primes sieve capacity place)) fun r s =>
        r.1 = Status.ok → P s :=
    d.answers ho (c := .primes sieve capacity place) (k := .primes)
      (Primes.primes_routed sieve capacity place) f
  refine .bind (resolve_reads d ho lookup _) fun f => ?_
  refine .bind (.monadLift (hcall f _ _)) fun (status, place) => ?_
  refine .ite (fun h => .bind (passOn_fails d lookup sieve h _) fun _ s hs => hs.elim) fun hok => ?_
  refine .ite (fun _ => .throw_bind fun _ _ => by decide) fun _ => ?_
  refine .bind (.monadLift ((hcall f _ _).pre fun s h => h (Decidable.not_not.mp hok)))
    fun (status, place) => ?_
  refine .ite (fun h => .bind (passOn_fails d lookup sieve h _) fun _ s hs => hs.elim) fun hok => ?_
  refine .ite (fun _ => .throw_bind fun _ _ => by decide) fun _ => .pure fun s h => ?_
  exact h (Decidable.not_not.mp hok)

theorem injectComponent_noFailures
    (hinject : ∀ a v s, P s → P (Journal.note (.injected v) { s with injected := some a }))
    (ns : TextArg) (lookup : Option Address) :
    Ends P (injectComponent (out.reach via) ns lookup) fun r s => r.1 = Status.ok → P s := by
  refine Part.guard_succeeds (Q := fun _ => P) ?_
  refine .bind (.lift (fun _ _ _ h => h) fun _ h _ _ => TextArg.read_code h) fun ns => ?_
  refine .ite (fun _ => .throw_bind fun _ _ => (by decide : Status.invalidParam ≠ Status.ok))
    fun _ => ?_
  split
  · next lookup =>
    refine .bind (resolve_reads d ho lookup _) fun f => ?_
    have hcall : Ends P
        ((out.reach via).call f (.getVersion .primes (some 0) (some 0) (some 0)))
        fun r s => r.1 = Status.ok → P s :=
      d.answers ho (c := .getVersion .primes (some 0) (some 0) (some 0)) (k := .primes)
        (Fixed.getVersion_routed _ _ _ _) f
    refine .bind (.monadLift hcall) fun (status, v) => ?_
    refine .ite (fun h => .throw_bind fun _ _ => h) fun hok => ?_
    refine .ite (fun _ => .throw_bind fun _ _ => (by decide : Status.incompatibleVersion ≠ Status.ok))
      fun _ s h => ?_
    exact hinject lookup _ s (h (Decidable.not_not.mp hok))
  · exact .throw fun _ _ => by decide

theorem enlistPrimes_noFailures (m : OutlastsInserts part P) {calculator : Handle}
    (hextend : ∀ vs s, P s → P (part.update calculator (extend vs) s).2) (sieve : Handle) :
    Ends P (enlistPrimes (out.reach via) calculator sieve) fun r s => r.1 = Status.ok → P s := by
  refine Part.guard_succeeds (Q := fun _ => P) ?_
  refine .bind ((enlistedIn_fares calculator).failing fun _ _ h => h.1) fun _ => ?_
  refine .bind (Q := fun _ => P) (fun _ h => h) fun s => ?_
  split
  · refine .bind (readPrimes_noFailures d ho _ sieve) fun ps => ?_
    refine Does.failing (E := fun why s => why.code ≠ Status.ok ∧ P s) ?_ fun _ _ h => h.1
    exact enlistNew_fares m.toOutlastsRefs (fun v s _ => m.insert (.var v) s) (fun vs s _ => hextend vs s) ps
  · exact .throw fun _ _ => by decide

end Calculator

end

/-- In a call that succeeds, or is not guarded, nothing failed. -/
theorem perform_noFailures (d : out.Detached) (c : Call ρ) :
    Ends (Told t c.targetIn (fun _ => False) H) (perform out (out.reach via) c) fun r s =>
      r.1 = Status.ok ∨ c.guard = none → Told t c.targetIn (fun _ => False) H s := by
  cases hc : c.guard with
  | none => exact (perform_unguarded (told_outlastsGrowth d).toOutlastsUpdates hc).post fun _ _ h _ => h
  | some site =>
    suffices h : Ends (Told t c.targetIn (fun _ => False) H) (perform out (out.reach via) c)
        fun r s => r.1 = Status.ok → Told t c.targetIn (fun _ => False) H s from
      h.post fun r s hr ho => hr (ho.resolve_right (by simp))
    by_cases ha : c.Asks
    · have ho : ∀ (s : Process ω) w, Told t c.targetIn (fun _ => False) H s →
          Told t c.targetIn (fun _ => False) H { s with outer := w } := fun _ w h => h.outer w
      cases c <;> try exact ha.elim
      case injectComponent ns lookup =>
        exact Calculator.injectComponent_noFailures d ho
          (fun a v s h => (told_outlastsGrowth d).inject a v s trivial h) ns lookup
      case enlistPrimes x sieve =>
        exact Calculator.enlistPrimes_noFailures d ho calculatorSeat.outlastsInserts
          (fun _ => (told_outlastsGrowth d).updateCalculator x _) sieve
    · refine (told_routed d (fun h => (ha h).elim) hc).tells.post fun r s hr hok => ?_
      rcases hr with ⟨-, h⟩ | ⟨why, s', hstatus, hcode, -, -⟩
      · exact h
      · exact absurd (hstatus.symm.trans hok) hcode

theorem Told.journal_fail {may : String → Prop} (h : Told t target may H s) (c : Component)
    (x : Handle) (why : Fault) :
    (c.fail x why s).2.shared.journal = .callFailed c.name why :: s.shared.journal := by
  cases c with
  | zoo => exact h.agrees.zoo.named ▸ zooSite.fail_journal x why s
  | calculator => exact h.agrees.calculator.named ▸ calculatorSite.fail_journal x why s
  | primes => exact h.agrees.primes.named ▸ primesSite.fail_journal x why s

/-- The failure of a guarded call is noted last, and before it only those of the calls it had
    made into the primes component. -/
theorem perform_newest (d : out.Detached) {c : Call ρ} {site : Component × Handle}
    (hc : c.guard = some site) :
    Ends (Told t c.targetIn (fun _ => False) H) (perform out (out.reach via) c) fun r s =>
      r.1 ≠ Status.ok → ∃ why earlier, r.1 = why.code ∧
        s.shared.journal = .callFailed site.1.name why :: earlier ∧
        ∀ name why, .callFailed name why ∈ earlier → c.Asks ∧ name = Component.primes.name := by
  have hr : site.1.Routes site.2
      (Told t c.targetIn (fun name => c.Asks ∧ name = Component.primes.name) H)
      (perform out (out.reach via) c) := told_routed d (fun h => ⟨h, rfl⟩) hc
  refine hr.tells.mono (fun s h => ⟨h.thread, h.agrees, fun _ _ hm => (h.failed _ _ hm).elim⟩)
    fun r s h hne => ?_
  rcases h with ⟨hok, -⟩ | ⟨why, s', hstatus, -, h, rfl⟩
  · exact absurd hok hne
  · exact ⟨why, s'.shared.journal, hstatus, h.journal_fail site.1 site.2 why, h.failed⟩

/-! ## Runs -/

section

variable (out t)

def Process.on (s : Process ω) (t : Nat) : Process ω :=
  { s with shared := { s.shared with thread := t } }

theorem issue_eq (c : Call ρ) (s : Process ω) :
    (issue out t c s).1.1 = (perform out (out.reach .none) c (s.on t)).1 ∧
      (issue out t c s).1.2 = (perform out (out.reach .none) c (s.on t)).2.shared.journal.filterMap
        (Event.ofNote t c.targetIn) ∧
      (issue out t c s).2 = { (perform out (out.reach .none) c (s.on t)).2 with
        shared := { (perform out (out.reach .none) c (s.on t)).2.shared with journal := [] } } := by
  refine ⟨rfl, ?_, rfl⟩
  show List.filterMap _ (List.reverse (List.reverse _)) = _
  rw [List.reverse_reverse]
  rfl

end

/-- Between calls the process agrees with the history, and all notes were taken. -/
structure Current (H : History) (s : Process ω) : Prop where
  agrees : Agrees H s
  taken : s.shared.journal = []

theorem Current.told (h : Current H s) (t : Nat) (target : String → Handle) (may : String → Prop) :
    Told t target may H (s.on t) where
  thread := rfl
  agrees := by
    show Agrees (s.shared.journal.filterMap _ ++ H) _
    rw [h.taken]
    exact ⟨h.agrees.zoo, h.agrees.calculator, h.agrees.primes, h.agrees.globals⟩
  failed name why hm := by
    rw [show (s.on t).shared.journal = [] from h.taken] at hm
    cases hm

theorem Current.issue (h : Current H s) (d : out.Detached) (t : Nat) (c : Call ρ) :
    Current ((issue out t c s).1.2 ++ H) (issue out t c s).2 := by
  have k : Told t c.targetIn (fun _ => True) H (perform out (out.reach .none) c (s.on t)).2 :=
    perform_told d c _ (h.told t c.targetIn fun _ => True)
  obtain ⟨-, hevents, hstate⟩ := issue_eq out t c s
  rw [hevents, hstate]
  exact ⟨⟨k.agrees.zoo, k.agrees.calculator, k.agrees.primes, k.agrees.globals⟩, rfl⟩

theorem Ran.current (d : out.Detached) (r : Ran out H s) : Current H s := by
  induction r with
  | start w =>
    have hempty {O : Type} (name : String) : Table.Tells name [] ({ component := name } : Table O) :=
      ⟨rfl, fun x => by simp [Table.live, Handle.Map.contains, History.live], by simp⟩
    exact ⟨⟨hempty _, hempty _, hempty _, fun _ _ => rfl⟩, rfl⟩
  | call t c _ ih => exact ih.issue d t c

/-! ## Reading -/

/-- What is read is what the slot or the thread has. -/
theorem Fixed.getLastError_answer {p : Part (Process ω) O} {h : Handle} {e : Option Fault}
    (hr : (p.lastError h s).1 = .ok (e.map Fault.message)) (capacity : UInt32)
    (place : Place UInt32 UInt8) (hasError : Cell Bool) :
    (getLastError p h capacity place hasError s).1 = reading e capacity place hasError := by
  have hread : Ends (fun s' => s' = s) (p.lastError h).run
      fun r _ => r = .ok (e.map Fault.message) := by
    rintro _ rfl
    exact hr
  have hall : Ends (fun s' => s' = s) (getLastError p h capacity place hasError)
      fun a _ => a = reading e capacity place hasError := by
    refine .bind hread fun r => ?_
    rintro _ rfl
    unfold reading
    dsimp only
    rw [Option.isSome_map]
    cases Exchange.serveText ((e.map Fault.message).getD "") capacity place <;> rfl
  exact hall s rfl

theorem Table.Tells.lastError {t : Table O} {name : String} {x : Handle} (ht : t.Tells name H)
    (hx : x.isNull = false) (hlive : ((t.slots.get? x).map (·.lastError)).isSome = true) :
    (t.slots.get? x).map (·.lastError) = some ((H.errorOf name x).map Fault.message) := by
  rw [Option.isSome_map, Option.isSome_iff_exists] at hlive
  obtain ⟨a, ha⟩ := hlive
  rw [ha, ← ht.error x a ha hx]
  rfl

theorem Table.Tells.reads {p : Part (Process ω) O} {name : String} {x : Handle}
    (ht : (p.view s).table.Tells name H) (hlive : ((p.view s).table.count? x).isSome = true)
    (hx : x.isNull = false) : (p.lastError x s).1 = .ok ((H.errorOf name x).map Fault.message) := by
  unfold Part.lastError
  dsimp only
  rw [hx]
  rw [Table.count?, Option.isSome_map, Option.isSome_iff_exists] at hlive
  obtain ⟨a, ha⟩ := hlive
  rw [ha, ← ht.error x a ha hx]
  rfl

theorem Agrees.reads_global {p : Part (Process ω) O} {c : Component} (h : Agrees H s)
    (hview : (p.view s).shared = s.shared) (hname : (p.view s).table.component = c.name) :
    (p.lastError Handle.null s).1
      = .ok ((H.globalOf s.shared.thread c.name).map Fault.message) := by
  rw [← h.globals]
  unfold Part.lastError
  dsimp only
  rw [hview, hname]
  rfl

namespace Agrees

theorem count? (h : Agrees H s) (c : Component) (x : Handle) :
    (s.count? c x).isSome = H.live c.name x := by
  cases c with
  | zoo => exact Option.isSome_map.trans (h.zoo.live x)
  | calculator => exact Option.isSome_map.trans (h.calculator.live x)
  | primes => exact Option.isSome_map.trans (h.primes.live x)

theorem lastError? (h : Agrees H s) {c : Component} {x : Handle} (hx : x.isNull = false)
    (hlive : (s.lastError? c x).isSome = true) :
    s.lastError? c x = some ((H.errorOf c.name x).map Fault.message) := by
  cases c with
  | zoo => exact h.zoo.lastError hx hlive
  | calculator => exact h.calculator.lastError hx hlive
  | primes => exact h.primes.lastError hx hlive

/-- Any thread reads the last error of a live object. -/
theorem reads (h : Agrees H s) {c : Component} {x : Handle} (hlive : (s.count? c x).isSome = true)
    (hx : x.isNull = false) (capacity : UInt32) (place : Place UInt32 UInt8)
    (hasError : Cell Bool) :
    (perform out via (.getLastError c x capacity place hasError) s).1
      = reading (H.errorOf c.name x) capacity place hasError := by
  cases c with
  | zoo => exact Fixed.getLastError_answer (p := Process.zooPart) (h.zoo.reads hlive hx) _ _ _
  | calculator =>
    exact Fixed.getLastError_answer (p := Process.calculatorPart) (h.calculator.reads hlive hx) _ _ _
  | primes => exact Fixed.getLastError_answer (p := Process.primesPart) (h.primes.reads hlive hx) _ _ _

/-- Without an object the running thread reads its own. -/
theorem reads_null (h : Agrees H s) (c : Component) (capacity : UInt32)
    (place : Place UInt32 UInt8) (hasError : Cell Bool) :
    (perform out via (.getLastError c Handle.null capacity place hasError) s).1
      = reading (H.globalOf s.shared.thread c.name) capacity place hasError := by
  cases c with
  | zoo =>
    exact Fixed.getLastError_answer (p := Process.zooPart)
      (h.reads_global rfl h.zoo.named) capacity place hasError
  | calculator =>
    exact Fixed.getLastError_answer (p := Process.calculatorPart)
      (h.reads_global rfl h.calculator.named) capacity place hasError
  | primes =>
    exact Fixed.getLastError_answer (p := Process.primesPart)
      (h.reads_global rfl h.primes.named) capacity place hasError

end Agrees

theorem noFailures_of_journal {target : String → Handle} {j : List Note}
    (h : ∀ name why, .callFailed name why ∉ j) :
    History.NoFailures (j.filterMap (Event.ofNote t target)) := by
  intro e he t' c' x' why hfailed
  obtain ⟨n, hn, hne⟩ := List.mem_filterMap.mp he
  subst hfailed
  cases n <;> cases hne
  exact h _ _ hn

/-! ## The channel -/

structure Exact (out : Outside ω) (H : History) (s : Process ω) : Prop where
  live : ∀ (c : Component) x, H.live c.name x = (s.count? c x).isSome
  /-- The last error of a live object, on whatever thread it is read. -/
  object : ∀ (c : Component) x, (s.count? c x).isSome = true → x.isNull = false →
    ∀ t capacity place hasError, (issue out t (.getLastError c x capacity place hasError) s).1.1
      = reading (H.errorOf c.name x) capacity place hasError
  /-- The last error of a thread. -/
  thread : ∀ (c : Component) t capacity place hasError,
    (issue out t (.getLastError c Handle.null capacity place hasError) s).1.1
      = reading (H.globalOf t c.name) capacity place hasError
  /-- A call that succeeds, or is not guarded, is no failure, and no slot that is still there
      has changed. -/
  kept : ∀ t {ρ : Type} (c : Call ρ),
    ((issue out t c s).1.1.1 = Status.ok ∨ c.guard = none) →
      (issue out t c s).1.2.NoFailures ∧
      (∀ (c' : Component) x, x.isNull = false → (s.lastError? c' x).isSome = true →
        ((issue out t c s).2.lastError? c' x).isSome = true →
        .created c'.name x ∉ (issue out t c s).1.2 →
        (issue out t c s).2.lastError? c' x = s.lastError? c' x) ∧
      ∀ key, (issue out t c s).2.shared.globals.lookup key = s.shared.globals.lookup key
  /-- A guarded call that fails is the newest event, with its status. Before it come failures
      of the calls it made into the primes component, if it makes any. -/
  newest : ∀ t {ρ : Type} (c : Call ρ) (c' : Component) x, c.guard = some (c', x) →
    (issue out t c s).1.1.1 ≠ Status.ok → ∃ why older,
      (issue out t c s).1.2 = .failed t c'.name x why :: older ∧
      (issue out t c s).1.1.1 = why.code ∧
      ∀ t' name x' why', .failed t' name x' why' ∈ older →
        c.Asks ∧ t' = t ∧ name = Component.primes.name ∧ x' = c.sieve

/-- Every run of calls from a fresh process, on any threads, is told by the last errors. -/
theorem last_errors_exact (d : out.Detached) (r : Ran out H s) : Exact out H s where
  live c x := ((r.current d).agrees.count? c x).symm
  object c x hlive hx t capacity place hasError := by
    have h := ((r.current d).told t (fun _ => Handle.null) fun _ => True).agrees
    rw [show (s.on t).shared.journal = [] from (r.current d).taken] at h
    exact (issue_eq out t _ s).1.trans (h.reads hlive hx capacity place hasError)
  thread c t capacity place hasError := by
    have h := ((r.current d).told t (fun _ => Handle.null) fun _ => True).agrees
    rw [show (s.on t).shared.journal = [] from (r.current d).taken] at h
    exact (issue_eq out t _ s).1.trans (h.reads_null c capacity place hasError)
  kept t ρ c hc := by
    have h := (r.current d).agrees
    have h' := ((r.current d).issue d t c).agrees
    obtain ⟨hanswer, hevents, -⟩ := issue_eq out t c s
    rw [hanswer] at hc
    have k : Told t c.targetIn (fun _ => False) H (perform out (out.reach .none) c (s.on t)).2 :=
      perform_noFailures d c _ ((r.current d).told t c.targetIn _) hc
    have hclean : (issue out t c s).1.2.NoFailures := by
      rw [hevents]
      exact noFailures_of_journal k.failed
    refine ⟨hclean, fun c' x hx hold hnew hmade => ?_, fun key => ?_⟩
    · rw [h'.lastError? hx hnew, h.lastError? hx hold, hclean.errorOf hmade]
    · rw [h'.globals, h.globals, hclean.globalOf]
  newest t ρ c c' x hc hne := by
    obtain ⟨hanswer, hevents, -⟩ := issue_eq out t c s
    rw [hanswer] at hne ⊢
    obtain ⟨why, earlier, hcode, hj, hearlier⟩ :=
      perform_newest d hc _ ((r.current d).told t c.targetIn _) hne
    rw [hevents, hj]
    refine ⟨why, earlier.filterMap (Event.ofNote t c.targetIn), ?_, hcode, ?_⟩
    · rw [List.filterMap_cons]
      show Event.failed t c'.name (c.targetIn c'.name) why :: _ = _
      rw [Call.targetIn_guard hc]
    · intro t' name x' why' hm
      obtain ⟨n, hn, hne⟩ := List.mem_filterMap.mp hm
      cases n <;> cases hne
      obtain ⟨hasks, rfl⟩ := hearlier _ _ hn
      exact ⟨hasks, rfl, rfl, Call.targetIn_primes hasks⟩

def misused : Process Unit :=
  let s := (issue idle 0 (.createCalculator (some Handle.null)) { outer := () }).2
  (issue idle 1 (.enlistVariable ⟨1⟩ ⟨1⟩) s).2

theorem misused_ran :
    Ran idle [.failed 1 "Calculator" ⟨1⟩ .notVariable, .created "Calculator" ⟨1⟩] misused := by
  have h : Ran idle _ misused := ((Ran.start ()).call 0 (.createCalculator (some Handle.null))).call
    1 (.enlistVariable ⟨1⟩ ⟨1⟩)
  have hH : (issue idle 1 (.enlistVariable ⟨1⟩ ⟨1⟩)
      (issue idle 0 (.createCalculator (some Handle.null)) { outer := () }).2).1.2
      ++ ((issue idle 0 (.createCalculator (some Handle.null)) { outer := () }).1.2 ++ [])
      = [.failed 1 "Calculator" ⟨1⟩ .notVariable, .created "Calculator" ⟨1⟩] := by
    decide +kernel
  exact hH ▸ h

def readOn (s : Process Unit) (t : Nat) (x : Handle) : Status × Cell UInt32 × Cell Bool :=
  let r := (issue idle t (.getLastError .calculator x 0 ⟨some 0, none⟩ (some false)) s).1.1
  (r.1, r.2.1.needed, r.2.2)

/-- A third thread reads of the failure, and has none of its own. -/
theorem last_errors_misused :
    idle.Detached ∧ readOn misused 2 ⟨1⟩ = (Status.ok, some 15, some true) ∧
      readOn misused 2 Handle.null = (Status.ok, some 1, some false) := by
  have h := last_errors_exact idle_detached misused_ran
  refine ⟨idle_detached, ?_, ?_⟩
  · rw [readOn, h.object .calculator ⟨1⟩ (by decide +kernel) rfl]
    decide +kernel
  · rw [readOn, h.thread .calculator]
    decide +kernel

end Boundary
