/-
  Boundary.Proofs.Errors.History — what a history of calls says of last errors.

  The journal tells what came, went and failed. With the thread that ran and the targets of
  its calls these notes are events, and a history is a list of them, newest first. It says
  by itself which objects are live, what the last error of an object is (`errorOf`: the
  newest failure on it since it was created), and what that of a thread is (`globalOf`: the
  newest of its failures that had no live object to go to).

  Proved: every move on a store, and every record of a failure on the target that the
  history has for it, leaves a process that agrees with its history (`Told`).
-/
import Boundary.Proofs.Course.Perform
import Boundary.Proofs.Operations

namespace Boundary

variable {ω O : Type}

/-! ## Histories -/

inductive Event where
  | created (component : String) (h : Handle)
  | destroyed (component : String) (h : Handle)
  /-- A guarded call on `target` failed. -/
  | failed (thread : Nat) (component : String) (target : Handle) (why : Fault)
  deriving DecidableEq, Repr

def Event.component : Event → String
  | created c _ => c
  | destroyed c _ => c
  | failed _ c _ _ => c

/-- Newest first. -/
abbrev History := List Event

namespace History

def live (c : String) (x : Handle) : History → Bool
  | [] => false
  | .created c' x' :: older => if c' = c ∧ x' = x then true else live c x older
  | .destroyed c' x' :: older => if c' = c ∧ x' = x then false else live c x older
  | .failed _ _ _ _ :: older => live c x older

/-- The newest failure of a call on an object since the object was created. -/
def errorOf (c : String) (x : Handle) : History → Option Fault
  | [] => none
  | .created c' x' :: older => if c' = c ∧ x' = x then none else errorOf c x older
  | .destroyed _ _ :: older => errorOf c x older
  | .failed _ c' x' why :: older => if c' = c ∧ x' = x then some why else errorOf c x older

/-- The newest failure of a thread's calls in a component whose target was null, or not live
    any more. -/
def globalOf (t : Nat) (c : String) : History → Option Fault
  | [] => none
  | .failed t' c' x why :: older =>
    if t' = t ∧ c' = c ∧ (x.isNull ∨ live c x older = false) then some why else globalOf t c older
  | _ :: older => globalOf t c older

def NoFailures (H : History) : Prop := ∀ e ∈ H, ∀ t c x why, e ≠ .failed t c x why

theorem NoFailures.errorOf {E : History} (h : NoFailures E) {c : String} {x : Handle}
    (hx : .created c x ∉ E) (H : History) : errorOf c x (E ++ H) = errorOf c x H := by
  induction E with
  | nil => rfl
  | cons e E ih =>
    have hrest := ih (fun e' he' => h e' (List.mem_cons_of_mem _ he'))
      fun hm => hx (List.mem_cons_of_mem _ hm)
    cases e with
    | created c' x' =>
      rw [List.cons_append, History.errorOf, if_neg, hrest]
      rintro ⟨rfl, rfl⟩
      exact hx List.mem_cons_self
    | destroyed c' x' => exact hrest
    | failed t c' x' why => exact absurd rfl (h _ List.mem_cons_self t c' x' why)

theorem NoFailures.globalOf {E : History} (h : NoFailures E) (t : Nat) (c : String) (H : History) :
    globalOf t c (E ++ H) = globalOf t c H := by
  induction E with
  | nil => rfl
  | cons e E ih =>
    have hrest := ih fun e' he' => h e' (List.mem_cons_of_mem _ he')
    cases e with
    | failed t c' x' why => exact absurd rfl (h _ List.mem_cons_self t c' x' why)
    | _ => exact hrest

end History

/-- The event that a note is of, on a thread whose calls have these targets. -/
def Event.ofNote (thread : Nat) (target : String → Handle) : Note → Option Event
  | .created c x => some (.created c x)
  | .destroyed c x => some (.destroyed c x)
  | .callFailed c why => some (.failed thread c (target c) why)
  | _ => none

/-! ## Tables and their history -/

structure Table.Tells (name : String) (H : History) (t : Table O) : Prop where
  named : t.component = name
  live : ∀ x, t.live x = H.live name x
  error : ∀ x a, t.slots.get? x = some a → x.isNull = false →
    a.lastError = (H.errorOf name x).map Fault.message

namespace Table.Tells

variable {name : String} {H : History} {t t' : Table O}

/-- Objects change, and references come and go, but no error is recorded. -/
theorem alter (h : t.Tells name H) (hn : t'.component = t.component)
    (hs : ∀ x, (t'.slots.get? x).map (·.lastError) = (t.slots.get? x).map (·.lastError)) :
    t'.Tells name H where
  named := hn.trans h.named
  live x := by
    have := congrArg Option.isSome (hs x)
    rw [Option.isSome_map, Option.isSome_map] at this
    exact this.trans (h.live x)
  error x a' hx hnull := by
    have hsx := hs x
    rw [hx, Option.map_some, eq_comm, Option.map_eq_some_iff] at hsx
    obtain ⟨a, ha, hlast⟩ := hsx
    exact hlast.symm.trans (h.error x a ha hnull)

theorem modify (h : t.Tells name H) (x : Handle) {f : Slot O → Slot O}
    (hf : ∀ a, (f a).lastError = a.lastError) :
    Table.Tells name H { t with slots := t.slots.modify x f } := by
  refine h.alter rfl fun y => ?_
  rw [Handle.Map.get?_modify]
  split
  · cases t.slots.get? y with
    | none => rfl
    | some a => exact congrArg some (hf a)
  · rfl

theorem insert (h : t.Tells name H) (x : Handle) (n : Nat) (o : O) :
    (t.insert x n o).Tells name (.created name x :: H) where
  named := (component_insert t x n o).trans h.named
  live y := by
    rw [Table.live, Handle.Map.contains, slots_insert, Handle.Map.get?_insert, History.live]
    by_cases e : x = y
    · simp [e]
    · simp only [e, if_false, and_false]
      exact h.live y
  error y a hy hnull := by
    rw [slots_insert, Handle.Map.get?_insert] at hy
    rw [History.errorOf]
    by_cases e : x = y
    · rw [if_pos e] at hy
      cases hy
      simp [e]
    · rw [if_neg e] at hy
      simp only [e, and_false, if_false]
      exact h.error y a hy hnull

theorem destroy (h : t.Tells name H) (x : Handle) (s : Slot O) :
    (t.destroy x s).Tells name (.destroyed name x :: H) where
  named := h.named
  live y := by
    rw [Table.live, Handle.Map.contains, get?_destroy, History.live]
    by_cases e : y = x
    · simp [e]
    · simp only [Ne.symm e, if_false, and_false]
      exact h.live y
  error y a hy hnull := by
    rw [get?_destroy] at hy
    split at hy
    · cases hy
    · exact h.error y a hy hnull

/-- A failure with a live object goes to that object's slot. -/
theorem setError (h : t.Tells name H) (x : Handle) (thread : Nat) (why : Fault) :
    (t.setError x why.message).Tells name (.failed thread name x why :: H) where
  named := h.named
  live y := by
    rw [Table.live, Handle.Map.contains, Table.setError, Handle.Map.get?_modify, History.live,
      ← h.live y]
    split
    · exact Option.isSome_map
    · rfl
  error y a hy hy' := by
    rw [Table.setError, Handle.Map.get?_modify] at hy
    rw [History.errorOf]
    by_cases e : x = y
    · rw [if_pos e, Option.map_eq_some_iff] at hy
      obtain ⟨b, -, rfl⟩ := hy
      simp [e]
    · rw [if_neg e] at hy
      simp only [e, and_false, if_false]
      exact h.error y a hy hy'

/-- A failure without a live object changes no slot. -/
theorem missed (h : t.Tells name H) {x : Handle} (hx : x.isNull = true ∨ t.live x = false)
    (thread : Nat) (why : Fault) : t.Tells name (.failed thread name x why :: H) where
  named := h.named
  live := h.live
  error y a hy hnull := by
    rw [History.errorOf, if_neg]
    · exact h.error y a hy hnull
    · rintro ⟨-, rfl⟩
      rcases hx with hx | hx
      · exact absurd (hnull.symm.trans hx) (by decide)
      · rw [Table.live, Handle.Map.contains, hy] at hx
        cases hx

/-- What happens in another component does not matter. -/
theorem other (h : t.Tells name H) {E : History} (hE : ∀ e ∈ E, e.component ≠ name) :
    t.Tells name (E ++ H) := by
  induction E with
  | nil => exact h
  | cons e E ih =>
    have k := ih fun e' he' => hE e' (List.mem_cons_of_mem _ he')
    have hc := hE e List.mem_cons_self
    refine ⟨h.named, fun x => (k.live x).trans ?_, fun x a hx hnull => (k.error x a hx hnull).trans ?_⟩
    · cases e <;> simp_all [History.live, Event.component]
    · cases e <;> simp_all [History.errorOf, Event.component]

variable [Resource O] {thread : Nat} {target : String → Handle}

def ending (name : String) (calls : List Release) : History :=
  calls.filterMap fun r => if r.fate = .destroyed then some (.destroyed name r.handle) else none

theorem releaseOnce (h : t.Tells name H) (x : Handle) (owner : Option Handle)
    (calls : List Release) (hH : H = ending name calls ++ H') :
    (t.releaseOnce x).1.Tells name
      (ending name (⟨x, owner, (t.releaseOnce x).2.1⟩ :: calls) ++ H') := by
  subst hH
  unfold Table.releaseOnce
  split
  · exact h
  · split
    · exact h
    · next s hs =>
      split
      · exact h.destroy x s
      · exact h.modify x (f := fun a => { a with count := s.count - 1 }) fun _ => rfl

theorem cascade (calls : List Release) (work : List (Handle × Option Handle))
    (h : t.Tells name (ending name calls ++ H)) :
    (t.cascade calls work).1.Tells name (ending name (t.cascade calls work).2.reverse ++ H) := by
  fun_induction Table.cascade t calls work with
  | case1 t calls => rwa [List.reverse_reverse]
  | case2 t calls x owner rest after ih => exact ih (h.releaseOnce x owner calls rfl)

theorem release (h : t.Tells name H) (x : Handle) :
    (t.release x).1.Tells name (ending name (t.release x).2.reverse ++ H) :=
  cascade [] [(x, none)] h

theorem events_release (name : String) (calls : List Release) :
    (calls.flatMap (Release.notes name)).filterMap (Event.ofNote thread target)
      = ending name calls := by
  induction calls with
  | nil => rfl
  | cons r rest ih =>
    rw [List.flatMap_cons, List.filterMap_append, ih, ending, ending, List.filterMap_cons]
    obtain ⟨x, owner, fate⟩ := r
    cases fate <;> cases owner <;> rfl

end Table.Tells

/-! ## A process and its history -/

structure Agrees (H : History) (s : Process ω) : Prop where
  zoo : s.zoo.Tells Component.zoo.name H
  calculator : s.calculator.Tells Component.calculator.name H
  primes : s.primes.Tells Component.primes.name H
  globals : ∀ t c, s.shared.globals.lookup (t, c) = (H.globalOf t c).map Fault.message

/-- The process agrees with the history `H` of the time before and with what the calls of a
    thread have noted since, whose targets are given by component. Calls failed only in the
    components where they `may`. -/
structure Told (t : Nat) (target : String → Handle) (may : String → Prop) (H : History)
    (s : Process ω) : Prop where
  thread : s.shared.thread = t
  agrees : Agrees (s.shared.journal.filterMap (Event.ofNote t target) ++ H) s
  failed : ∀ name why, .callFailed name why ∈ s.shared.journal → may name

structure Seat [Resource O] [Layered O] (p : Part (Process ω) O) (c : Component) : Prop
    extends Site p c where
  put_put : ∀ st st' s, p.put st' (p.put st s) = p.put st' s
  tells : ∀ {H s}, Agrees H s → (p.view s).table.Tells c.name H
  agrees : ∀ {H E s st}, Agrees H s → (∀ e ∈ E, e.component = c.name) →
    st.table.Tells c.name (E ++ H) →
    (∀ t c, st.shared.globals.lookup (t, c) = (History.globalOf t c (E ++ H)).map Fault.message) →
    Agrees (E ++ H) (p.put st s)

theorem zooSeat : Seat (Process.zooPart (ω := ω)) .zoo where
  toSite := zooSite
  put_put _ _ _ := rfl
  tells h := h.zoo
  agrees h hE ht hg := by
    refine ⟨ht, h.calculator.other fun e he => ?_, h.primes.other fun e he => ?_, hg⟩
    · rw [hE e he]
      decide
    · rw [hE e he]
      decide

theorem calculatorSeat : Seat (Process.calculatorPart (ω := ω)) .calculator where
  toSite := calculatorSite
  put_put _ _ _ := rfl
  tells h := h.calculator
  agrees h hE ht hg := by
    refine ⟨h.zoo.other fun e he => ?_, ht, h.primes.other fun e he => ?_, hg⟩
    · rw [hE e he]
      decide
    · rw [hE e he]
      decide

theorem primesSeat : Seat (Process.primesPart (ω := ω)) .primes where
  toSite := primesSite
  put_put _ _ _ := rfl
  tells h := h.primes
  agrees h hE ht hg := by
    refine ⟨h.zoo.other fun e he => ?_, h.calculator.other fun e he => ?_, ht, hg⟩
    · rw [hE e he]
      decide
    · rw [hE e he]
      decide

namespace Seat

variable [Resource O] [Layered O] {p : Part (Process ω) O} {c : Component} (seat : Seat p c)
  {t : Nat} {target : String → Handle} {may : String → Prop} {H : History} {s : Process ω}
include seat

/-- A move on the store that records no error. -/
theorem move (h : Told t target may H s) {st : Store O} {N : List Note}
    (hthread : st.shared.thread = (p.view s).shared.thread)
    (hglobals : st.shared.globals = (p.view s).shared.globals)
    (hj : st.shared.journal = N ++ (p.view s).shared.journal)
    (hnew : ∀ n ∈ N, n.maker? = some c.name ∨ Event.ofNote t target n = none)
    (hclean : ∀ n ∈ N, ∀ name why, n ≠ .callFailed name why)
    (ht : ∀ {J}, (p.view s).table.Tells c.name J →
      st.table.Tells c.name (N.filterMap (Event.ofNote t target) ++ J)) :
    Told t target may H (p.put st s) := by
  have hsh := seat.view_shared s
  rw [hsh] at hthread hglobals hj
  refine ⟨?_, ?_, fun name why hm => ?_⟩
  · rw [seat.put_shared, hthread]
    exact h.thread
  · rw [seat.put_shared, hj, List.filterMap_append, List.append_assoc]
    have hE : ∀ e ∈ N.filterMap (Event.ofNote t target),
        e.component = c.name ∧ ∀ t c x why, e ≠ .failed t c x why := by
      intro e he
      obtain ⟨n, hn, hne⟩ := List.mem_filterMap.mp he
      have hm := hnew n hn
      have hs := hclean n hn
      cases n <;> cases hne
      case created name x =>
        exact ⟨by simpa [Note.maker?, Event.ofNote, Event.component] using hm, by simp⟩
      case destroyed name x =>
        exact ⟨by simpa [Note.maker?, Event.ofNote, Event.component] using hm, by simp⟩
      case callFailed name why => exact absurd rfl (hs name why)
    refine seat.agrees h.agrees (fun e he => (hE e he).1) (ht (seat.tells h.agrees)) fun t' c' => ?_
    rw [hglobals, History.NoFailures.globalOf (fun e he => (hE e he).2)]
    exact h.agrees.globals t' c'
  · rw [seat.put_shared, hj] at hm
    rcases List.mem_append.mp hm with hm | hm
    · exact absurd rfl (hclean _ hm name why)
    · exact h.failed name why hm

theorem outlastsInserts : OutlastsInserts p (Told t target may H) where
  insert o s h := by
    refine seat.move h (N := [.created (p.view s).table.component (p.view s).shared.nextHandle])
      rfl rfl rfl (fun n hn => ?_) (fun n hn => ?_) fun ht => ?_
    · rw [List.mem_singleton.mp hn, (seat.tells h.agrees).named]
      exact .inl rfl
    · rw [List.mem_singleton.mp hn]
      simp
    · rw [ht.named]
      exact ht.insert _ _ o
  acquire x s h := by
    cases ha : (p.view s).table.acquire x with
    | error why => rwa [Part.acquire_error ha]
    | ok table =>
      rw [Part.acquire_ok ha]
      obtain ⟨a, -, -, rfl⟩ := Table.acquire_ok ha
      exact seat.move h (N := []) rfl rfl rfl (by simp) (by simp) fun ht =>
        ht.modify x fun _ => rfl
  release x s h := by
    have hname := (seat.tells h.agrees).named
    refine seat.move h (N := (((p.view s).table.release x).2.flatMap
      (Release.notes (p.view s).table.component)).reverse) rfl rfl rfl (fun n hn => ?_)
      (fun n hn => ?_) fun ht => ?_
    · obtain ⟨⟨y, owner, fate⟩, -, hn⟩ := List.mem_flatMap.mp (List.mem_reverse.mp hn)
      rw [hname] at hn
      cases fate <;> cases owner <;> simp [Release.notes] at hn <;> subst hn <;>
        simp [Note.maker?, Event.ofNote]
    · obtain ⟨⟨y, owner, fate⟩, -, hn⟩ := List.mem_flatMap.mp (List.mem_reverse.mp hn)
      cases fate <;> cases owner <;> simp [Release.notes] at hn <;> subst hn <;> simp
    · rw [hname, reverse_notes, Table.Tells.events_release]
      exact ht.release x
  lost x why s h := by
    refine seat.move h (N := [.rollbackFailed (p.view s).table.component x why])
      rfl rfl rfl (fun n hn => ?_) (fun n hn => ?_) fun ht => ht
    · rw [List.mem_singleton.mp hn]
      exact .inr rfl
    · rw [List.mem_singleton.mp hn]
      simp

/-- Changes of objects leave the errors alone. -/
theorem change (h : Told t target may H s) (x : Handle) {f : Slot O → Slot O}
    (hf : ∀ a, (f a).lastError = a.lastError) :
    Told t target may H (p.put { p.view s with
      table := { (p.view s).table with slots := (p.view s).table.slots.modify x f } } s) :=
  seat.move h (N := []) rfl rfl rfl (by simp) (by simp) fun ht => ht.modify x hf

/-- The failure is the newest event, and the table and the threads' slots say so. -/
theorem recorded (h : Told t target may H s) (hmay : may c.name) (why : Fault) {st : Store O}
    (hj : st.shared.journal = .callFailed c.name why :: s.shared.journal)
    (hthread : st.shared.thread = s.shared.thread)
    (ht : ∀ {J}, (p.view s).table.Tells c.name J →
      (∀ t' c', s.shared.globals.lookup (t', c') = (J.globalOf t' c').map Fault.message) →
      st.table.Tells c.name (.failed t c.name (target c.name) why :: J) ∧
        ∀ t' c', st.shared.globals.lookup (t', c') =
          (History.globalOf t' c' (.failed t c.name (target c.name) why :: J)).map Fault.message) :
    Told t target may H (p.put st s) := by
  obtain ⟨htable, hglobals⟩ := ht (seat.tells h.agrees) h.agrees.globals
  refine ⟨?_, ?_, fun name why' hm => ?_⟩
  · rw [seat.put_shared, hthread]
    exact h.thread
  · rw [seat.put_shared, hj]
    refine seat.agrees (E := [.failed t c.name (target c.name) why]) h.agrees (fun e he => ?_) htable
      hglobals
    rw [List.mem_singleton.mp he]
    rfl
  · rw [seat.put_shared, hj] at hm
    rcases List.mem_cons.mp hm with hm | hm
    · cases hm
      exact hmay
    · exact h.failed name why' hm

/-- A record of a failure on the target that the history has for it. -/
theorem fail (h : Told t target may H s) (hmay : may c.name) (why : Fault) :
    Told t target may H (p.fail (target c.name) why s).2 := by
  rw [Part.fail_run fun st => seat.view_put st s, seat.put_put]
  by_cases hlive : (target c.name).isNull = false ∧ (p.view s).table.live (target c.name) = true
  · rw [Store.fail_live why hlive.1 hlive.2, seat.view_shared, (seat.tells h.agrees).named]
    refine seat.recorded h hmay why rfl rfl fun ht hg => ⟨ht.setError _ t why, fun t' c' => ?_⟩
    rw [History.globalOf, if_neg]
    · exact hg t' c'
    · rintro ⟨-, rfl, hn | hl⟩
      · rw [hlive.1] at hn
        cases hn
      · rw [← ht.live, hlive.2] at hl
        cases hl
  · have hgone : (target c.name).isNull = true ∨ (p.view s).table.live (target c.name) = false := by
      cases hn : (target c.name).isNull with
      | true => exact .inl rfl
      | false => exact .inr (by simpa [hn] using hlive)
    rw [Store.fail_missed why hgone, seat.view_shared, (seat.tells h.agrees).named]
    refine seat.recorded h hmay why rfl rfl fun ht hg => ⟨ht.missed hgone t why, fun t' c' => ?_⟩
    rw [ht.live] at hgone
    rw [Shared.lookup_setGlobal, History.globalOf,
      show (s.shared.note (.callFailed c.name why)).thread = t from h.thread]
    by_cases e : (t', c') = (t, c.name)
    · obtain ⟨rfl, rfl⟩ := Prod.mk.inj e
      rw [if_pos rfl, if_pos ⟨rfl, rfl, hgone⟩]
      rfl
    · rw [if_neg e, if_neg]
      · exact hg t' c'
      · rintro ⟨rfl, rfl, -⟩
        exact e rfl

end Seat

end Boundary
