/-
  Boundary.Proofs.Session.Lifetimes — the life of every object in a run of safe steps.

  A run starts from a fresh process and takes safe steps, on whatever threads. The notes
  are left in the journal, so it tells the whole run.

  Proved, as long as handles do not come round again:
  - the reference count of an object is the number of owned wrappers that hold it and of
    the places in which live objects own it;
  - when the owned wrappers left have been dropped, in whatever order, nothing is left
    (`Cleared`): every object has been destroyed once, and no release that nobody answers
    for has failed; on the way no object was destroyed while it was held (`Guarded`).
-/
import Boundary.Proofs.Session.Steps

namespace Boundary

variable {ω : Type}

/-! ## What is known of objects from outside -/

namespace Process

def references (s : Process ω) (c : Component) (x : Handle) : Nat :=
  (s.count? c x).elim 0 UInt32.toNat

noncomputable def coowned (s : Process ω) : Component → Handle → Nat
  | .zoo => s.zoo.coowned
  | .calculator => s.calculator.coowned
  | .primes => s.primes.coowned

/-- The objects of a component that were destroyed, and what they owned then. -/
def ended (s : Process ω) : Component → List (Handle × List Handle)
  | .zoo => s.zoo.retired.map fun r => (⟨.ofNat r.1⟩, Resource.owned r.2)
  | .calculator => s.calculator.retired.map fun r => (⟨.ofNat r.1⟩, Resource.owned r.2)
  | .primes => s.primes.retired.map fun r => (⟨.ofNat r.1⟩, Resource.owned r.2)

end Process

/-! ## What the books say -/

namespace Table.Kept

variable {O : Type} [Resource O] [Layered O] {name : String} {f : Handle → Nat} {issued : Nat}
  {j : List Note} {t : Table O} {x : Handle}

/-- What is held is live, and was never destroyed. -/
theorem held (k : t.Kept name f issued j) (h : 0 < f x + t.coowned x) :
    (t.count? x).isSome = true ∧ .destroyed name x ∉ j := by
  cases hx : t.slots.get? x with
  | some a => exact ⟨by rw [count?, hx]; rfl, k.not_destroyed hx⟩
  | none =>
    have := k.balance x
    rw [refs_none hx] at this
    omega

theorem before (k : t.Kept name f issued j) {hs : List Handle}
    (h : (x, hs) ∈ t.retired.map fun r => ((⟨.ofNat r.1⟩ : Handle), Resource.owned r.2)) :
    ∀ y ∈ hs, After j (.destroyed name y) (.destroyed name x) := by
  obtain ⟨⟨n, o⟩, hm, he⟩ := List.mem_map.mp h
  obtain ⟨rfl, rfl⟩ := Prod.mk.inj he
  exact (k.order n o hm).2

theorem mem_ended (k : t.Kept name f issued j) (h : .destroyed name x ∈ j) :
    ∃ hs, (x, hs) ∈ t.retired.map fun r => ((⟨.ofNat r.1⟩ : Handle), Resource.owned r.2) := by
  obtain ⟨o, ho⟩ := k.told x h
  refine ⟨Resource.owned o, List.mem_map.mpr ⟨_, ho, ?_⟩⟩
  rw [UInt64.ofNat_toNat]

end Table.Kept

namespace Sound

variable {e : Ledger} {s : Process ω}

theorem balance (h : Sound e s) (c : Component) (x : Handle) :
    s.references c x = e c x + s.coowned c x := by
  cases c with
  | zoo => exact h.zoo.balance x
  | calculator => exact h.calculator.balance x
  | primes => exact h.primes.balance x

theorem held (h : Sound e s) {c : Component} {x : Handle} (hx : 0 < e c x + s.coowned c x) :
    (s.count? c x).isSome = true ∧ .destroyed c.name x ∉ s.shared.journal := by
  cases c with
  | zoo => exact h.zoo.held hx
  | calculator => exact h.calculator.held hx
  | primes => exact h.primes.held hx

theorem before (h : Sound e s) {c : Component} {x : Handle} {hs : List Handle}
    (hx : (x, hs) ∈ s.ended c) :
    ∀ y ∈ hs, After s.shared.journal (.destroyed c.name y) (.destroyed c.name x) := by
  cases c with
  | zoo => exact h.zoo.before hx
  | calculator => exact h.calculator.before hx
  | primes => exact h.primes.before hx

theorem mem_ended (h : Sound e s) {c : Component} {x : Handle}
    (hx : .destroyed c.name x ∈ s.shared.journal) : ∃ hs, (x, hs) ∈ s.ended c := by
  cases c with
  | zoo => exact h.zoo.mem_ended hx
  | calculator => exact h.calculator.mem_ended hx
  | primes => exact h.primes.mem_ended hx

theorem once (h : Sound e s) (c : Component) (x : Handle) :
    s.shared.journal.count (.created c.name x) ≤ 1 := by
  cases c with
  | zoo => exact h.zoo.once x
  | calculator => exact h.calculator.once x
  | primes => exact h.primes.once x

theorem accounted (h : Sound e s) (c : Component) (x : Handle) :
    s.shared.journal.count (.created c.name x) = s.shared.journal.count (.destroyed c.name x)
      + if (s.count? c x).isSome then 1 else 0 := by
  cases c with
  | zoo => simpa [Process.count?, Table.count?] using h.zoo.ended x
  | calculator => simpa [Process.count?, Table.count?] using h.calculator.ended x
  | primes => simpa [Process.count?, Table.count?] using h.primes.ended x

/-- Nobody outside holds anything, so nothing is left. -/
theorem empty (h : Sound 0 s) (c : Component) (x : Handle) : s.count? c x = none := by
  cases c with
  | zoo => exact Option.map_eq_none_iff.mpr (h.zoo.empty (fun _ => rfl) x)
  | calculator => exact Option.map_eq_none_iff.mpr (h.calculator.empty (fun _ => rfl) x)
  | primes => exact Option.map_eq_none_iff.mpr (h.primes.empty (fun _ => rfl) x)

end Sound

theorem sound_start (w : ω) : Sound 0 ({ outer := w } : Process ω) where
  zoo := .start _
  calculator := .start _
  primes := .start _
  made := rfl
  makers := by simp
  clean := by simp

/-- Who runs does not matter to the books. -/
theorem Books.thread {J : ω → Prop} {e : Ledger} {s : Process ω} (h : Balanced J e s) (n m : Nat) :
    Balanced J e { s with shared := { s.shared with thread := n, threads := m } } := by
  refine ⟨h.1.same rfl rfl rfl, fun hb => ?_⟩
  obtain ⟨hs, -⟩ := h.2 hb
  exact ⟨⟨hs.zoo, hs.calculator, hs.primes, hs.made, hs.makers, hs.clean⟩, trivial⟩

namespace Session

/-! ## Runs -/

variable {out : Outside World} {s u : Process World}

inductive Run (out : Outside World) (s : Process World) : Process World → Prop where
  | refl : Run out s s
  | step {u : Process World} {st : Step} : Run out s u → st.Safe → Run out s (st.run out u).2
  | thread {u : Process World} (n m : Nat) : Run out s u →
      Run out s { u with shared := { u.shared with thread := n, threads := m } }

theorem ready_start : Ready { outer := {} } := by
  refine ⟨[], [], ⟨List.nodup_nil, by simp, by simp, by simp⟩, ?_⟩
  refine ⟨⟨⟨rfl, rfl, by simp [Hook.NoActions]⟩, ?_, by simp⟩, fun _ => ⟨sound_start _, trivial⟩⟩
  intro x a _ ha
  simp [Registry.find, Registry.get?] at ha

/-- What every step upholds on any thread, a run upholds. -/
theorem Run.between {B : (World → Prop) → Ledger → Process World → Prop} (g : Staged out .all B)
    (hthread : ∀ {J e s} (n m : Nat), B J e s →
      B J e { s with shared := { s.shared with thread := n, threads := m } })
    (r : Run out s u) (h : Between B s) : Between B u := by
  induction r with
  | refl => exact h
  | step _ safe ih => exact ih.step g safe (Step.allowed_all _ _)
  | thread n m _ ih =>
    obtain ⟨ws, ls, t, h⟩ := ih
    exact t.between (hthread n m h)

theorem Run.ready (q : Harmless out) (r : Run out s u) (h : Ready s) : Ready u :=
  r.between (books_staged q) (fun n m h => h.thread n m) h

theorem Run.steps {sts : List Step} (r : Run out s u) (safe : ∀ st ∈ sts, st.Safe) :
    Run out s (sts.foldl (fun s st => (st.run out s).2) u) := by
  induction sts generalizing u with
  | nil => exact r
  | cons st rest ih =>
    refine ih (r.step (safe st List.mem_cons_self)) fun st' h => ?_
    exact safe st' (List.mem_cons_of_mem _ h)

def dropNamed (out : Outside World) (names : List String) (s : Process World) : Process World :=
  names.foldl (fun s name => ((Step.drop name).run out s).2) s

/-- What a session that is ready knows of its objects. -/
theorem Ready.sound (h : Ready s) (hb : s.shared.issued < handleLimit) :
    Sound (owners s.outer.wrappers) s := by
  obtain ⟨ws, ls, -, h⟩ := h
  rw [h.1.outer.wrappers]
  exact (h.2 hb).1

/-- The references to an object are those of the owned wrappers and of the live objects that
    own it. -/
theorem references_conserved (q : Harmless out) (r : Run out { outer := {} } s)
    (hb : s.shared.issued < handleLimit) (c : Component) (x : Handle) :
    s.references c x = owners s.outer.wrappers c x + s.coowned c x :=
  ((r.ready q ready_start).sound hb).balance c x

def visit : List Step :=
  [.load .zoo "lib" {} .component, .createZoo "lib" "zoo", .iterate "zoo" "walk",
   .nextAnimal "walk" "giraffe", .roar "giraffe", .animalAt "zoo" 1 "lent",
   .acquire "lent" "tiger", .drop "lent"]

def visited : Process World :=
  visit.foldl (fun s st => (st.run (outside depth) s).2) { outer := {} }

theorem visited_run : Run (outside depth) { outer := {} } visited :=
  Run.refl.steps (by simp [visit, Step.Safe])

/-- What the visit comes to, and what is left when all is dropped, evaluated together. -/
theorem visited_evaluates :
    visited.references .zoo ⟨1⟩ = 3 ∧
    decide (visited.shared.issued < handleLimit) = true ∧
    (visited.outer.wrappers.all fun e =>
      !e.2.owned || ["zoo", "giraffe", "walk", "tiger"].contains e.1) = true ∧
    decide ((dropNamed (outside depth) ["zoo", "giraffe", "walk", "tiger"] visited).shared.issued
      < handleLimit) = true := by
  decide +kernel

theorem visited_issued : visited.shared.issued < handleLimit :=
  of_decide_eq_true visited_evaluates.2.1

/-- The first animal is held by the zoo, the iterator and a wrapper. -/
theorem references_visited :
    visited.references .zoo ⟨1⟩ = 3 ∧
      visited.references .zoo ⟨1⟩
        = owners visited.outer.wrappers .zoo ⟨1⟩ + visited.coowned .zoo ⟨1⟩ := by
  refine ⟨visited_evaluates.1, ?_⟩
  exact references_conserved (outside_harmless depth) visited_run visited_issued .zoo ⟨1⟩

/-! ## The end of a run -/

/-- No object is destroyed before those who hold it let it go. -/
structure Guarded (s : Process World) : Prop where
  /-- What an owned wrapper or a live object holds is live, and was never destroyed. -/
  held : ∀ c x, 0 < owners s.outer.wrappers c x + s.coowned c x →
    (s.count? c x).isSome = true ∧ .destroyed c.name x ∉ s.shared.journal
  /-- Whoever owned an object at its own end had been destroyed before the object was. -/
  before : ∀ c x hs, (x, hs) ∈ s.ended c → ∀ y ∈ hs,
    After s.shared.journal (.destroyed c.name y) (.destroyed c.name x)
  told : ∀ c x, .destroyed c.name x ∈ s.shared.journal → ∃ hs, (x, hs) ∈ s.ended c

structure Cleared (s : Process World) : Prop where
  empty : ∀ c x, s.count? c x = none
  /-- Every object ever made was noted. -/
  made : s.shared.journal.countP Note.isCreated = s.shared.issued
  once : ∀ name x, .created name x ∈ s.shared.journal →
    s.shared.journal.count (.created name x) = 1 ∧ s.shared.journal.count (.destroyed name x) = 1
  clean : ∀ n ∈ s.shared.journal, n.isLoss = false

theorem Ready.guarded (h : Ready s) (hb : s.shared.issued < handleLimit) : Guarded s where
  held _ _ hx := (h.sound hb).held hx
  before _ _ _ hx := (h.sound hb).before hx
  told _ _ hx := (h.sound hb).mem_ended hx

theorem cleared_of_sound (h : Sound 0 s) : Cleared s where
  empty := h.empty
  made := h.made
  once name x hx := by
    obtain ⟨c, rfl⟩ := h.makers _ hx name rfl
    have honce := h.once c x
    have hacc := h.accounted c x
    rw [h.empty c x] at hacc
    have hpos := List.count_pos_iff.mpr hx
    simp only [Option.isSome_none, Bool.false_eq_true, if_false] at hacc
    omega
  clean := h.clean

theorem owners_lent {ws : List (String × Wrapper)} (h : ∀ e ∈ ws, e.2.owned = false) :
    owners ws = 0 := by
  funext c x
  refine List.countP_eq_zero.mpr fun e he => ?_
  simp [h e he]

/-- Wrappers of other names stay. -/
theorem dropNamed_settles (q : Harmless out) (names : List String) {ws : List (String × Wrapper)}
    {ls : List (String × Host.Library)} (t : NamedApart ws ls) (h : Settled ws ls s) :
    Settled (ws.filter fun e => decide (e.1 ∉ names)) ls (dropNamed out names s) := by
  induction names generalizing ws s with
  | nil => simpa [dropNamed] using h
  | cons name rest ih =>
    have hstep : Does (Settled ws ls) ((Step.drop name).run out)
        (fun _ => Settled (without name ws) ls) fun _ => Settled (without name ws) ls :=
      drop_settles (books_staged q) t name
    have hrest := ih (t.without name) (hstep.leaves h)
    rw [List.filter_filter] at hrest
    have hfilter : (ws.filter fun e => decide (e.1 ∉ rest) && e.1 != name)
        = ws.filter fun e => decide (e.1 ∉ name :: rest) := by
      refine List.filter_congr fun e _ => ?_
      by_cases hn : e.1 = name <;> simp [hn]
    rw [hfilter] at hrest
    exact hrest

/-- When the owned wrappers left after a run have been dropped, in whatever order, every
    object has been destroyed once, and on the way none was destroyed while it was held. -/
theorem all_destroyed_once_dropped (q : Harmless out) (r : Run out { outer := {} } s)
    {names : List String} (hall : ∀ e ∈ s.outer.wrappers, e.2.owned = true → e.1 ∈ names)
    (hb : (dropNamed out names s).shared.issued < handleLimit) :
    Cleared (dropNamed out names s) ∧
      ∀ u, Run out { outer := {} } u → u.shared.issued < handleLimit → Guarded u := by
  refine ⟨?_, fun u hu hb => (hu.ready q ready_start).guarded hb⟩
  obtain ⟨ws, ls, t, h⟩ := r.ready q ready_start
  have hend : Settled (ws.filter fun e => decide (e.1 ∉ names)) ls (dropNamed out names s) :=
    dropNamed_settles q names t h
  rw [h.1.outer.wrappers] at hall
  have hlent : owners (ws.filter fun e => decide (e.1 ∉ names)) = 0 := by
    refine owners_lent fun e he => ?_
    obtain ⟨he, hn⟩ := List.mem_filter.mp he
    by_contra ho
    exact of_decide_eq_true hn (hall e he (by simpa using ho))
  rw [Settled, hlent] at hend
  exact cleared_of_sound (hend.2 hb).1

/-- The zoo first, while its animals are still held. -/
theorem all_destroyed_visited :
    Cleared (dropNamed (outside depth) ["zoo", "giraffe", "walk", "tiger"] visited) ∧
      Guarded visited := by
  obtain ⟨-, -, hnames, hb⟩ := visited_evaluates
  have hall : ∀ e ∈ visited.outer.wrappers, e.2.owned = true →
      e.1 ∈ ["zoo", "giraffe", "walk", "tiger"] := by
    intro e he ho
    have hname := List.all_eq_true.mp hnames e he
    rw [ho, Bool.not_true, Bool.false_or] at hname
    exact List.contains_iff_mem.mp hname
  obtain ⟨hend, hway⟩ := all_destroyed_once_dropped (outside_harmless depth) visited_run hall
    (of_decide_eq_true hb)
  exact ⟨hend, hway visited visited_run visited_issued⟩

end Session

end Boundary
