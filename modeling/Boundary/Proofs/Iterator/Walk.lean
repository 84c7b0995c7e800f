/-
  Boundary.Proofs.Iterator.Walk — an iterator through any course of a session.

  A walk begins when an iterator over a zoo is made. From then on the host takes safe steps
  and makes native calls, in any order and on any thread: it adds animals to the zoo, drops
  it, moves other iterators on, gives animals back. A walk counts the calls that moved its
  own iterator on, of either variant, and keeps a ledger of the references that native calls
  left in the host's hands, outside of all wrappers.

  Proved: at any time of a walk at which the iterator is alive, what the next call answers is
  fixed by the list of the zoo when the iterator was made and by the number of calls so far
  (`iterator_serves_snapshot`).
-/
import Boundary.Proofs.Iterator.Answers

namespace Boundary.Session

open Exchange (Cell Host)
open Host (Instance Library)

/-! ## Walks -/

def Stands (on : String) (x : Handle) (s : Process World) : Prop :=
  (s.outer.wrappers.lookup on).map (fun w => (w.object.library.component, w.object.handle))
    = some (.zoo, x)

instance (on : String) (x : Handle) (s : Process World) : Decidable (Stands on x s) :=
  inferInstanceAs (Decidable (_ = _))

def counted (k : Nat) (status : Status) : Nat := if status = Status.ok then k + 1 else k

def given {ρ : Type} (c : Call ρ) (r : Status × ρ) : Ledger :=
  if r.1 = Status.ok then c.gives r.2 else 0

abbrev native (out : Outside World) {ρ : Type} (c : Call ρ) : Act World (Status × ρ) :=
  perform out (out.reach .none) c

/-- From `s₀`, where the zoo has these animals, an iterator was made, and then `k` calls have
    moved it on. The host holds the references of `held` itself. -/
inductive Walk (out : Outside World) (zoo : Handle) (animals : List Handle)
    (s₀ : Process World) (it : Handle) : Nat → Ledger → Process World → Prop where
  /-- The iterator was made by a native call. -/
  | made {cell : Cell FatHandle} {tag : UInt64} : (Call.iterator zoo cell).Plain →
      (native out (.iterator zoo cell) s₀).1 = (Status.ok, some ⟨it, tag⟩) →
      Walk out zoo animals s₀ it 0 (.of .zoo [it]) (native out (.iterator zoo cell) s₀).2
  /-- The iterator was made through a wrapper of the zoo. -/
  | iterate {on keep : String} : Stands on zoo s₀ →
      ((Step.iterate on keep).run out s₀).1 = .ok (.stored .animalIterator it) →
      Walk out zoo animals s₀ it 0 0 ((Step.iterate on keep).run out s₀).2
  /-- Any safe step but those that walk the iterator. -/
  | step {k : Nat} {held : Ledger} {u : Process World} {st : Step} :
      Walk out zoo animals s₀ it k held u → st.Safe → st.InTurn (· ≠ it) u.outer.wrappers →
      Walk out zoo animals s₀ it k held (st.run out u).2
  /-- Any plain native call but those that move the iterator on. -/
  | call {k : Nat} {held : Ledger} {u : Process World} {ρ : Type} {c : Call ρ} :
      Walk out zoo animals s₀ it k held u → c.Plain → c.InTurn (· ≠ it) →
      Walk out zoo animals s₀ it k (held + given c (native out c u).1) (native out c u).2
  /-- A reference that the host holds is given back. -/
  | giveBack {k : Nat} {held : Ledger} {u : Process World} {c : Component} {x : Handle} :
      Walk out zoo animals s₀ it k (held + .of c [x]) u →
      Walk out zoo animals s₀ it k held (native out (.releaseInstance c x) u).2
  /-- A native call of either variant, whatever memory it may answer in. -/
  | nextCall {k : Nat} {held : Ledger} {u : Process World} {ρ : Type} {c : Call ρ} :
      Walk out zoo animals s₀ it k held u → c.Plain → c.advances = some it →
      Walk out zoo animals s₀ it (counted k (native out c u).1.1)
        (held + given c (native out c u).1) (native out c u).2
  /-- The optional variant, called through a wrapper. -/
  | next {k : Nat} {held : Ledger} {u : Process World} {on keep : String} :
      Walk out zoo animals s₀ it k held u → Stands on it u →
      Walk out zoo animals s₀ it
        (counted k (native out (.nextAnimal it (some FatHandle.null) (some false)) u).1.1) held
        ((Step.nextAnimal on keep).run out u).2
  /-- The mandatory variant, called through a wrapper. -/
  | nextMandatory {k : Nat} {held : Ledger} {u : Process World} {on keep : String} :
      Walk out zoo animals s₀ it k held u → Stands on it u →
      Walk out zoo animals s₀ it
        (counted k (native out (.nextMandatoryAnimal it (some FatHandle.null)) u).1.1) held
        ((Step.nextMandatoryAnimal on keep).run out u).2
  /-- Some calls in a row, each animal being given back. The position tells how many. -/
  | collect {k k' limit : Nat} {held : Ledger} {u : Process World} {on : String} :
      Walk out zoo animals s₀ it k held u → Stands on it u → k ≤ k' →
      ((Step.collect on limit).run out u).2.zoo.get? it
        = some (.iterator animals (min k' animals.length)) →
      Walk out zoo animals s₀ it k' held ((Step.collect on limit).run out u).2
  | thread {k : Nat} {held : Ledger} {u : Process World} (n m : Nat) :
      Walk out zoo animals s₀ it k held u →
      Walk out zoo animals s₀ it k held
        { u with shared := { u.shared with thread := n, threads := m } }

variable {out : Outside World} {s₀ s u : Process World} {it zoo : Handle} {animals : List Handle}
  {was : Handle → Option Zoo.Object} {k : Nat} {held : Ledger} {on keep : String}

/-! ## The books of a walk -/

abbrev Holding (held : Ledger) : (World → Prop) → Ledger → Process World → Prop :=
  fun J e => Balanced J (e + held)

theorem holding_staged (q : Harmless out) (held : Ledger) :
    Staged out .all (Holding held) :=
  (books_staged q).beside held

theorem holding_none (h : Ready s) : Between (Holding 0) s := h

/-- What a plain call gives goes to what the host holds. -/
theorem holding_call (q : Harmless out) {ρ : Type} {c : Call ρ} (hc : c.Plain)
    (h : Between (Holding held) u) :
    Between (Holding (held + given c (native out c u).1)) (native out c u).2 := by
  obtain ⟨ws, ls, t, h⟩ := h.call (holding_staged q held) hc c.allowed_all
  refine t.between (B := Holding _) ?_
  rw [Known, Holding, ← add_assoc, add_right_comm]
  exact h

theorem holding_given {J : World → Prop} {e : Ledger} (c : Component) (x : Handle) :
    Ends (Balanced J (e + .of c [x])) (native out (.releaseInstance c x)) fun _ => Balanced J e :=
  (perform_release _ c x).post fun _ _ h => h.balanced

theorem holding_release {c : Component} {x : Handle} (h : Between (Holding (held + .of c [x])) u) :
    Between (Holding held) (native out (.releaseInstance c x) u).2 := by
  obtain ⟨ws, ls, t, h⟩ := h
  rw [Known, Holding, ← add_assoc] at h
  exact t.between (B := Holding held) (holding_given c x u h)

theorem Walk.holding (q : Harmless out) (h₀ : Ready s₀)
    (w : Walk out zoo animals s₀ it k held u) : Between (Holding held) u := by
  have hstep {held : Ledger} {st : Step} {u : Process World} (safe : st.Safe)
      (h : Between (Holding held) u) : Between (Holding held) (st.run out u).2 :=
    h.step (holding_staged q held) safe (st.allowed_all _)
  induction w with
  | made hc hok =>
    have h := holding_call q hc (holding_none h₀)
    rw [hok, given, if_pos rfl, zero_add] at h
    exact h
  | iterate _ _ => exact hstep trivial (holding_none h₀)
  | step _ safe _ ih => exact hstep safe ih
  | call _ hc _ ih => exact holding_call q hc ih
  | giveBack _ ih => exact holding_release ih
  | nextCall _ hc _ ih => exact holding_call q hc ih
  | next _ _ ih => exact hstep trivial ih
  | nextMandatory _ _ ih => exact hstep trivial ih
  | collect _ _ _ _ ih => exact hstep trivial ih
  | thread n m _ ih =>
    obtain ⟨ws, ls, t, h⟩ := ih
    exact t.between (B := Holding _) (h.thread n m)

/-! ## The position on a walk -/

abbrev Placing (it : Handle) (animals : List Handle) (was : Handle → Option Zoo.Object) (k : Nat) :
    (World → Prop) → Ledger → Process World → Prop :=
  fun J _ => Placed it animals was J k

theorem placing_staged (q : Harmless out) :
    Staged out (.turns (· ≠ it)) (Placing it animals was k) where
  upheld ws ls := snap_upheld (q ws ls)
  outer h := h.1
  move h _ _ hw := ⟨hw, ⟨h.2.guarded, h.2.injected, h.2.pinned⟩, h.2.iterator⟩

theorem ahead_staged (q : Harmless out) :
    Staged out .all fun J _ => Ahead it animals was J k where
  upheld ws ls := ahead_upheld (q ws ls)
  outer := fun ⟨_, _, h⟩ => h.1
  move := fun ⟨j, hj, h⟩ _ _ hw =>
    ⟨j, hj, hw, ⟨h.2.guarded, h.2.injected, h.2.pinned⟩, h.2.iterator⟩

/-- The object of the name is found, and finding it changes nothing. -/
theorem Stands.object {x : Handle} {ws : List (String × Wrapper)} {ls : List (String × Library)}
    (hon : Stands on x u) (t : NamedApart ws ls) (hws : u.outer.wrappers = ws) :
    ∃ i : Instance, i.Home ∧ i.library.component = .zoo ∧ i.handle = x ∧
      ∀ E, Does (fun s => s = u) (objectOf .zoo on) (fun i' s => i' = i ∧ s = u) E := by
  obtain ⟨w, hw, hx⟩ := Option.map_eq_some_iff.mp hon
  obtain ⟨hc, hx⟩ := Prod.mk.inj hx
  refine ⟨w.object, t.wrappers _ (mem_of_lookup (hws ▸ hw)), hc, hx, fun E => ?_⟩
  have hname : Does (fun s => s = u) (wrapperNamed on) (fun v s => v = w ∧ s = u) E := by
    refine .bind (Q := fun s' s => s' = u ∧ s = u) (fun s h => ⟨h, h⟩)
      fun s' => .assume fun hs => ?_
    rw [hs, hw]
    exact .pure fun _ h => ⟨rfl, h⟩
  refine .bind hname fun v => .assume fun hv => ?_
  subst hv
  exact .ite (fun _ => .pure fun _ h => ⟨rfl, h⟩) fun hne => absurd hc hne

theorem next_counts {J : World → Prop} {ρ : Type} {c : Call ρ} (hc : c.advances = some it)
    (h : Placed it animals was J k u) :
    Placed it animals was J (counted k (native out c u).1.1) (native out c u).2 := by
  have hcall : Ends (Placed it animals was J k) (native out c) fun r s =>
      Placed it animals was J (counted k r.1) s := by
    refine (next_moves hc (out.reach .none)).post fun r s h => ?_
    unfold counted
    split at h
    · next hok => rwa [if_pos hok]
    · next hne => rwa [if_neg hne]
  exact hcall u h

/-- The call that a step makes, and the position that it comes to. -/
theorem next_ends {J : World → Prop} {ρ : Type} {c : Call ρ} (hc : c.advances = some it)
    (h : Placed it animals was J k u) :
    Ends (fun s => s = u) (native out c) fun _ =>
      Placed it animals was J (counted k (native out c u).1.1) := by
  rintro s rfl
  exact next_counts hc h

/-- Without an object the step makes no call, and none would count. -/
theorem null_counts {J : World → Prop} {ρ : Type} {c : Call ρ} (hc : c.advances = some it)
    (h : Placed it animals was J k u) (hn : it.isNull = true) :
    ∀ s, s = u → Placed it animals was J (counted k (native out c u).1.1) s := by
  rintro s rfl
  rwa [counted, if_neg (next_null hc hn (out.reach .none) s)]

theorem nextAnimal_placing (q : Harmless out) (hon : Stands on it u)
    (h : Between (Placing it animals was k) u) :
    Between (Placing it animals was
      (counted k (native out (.nextAnimal it (some FatHandle.null) (some false)) u).1.1))
      ((Step.nextAnimal on keep).run out u).2 := by
  obtain ⟨ws, ls, t, h⟩ := h
  obtain ⟨i, hi, hc, rfl, hfind⟩ := hon.object t h.1.wrappers
  refine Does.leaves (P := fun s => s = u) (.bind (hfind _) fun i' => .assume fun hi' => ?_) rfl
  subst hi'
  refine came_does (placing_staged q) t ?_ keep
  exact Host.Zoo.nextAnimal_from (snap_upheld (q ws ls)) hi hc (null_counts rfl h) (next_ends rfl h)

theorem nextMandatoryAnimal_placing (q : Harmless out) (hon : Stands on it u)
    (h : Between (Placing it animals was k) u) :
    Between (Placing it animals was
      (counted k (native out (.nextMandatoryAnimal it (some FatHandle.null)) u).1.1))
      ((Step.nextMandatoryAnimal on keep).run out u).2 := by
  obtain ⟨ws, ls, t, h⟩ := h
  obtain ⟨i, hi, hc, rfl, hfind⟩ := hon.object t h.1.wrappers
  refine Does.leaves (P := fun s => s = u) (.bind (hfind _) fun i' => .assume fun hi' => ?_) rfl
  subst hi'
  refine make_does (placing_staged q) t ?_ keep .animal
  exact Host.Zoo.nextMandatoryAnimal_from (e := owners ws) (snap_upheld (q ws ls)) hi hc
    (null_counts rfl h) (next_ends rfl h)

theorem collect_ahead (q : Harmless out) {limit : Nat}
    (h : Between (Placing it animals was k) u) :
    Between (fun J _ => Ahead it animals was J k) ((Step.collect on limit).run out u).2 := by
  obtain ⟨ws, ls, t, h⟩ := h
  have hahead : Between (fun J _ => Ahead it animals was J k) u := t.between ⟨k, le_rfl, h⟩
  exact hahead.step (ahead_staged q) (by exact trivial) (Step.allowed_all _ _)

/-- The position tells how many calls were made in a row. -/
theorem collect_placing (q : Harmless out) {k' limit : Nat}
    (h : Between (Placing it animals was k) u)
    (hpos : ((Step.collect on limit).run out u).2.zoo.get? it
      = some (.iterator animals (min k' animals.length))) :
    Between (Placing it animals was k') ((Step.collect on limit).run out u).2 := by
  obtain ⟨ws, ls, t, j, -, h⟩ := collect_ahead q h
  refine t.between (B := Placing it animals was k') ⟨h.1, h.2.toListed, fun hb => ?_⟩
  obtain ⟨hx, ho⟩ := h.2.iterator hb
  exact ⟨hx, fun o hs => (ho o hs).trans (ho _ hpos).symm⟩

/-! ## The start of a walk -/

/-- A new wrapper of an iterator is at the first animal. -/
theorem iterate_snaps {J : World → Prop} (q : OutsideOnly J out) {i : Instance} (hi : i.Home) :
    Does (fun s => J s.outer ∧ Source i.handle animals was s) (Host.Zoo.iterate out.invoker i)
      (fun it s => it.Home ∧ Placed it.handle animals was J 0 s) fun _ _ => True := by
  refine .bind (Host.Instance.checked_from fun _ _ _ => trivial) fun h => .assume fun hh => ?_
  subst hh
  refine .bind (Host.Instance.ask_tells hi
    (Q := fun cell => Placed (cell.getD FatHandle.null).handle animals was J 0)
    (iterator_snaps (some FatHandle.null))) fun cell => ?_
  refine (Host.adopt_does (snap_upheld q) .animalIterator (e := 0)
    (i := ⟨i.library, (cell.getD FatHandle.null).handle⟩) hi _).mono (fun _ h => h)
    (fun it s h => ?_) fun _ _ _ => trivial
  obtain ⟨rfl, h⟩ := h
  exact ⟨hi, h⟩

theorem iterate_placing (q : Harmless out) (h₀ : Ready s₀)
    (hzoo : s₀.zoo.get? zoo = some (.zoo animals)) (hon : Stands on zoo s₀)
    (hrun : ((Step.iterate on keep).run out s₀).1 = .ok (.stored .animalIterator it)) :
    Between (Placing it animals s₀.zoo.get? 0) ((Step.iterate on keep).run out s₀).2 := by
  obtain ⟨ws, ls, t, h⟩ := h₀
  obtain ⟨i, hi, hc, rfl, hfind⟩ := hon.object t h.1.outer.wrappers
  have hstep : Does (fun s => s = s₀) ((Step.iterate on keep).run out)
      (fun v s => v = .stored .animalIterator it → Between (Placing it animals s₀.zoo.get? 0) s)
      fun _ _ => True := by
    refine .bind (hfind _) fun i' => .assume fun hi' => ?_
    subst hi'
    have hiter : Does (fun s => s = s₀) (Host.Zoo.iterate out.invoker i')
        (fun it s => it.Home ∧ Placed it.handle animals s₀.zoo.get? (Stage ws ls) 0 s)
        fun _ _ => True :=
      (iterate_snaps (q ws ls) hi).pre fun s hs => by
        subst hs
        exact ⟨h.1.outer, source_of_books h hzoo⟩
    refine .bind (bindings_does hiter) fun i => .assume fun hi => ?_
    · refine .bind ((keepWrapper_does (placing_staged q) t keep
        (w := ⟨.animalIterator, i, true⟩) hi fun h => by cases h).failing fun _ _ _ => trivial) fun _ => ?_
      refine .pure fun s hs hv => ?_
      cases hv
      exact hs
  have hafter := hstep s₀ rfl
  change Either _ _ ((Step.iterate on keep).run out s₀).1 _ at hafter
  rw [hrun] at hafter
  exact hafter rfl

theorem made_placing (h₀ : Ready s₀)
    (hzoo : s₀.zoo.get? zoo = some (.zoo animals)) {cell : Cell FatHandle} {tag : UInt64}
    (hmade : (native out (.iterator zoo cell) s₀).1 = (Status.ok, some ⟨it, tag⟩)) :
    Between (Placing it animals s₀.zoo.get? 0) (native out (.iterator zoo cell) s₀).2 := by
  obtain ⟨ws, ls, t, h⟩ := h₀
  have hcall : (native out (.iterator zoo cell) s₀).1.1 = Status.ok →
      Placed ((native out (.iterator zoo cell) s₀).1.2.getD FatHandle.null).handle animals
        s₀.zoo.get? (Stage ws ls) 0 (native out (.iterator zoo cell) s₀).2 :=
    iterator_snaps cell s₀ ⟨h.1.outer, source_of_books h hzoo⟩
  rw [hmade] at hcall
  exact t.between (B := Placing it animals s₀.zoo.get? 0) (hcall rfl)

/-! ## Walks keep the snapshot -/

theorem Walk.placing (q : Harmless out) (h₀ : Ready s₀)
    (hzoo : s₀.zoo.get? zoo = some (.zoo animals)) (w : Walk out zoo animals s₀ it k held u) :
    Between (Placing it animals s₀.zoo.get? k) u := by
  induction w with
  | made _ hmade => exact made_placing h₀ hzoo hmade
  | iterate hon hrun => exact iterate_placing q h₀ hzoo hon hrun
  | step _ safe hturn ih => exact ih.step (placing_staged q) safe hturn.allowed
  | call _ hc hturn ih => exact ih.call (placing_staged q) hc hturn.allowed
  | @giveBack k held u c x _ ih =>
    obtain ⟨ws, ls, t, h⟩ := ih
    exact t.between (B := Placing it animals _ k) (perform_snap (q ws ls)
      (c := .releaseInstance c x) (fun _ h => by cases h) trivial u h)
  | nextCall _ _ hc ih =>
    obtain ⟨ws, ls, t, h⟩ := ih
    exact t.between (B := Placing _ _ _ _) (next_counts hc h)
  | next _ hon ih => exact nextAnimal_placing q hon ih
  | nextMandatory _ hon ih => exact nextMandatoryAnimal_placing q hon ih
  | collect _ _ _ hpos ih => exact collect_placing q ih hpos
  | thread n m _ ih =>
    obtain ⟨ws, ls, t, h⟩ := ih
    exact t.between (B := Placing _ _ _ _) (h.later ⟨le_rfl, fun _ _ _ _ h => h, rfl, rfl, rfl⟩)

/-- Calls in a row never end a walk while the iterator is alive. -/
theorem Walk.collected (q : Harmless out) (h₀ : Ready s₀)
    (hzoo : s₀.zoo.get? zoo = some (.zoo animals)) (w : Walk out zoo animals s₀ it k held u)
    (hon : Stands on it u) {limit : Nat} {o : Zoo.Object}
    (live : ((Step.collect on limit).run out u).2.zoo.get? it = some o)
    (new : ((Step.collect on limit).run out u).2.shared.issued < handleLimit) :
    ∃ k', k ≤ k' ∧ Walk out zoo animals s₀ it k' held ((Step.collect on limit).run out u).2 := by
  have hafter : Between _ ((Step.collect on limit).run out u).2 :=
    collect_ahead q (w.placing q h₀ hzoo)
  obtain ⟨_, _, _, j, hj, h⟩ := hafter
  refine ⟨j, hj, w.collect hon hj ?_⟩
  rw [live, (h.2.iterator new).2 o live]

/-- Whatever else has happened since an iterator was made: while it is alive and another
    reference can be counted, the next call hands out the animal of the zoo's list at that
    time which is next, with its own tag and one fresh reference, and at the end of the list
    there is none for good. -/
theorem iterator_serves_snapshot (q : Harmless out) (r : Run out { outer := {} } s₀)
    (hzoo : s₀.zoo.get? zoo = some (.zoo animals)) (w : Walk out zoo animals s₀ it k held u)
    (fit : Fit it animals u) : Serves it animals s₀.zoo.get? k u := by
  have h₀ : Ready s₀ := r.ready q ready_start
  obtain ⟨_, _, _, hbooks⟩ := w.holding q h₀
  obtain ⟨_, _, _, hplaced⟩ := w.placing q h₀ hzoo
  exact hplaced.2.serves (hbooks.2 fit.new).1 fit

def opened : Process World :=
  [Step.load .zoo "lib" {} .component, .createZoo "lib" "zoo"].foldl
    (fun s st => (st.run (outside depth) s).2) { outer := {} }

theorem opened_run : Run (outside depth) { outer := {} } opened :=
  Run.refl.steps (by simp [Step.Safe])

def tour : List Step :=
  [.iterate "zoo" "walk", .drop "zoo", .nextAnimal "walk" "giraffe",
   .nextMandatoryAnimal "walk" "tiger", .drop "giraffe"]

def toured (n : Nat) : Process World :=
  (tour.take n).foldl (fun s st => (st.run (outside depth) s).2) opened

/-- What the steps of the tour come to, evaluated together. -/
theorem toured_evaluates :
    opened.zoo.get? ⟨5⟩ = some (.zoo [⟨1⟩, ⟨2⟩, ⟨3⟩, ⟨4⟩]) ∧
    Stands "zoo" ⟨5⟩ opened ∧
    (match ((Step.iterate "zoo" "walk").run (outside depth) opened).1 with
      | .ok (.stored label x) => decide (label = .animalIterator ∧ x = ⟨6⟩)
      | _ => false) = true ∧
    Stands "walk" ⟨6⟩ (toured 2) ∧
    counted 0 (native (outside depth) (.nextAnimal ⟨6⟩ (some FatHandle.null) (some false))
      (toured 2)).1.1 = 1 ∧
    Stands "walk" ⟨6⟩ (toured 3) ∧
    counted 1 (native (outside depth) (.nextMandatoryAnimal ⟨6⟩ (some FatHandle.null))
      (toured 3)).1.1 = 2 ∧
    ((toured 5).zoo.count? ⟨6⟩).isSome = true ∧
    ([⟨1⟩, ⟨2⟩, ⟨3⟩, ⟨4⟩] : List Handle).all
      (fun x => (toured 5).zoo.count? x != some 4294967295) = true ∧
    decide ((toured 5).shared.issued < handleLimit) = true := by
  decide +kernel

theorem toured_zero : toured 0 = opened := by
  rw [toured, List.take_zero, List.foldl_nil]

/-- Each step of the tour is taken where those before it have led. -/
theorem toured_succ (n : Nat) (st : Step) (h : tour[n]? = some st) :
    toured (n + 1) = (st.run (outside depth) (toured n)).2 := by
  rw [toured, List.take_add_one, h, List.foldl_append]
  rfl

theorem toured_walk :
    Walk (outside depth) ⟨5⟩ [⟨1⟩, ⟨2⟩, ⟨3⟩, ⟨4⟩] opened ⟨6⟩ 2 0 (toured 5) := by
  obtain ⟨-, hzoo, hstored, hfirst, hone, hsecond, htwo, -⟩ := toured_evaluates
  have hmade : ((Step.iterate "zoo" "walk").run (outside depth) opened).1
      = .ok (.stored .animalIterator ⟨6⟩) := by
    split at hstored
    · next label x hrun =>
      obtain ⟨rfl, rfl⟩ := of_decide_eq_true hstored
      exact hrun
    · cases hstored
  have made : Walk (outside depth) ⟨5⟩ [⟨1⟩, ⟨2⟩, ⟨3⟩, ⟨4⟩] opened ⟨6⟩ 0 0 (toured 1) := by
    rw [toured_succ 0 (.iterate "zoo" "walk") rfl, toured_zero]
    exact .iterate hzoo hmade
  have alone : Walk (outside depth) ⟨5⟩ [⟨1⟩, ⟨2⟩, ⟨3⟩, ⟨4⟩] opened ⟨6⟩ 0 0 (toured 2) := by
    rw [toured_succ 1 (.drop "zoo") rfl]
    exact made.step (by exact trivial) fun _ h => by cases h
  have giraffe : Walk (outside depth) ⟨5⟩ [⟨1⟩, ⟨2⟩, ⟨3⟩, ⟨4⟩] opened ⟨6⟩ 1 0 (toured 3) := by
    rw [toured_succ 2 (.nextAnimal "walk" "giraffe") rfl]
    exact hone ▸ alone.next hfirst
  have tiger : Walk (outside depth) ⟨5⟩ [⟨1⟩, ⟨2⟩, ⟨3⟩, ⟨4⟩] opened ⟨6⟩ 2 0 (toured 4) := by
    rw [toured_succ 3 (.nextMandatoryAnimal "walk" "tiger") rfl]
    exact htwo ▸ giraffe.nextMandatory hsecond
  rw [toured_succ 4 (.drop "giraffe") rfl]
  exact tiger.step (by exact trivial) fun _ h => by cases h

/-- The third animal is next, as it was when the iterator was made. -/
theorem serves_toured :
    opened.zoo.get? ⟨5⟩ = some (.zoo [⟨1⟩, ⟨2⟩, ⟨3⟩, ⟨4⟩]) ∧
      Serves ⟨6⟩ [⟨1⟩, ⟨2⟩, ⟨3⟩, ⟨4⟩] opened.zoo.get? 2 (toured 5) := by
  obtain ⟨hzoo, -, -, -, -, -, -, hlive, hroom, hnew⟩ := toured_evaluates
  have fit : Fit ⟨6⟩ [⟨1⟩, ⟨2⟩, ⟨3⟩, ⟨4⟩] (toured 5) :=
    ⟨hlive, fun x hx => bne_iff_ne.mp (List.all_eq_true.mp hroom x hx), of_decide_eq_true hnew⟩
  exact ⟨hzoo, iterator_serves_snapshot (outside_harmless depth) opened_run hzoo toured_walk fit⟩

end Boundary.Session
