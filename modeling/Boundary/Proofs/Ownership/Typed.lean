/-
  Boundary.Proofs.Ownership.Typed — what live objects own, through any session.

  A live object holds a reference to each object that it owns, so these are alive, and what
  it may own is of one class alone. Wrappers hold references as well, so what a session calls
  is alive.

  Proved, of every state that a session comes to (`Run.upright`):
  - the lists of calculators name variables that are alive, those of zoos and iterators
    animals that are; no animal is in two places of zoos, and no iterator is beyond its end
    (`Typed`);
  - so a call on an object of its own class fails for the few reasons that are left
    (`Answers`);
  - references are given back for a call that failed only where a count is full, or where a
    variable was called in the place of a calculator; and it was never noted that one could
    not be given back (`RollBacks`).
-/
import Boundary.Proofs.Iterator.Walk
import Boundary.Proofs.Ownership.Refusals
import Boundary.Proofs.Zoo.Lists

namespace Boundary

open Exchange (Cell)

namespace Session

variable {out : Outside World} {s : Process World} {e : Ledger}

/-! ## Lists -/

structure Typed (s : Process World) : Prop where
  enlisted : ∀ c vs, s.calculator.get? c = some (.calculator vs) →
    ∀ v ∈ vs, ∃ value, s.calculator.get? v = some (.var value)
  animals : ∀ zoo hs, s.zoo.get? zoo = some (.zoo hs) →
    ∀ x ∈ hs, ∃ species name, s.zoo.get? x = some (.animal species name)
  snapshot : ∀ it hs k, s.zoo.get? it = some (.iterator hs k) →
    ∀ x ∈ hs, ∃ species name, s.zoo.get? x = some (.animal species name)
  /-- No animal is twice in a zoo. -/
  nodup : ∀ zoo hs, s.zoo.get? zoo = some (.zoo hs) → hs.Nodup
  /-- No animal is in two zoos. -/
  apart : ∀ y z hs ks, s.zoo.get? y = some (.zoo hs) → s.zoo.get? z = some (.zoo ks) → y ≠ z →
    hs.Disjoint ks
  /-- No iterator is beyond the end of its list. -/
  place : ∀ it hs k, s.zoo.get? it = some (.iterator hs k) → k ≤ hs.length

theorem typed_of_sound (sound : Sound e s) (ha : Zoo.Arranged s.shared.issued s.zoo) : Typed s where
  enlisted c vs hc v hv := by
    obtain ⟨_, ho, value, rfl⟩ := sound.calculator.owned_leaf hc hv
    exact ⟨value, ho⟩
  animals zoo hs hz x hx := by
    obtain ⟨_, ho, species, name, rfl⟩ := sound.zoo.owned_leaf hz hx
    exact ⟨species, name, ho⟩
  snapshot it hs k hit x hx := by
    obtain ⟨_, ho, species, name, rfl⟩ := sound.zoo.owned_leaf hit hx
    exact ⟨species, name, ho⟩
  nodup := ha.nodup
  apart := ha.apart
  place := ha.place

/-! ## Calls -/

structure Answers (out : Outside World) (s : Process World) : Prop where
  clear : ∀ c vs, s.calculator.get? c = some (.calculator vs) →
    (native out (.clearVariables c) s).1.1 = Status.ok
  enlisted : ∀ c vs, s.calculator.get? c = some (.calculator vs) →
    ∀ (index : UInt32) v, vs[index.toNat]? = some v → ∀ cell,
      FailsFor (fun f => f = .nullOut ∧ cell = none ∨ f = .countOverflow ∧ s.calculator.Full v)
        (native out (.enlistedVariable c index cell) s)
  add : ∀ c vs, s.calculator.get? c = some (.calculator vs) → ∀ cell,
    FailsFor (fun f => f = .nullOut ∧ cell = none ∨ ∃ n, f = .notFinite n)
      (native out (.add c cell) s)
  multiply : ∀ c vs, s.calculator.get? c = some (.calculator vs) → ∀ cell,
    FailsFor (fun f => f = .nullOut ∧ cell = none ∨ ∃ n, f = .notFinite n)
      (native out (.multiply c cell) s)
  animalAt : ∀ zoo hs, s.zoo.get? zoo = some (.zoo hs) →
    ∀ (index : UInt32), index.toNat < hs.length → ∀ cell,
      FailsFor (fun f => f = .nullOut ∧ cell = none) (native out (.animalAt zoo index cell) s)
  iterator : ∀ zoo hs, s.zoo.get? zoo = some (.zoo hs) → ∀ cell,
    FailsFor (fun f => f = .nullOut ∧ cell = none ∨ f = .countOverflow ∧ ∃ x ∈ hs, s.zoo.Full x)
      (native out (.iterator zoo cell) s)
  next : ∀ it hs k, s.zoo.get? it = some (.iterator hs k) → ∀ animal hasAnimal,
    FailsFor (fun f => f = .nullOut ∧ (animal = none ∨ hasAnimal = none) ∨
        f = .countOverflow ∧ ∃ x, hs[k]? = some x ∧ s.zoo.Full x)
      (native out (.nextAnimal it animal hasAnimal) s)
  nextMandatory : ∀ it hs k, s.zoo.get? it = some (.iterator hs k) → ∀ animal,
    FailsFor (fun f => (f = .nullOut ∧ animal = none ∨ f = .exhausted ∧ hs.length ≤ k) ∨
        f = .countOverflow ∧ ∃ x, hs[k]? = some x ∧ s.zoo.Full x)
      (native out (.nextMandatoryAnimal it animal) s)

theorem Typed.answers (h : Typed s) {J : World → Prop} (books : Balanced J e s)
    (hb : s.shared.issued < handleLimit) : Answers out s := by
  have sound : Sound e s := (books.2 hb).1
  have hvariables {c : Handle} {vs : List Handle}
      (hc : s.calculator.get? c = some (.calculator vs)) :
      ∀ v ∈ vs, ∃ value, s.calculator.get v = .ok (.var value) := by
    intro v hv
    obtain ⟨value, ho⟩ := h.enlisted c vs hc v hv
    exact ⟨value, sound.calculator.get ho⟩
  have hlive {hs : List Handle}
      (hall : ∀ x ∈ hs, ∃ species name, s.zoo.get? x = some (.animal species name)) :
      ∀ x ∈ hs, ∃ o, s.zoo.get x = .ok o := by
    intro x hx
    obtain ⟨species, name, ho⟩ := hall x hx
    exact ⟨_, sound.zoo.get ho⟩
  refine ⟨fun c vs hc => ?_, fun c vs hc index v hv cell => ?_, fun c vs hc cell => ?_,
    fun c vs hc cell => ?_, fun zoo hs hz index hindex cell => ?_, fun zoo hs hz cell => ?_,
    fun it hs k hit animal hasAnimal => ?_, fun it hs k hit animal => ?_⟩
  · exact Calculator.clearVariables_ok (sound.calculator.get hc) books hb
  · obtain ⟨value, ho⟩ := h.enlisted c vs hc v (List.mem_of_getElem? hv)
    exact Calculator.enlistedVariable_fails (sound.calculator.get hc) hv ho cell
  · exact Calculator.combine_fails (sound.calculator.get hc) (hvariables hc) _ _ cell
  · exact Calculator.combine_fails (sound.calculator.get hc) (hvariables hc) _ _ cell
  · have hx := List.getElem?_eq_getElem hindex
    obtain ⟨o, ho⟩ := hlive (h.animals zoo hs hz) _ (List.getElem_mem hindex)
    exact Zoo.animalAt_fails (sound.zoo.get hz) hx ho cell
  · exact Zoo.iterator_fails (sound.zoo.get hz) (h.nodup zoo hs hz) (hlive (h.animals zoo hs hz))
      hb cell
  · exact Zoo.nextAnimal_fails (sound.zoo.get hit) (hlive (h.snapshot it hs k hit)) animal hasAnimal
  · exact Zoo.nextMandatoryAnimal_fails (sound.zoo.get hit) (hlive (h.snapshot it hs k hit)) animal

/-! ## Roll backs -/

theorem owners_pos {ws : List (String × Wrapper)} {w : String × Wrapper} (hw : w ∈ ws)
    (howned : w.2.owned = true) (hn : w.2.object.isNull = false) :
    0 < owners ws w.2.object.library.component w.2.object.handle :=
  List.countP_pos_iff.mpr ⟨w, hw, by simp [howned, hn]⟩

/-- Where references are given back for a call that failed: anything else might be done
    there (`undo`) without a difference. -/
structure RollBacks (out : Outside World) (s : Process World) : Prop where
  iterator : ∀ zoo cell undo, Zoo.iteratorOr undo zoo cell s = native out (.iterator zoo cell) s ∨
    ∃ hs, s.zoo.get? zoo = some (.zoo hs) ∧ ∃ x ∈ hs, s.zoo.Full x
  /-- What the session holds is alive. -/
  held : ∀ w ∈ s.outer.wrappers, w.2.object.library.component = .calculator →
    w.2.object.isNull = false → s.calculator.live w.2.object.handle = true
  enlistVariable : ∀ c, s.calculator.live c = true → ∀ v undo,
    Calculator.enlistVariableOr undo c v s = native out (.enlistVariable c v) s ∨
      ∃ value, s.calculator.get? c = some (.var value)
  enlistPrimes : ∀ c sieve undo, Calculator.enlistPrimesOr undo (out.reach .none) c sieve s
      = native out (.enlistPrimes c sieve) s ∨
    handleLimit ≤ (native out (.enlistPrimes c sieve) s).2.shared.issued
  /-- All that a destroyed object owned and all that was taken in vain could be given back. -/
  clean : ∀ n ∈ s.shared.journal, n.isLoss = false

theorem Typed.rollBacks (h : Typed s) (ready : Ready s) (hb : s.shared.issued < handleLimit) :
    RollBacks out s := by
  obtain ⟨ws, ls, namedApart, books⟩ := ready
  have sound : Sound (owners ws) s := (books.2 hb).1
  refine ⟨fun zoo cell undo => ?_, fun w hw hc hn => ?_, fun c hc v undo => ?_,
    fun c sieve undo => ?_, sound.clean⟩
  · refine Zoo.iteratorOr_same (fun hs hz => ⟨h.nodup zoo hs hz, fun x hx => ?_⟩) undo cell
    obtain ⟨species, name, ho⟩ := h.animals zoo hs hz x hx
    exact ⟨_, ho⟩
  · rw [books.1.outer.wrappers] at hw
    have howned : w.2.owned = true := by
      by_contra hlent
      have hzoo := namedApart.lent w hw (Bool.eq_false_iff.mpr hlent)
      rw [hc] at hzoo
      cases hzoo
    have hpos : 0 < owners ws .calculator w.2.object.handle := hc ▸ owners_pos hw howned hn
    obtain ⟨hcount, -⟩ := sound.held (Nat.add_pos_left hpos _)
    obtain ⟨slot, hslot⟩ := Option.isSome_iff_exists.mp (Option.isSome_map ▸ hcount)
    exact Table.live_iff.mpr ⟨slot, hslot⟩
  · obtain ⟨o, hget⟩ := Table.live_iff_get?.mp hc
    cases o with
    | var value => exact .inr ⟨value, hget⟩
    | calculator vs =>
      exact .inl (Calculator.enlistVariableOr_same (sound.calculator.get hget) undo v)
  · refine Calculator.enlistPrimesOr_same out .none (fun vs hget => ?_) undo sieve
    exact ⟨books.1.reserved, books.1.injected,
      fun _ => ⟨sound.calculator.raw_le (Table.get_ok hget), vs, hget⟩⟩

/-! ## Sessions -/

structure Upright (out : Outside World) (s : Process World) : Prop where
  typed : Typed s
  answers : Answers out s
  rollBacks : RollBacks out s

theorem Run.typed (q : Harmless out) (r : Run out { outer := {} } s)
    (hb : s.shared.issued < handleLimit) : Typed s :=
  typed_of_sound ((r.ready q ready_start).sound hb) (r.arranged q hb)

/-- In every session what objects own is alive and of the right class, so that calls on objects
    of their own class find it, and no reference is given back for nothing. -/
theorem Run.upright (q : Harmless out) (r : Run out { outer := {} } s)
    (hb : s.shared.issued < handleLimit) : Upright out s := by
  have ready : Ready s := r.ready q ready_start
  have htyped : Typed s := typed_of_sound (ready.sound hb) (r.arranged q hb)
  obtain ⟨_, _, -, books⟩ := id ready
  exact ⟨htyped, htyped.answers books hb, htyped.rollBacks ready hb⟩

def tending : List Step :=
  [.load .zoo "animals" {} .component, .createZoo "animals" "zoo", .iterate "zoo" "walk",
   .nextAnimal "walk" "giraffe", .load .primes "numbers" {} .component,
   .load .calculator "sums" {} .component, .injectPrimes "sums" "numbers",
   .createSieve "numbers" "sieve", .setValue "sieve" 7, .calculate "sieve",
   .createCalculator "sums" "sum", .enlistPrimes "sum" "sieve", .enlisted "sum" 1 "three"]

def tended : Process World :=
  tending.foldl (fun s st => (st.run (outside depth) s).2) { outer := {} }

theorem tended_evaluates :
    tended.zoo.get? ⟨5⟩ = some (.zoo [⟨1⟩, ⟨2⟩, ⟨3⟩, ⟨4⟩]) ∧
    tended.zoo.get? ⟨6⟩ = some (.iterator [⟨1⟩, ⟨2⟩, ⟨3⟩, ⟨4⟩] 1) ∧
    tended.calculator.ownedBy ⟨8⟩ = [⟨9⟩, ⟨10⟩, ⟨11⟩, ⟨12⟩] ∧
    tended.calculator.count? ⟨10⟩ = some 2 ∧
    decide (tended.shared.issued < handleLimit) = true := by
  decide +kernel

theorem tended_run : Run (outside depth) { outer := {} } tended :=
  Run.refl.steps (by simp [tending, Step.Safe])

theorem upright_tended :
    tended.zoo.get? ⟨6⟩ = some (.iterator [⟨1⟩, ⟨2⟩, ⟨3⟩, ⟨4⟩] 1) ∧
      tended.calculator.ownedBy ⟨8⟩ = [⟨9⟩, ⟨10⟩, ⟨11⟩, ⟨12⟩] ∧
      Upright (outside depth) tended := by
  obtain ⟨-, hit, hlist, -, hb⟩ := tended_evaluates
  exact ⟨hit, hlist, Run.upright (outside_harmless depth) tended_run (of_decide_eq_true hb)⟩

end Session

end Boundary
