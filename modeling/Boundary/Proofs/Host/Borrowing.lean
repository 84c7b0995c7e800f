/-
  Boundary.Proofs.Host.Borrowing — wrappers of objects that are lent.

  A view is made by the same resolution that adopts references (`resolve_borrowed` beside
  `resolve`), so an instance is built of a handle for which nobody answers. It stands for no
  reference, and is detached on every exit: where the tag cannot be queried, where the class does
  not fit (`resolveBorrowed_leavesIntact`), and where the view is dropped (`dropWrapper_lent`). To
  keep the object, a reference of one's own is taken through the view.

  Proved, in any state of the process: a handle is lent exactly where it would have been adopted,
  and refused with the same failure; whatever is done with views, all is left as it was but last
  errors and notes (`Views.intact`); and a reference that is taken counts for one, and for one
  when it is given back (`borrowing_moves_nothing`).
-/
import Boundary.Proofs.Host.References
import Boundary.Proofs.Host.Tags
import Boundary.Proofs.Host.Wrappers
import Boundary.Session.Run

namespace Boundary

variable {ω α ρ : Type} {out : Outside ω} {via : Invoker (Process ω)} {s₀ s u : Process ω}

/-! ## Calls -/

def Call.Reads {ρ : Type} : Call ρ → Prop
  | classTypeId _ _ _ | animalCount _ _ | animalAt _ _ _ | animalName _ _ _ | tigerRoar _ _ _
  | getVariable _ _ | getValue _ _ | primeFactors _ _ _ | primes _ _ _ => True
  | _ => False

theorem Call.Reads.intact {c : Call ρ} (h : c.Reads) :
    Ends s₀.Intact (perform out via c) fun _ => s₀.Intact := by
  cases c <;> try exact h.elim
  case classTypeId c x tag =>
    cases c with
    | zoo => exact (Fixed.classTypeId_routed x tag).keeps (zooSpot.fail x)
    | calculator => exact (Fixed.classTypeId_routed x tag).keeps (calculatorSpot.fail x)
    | primes => exact (Fixed.classTypeId_routed x tag).keeps (primesSpot.fail x)
  case animalCount zoo count => exact (Zoo.animalCount_routed zoo count).keeps (zooSpot.fail zoo)
  case animalAt zoo index animal =>
    exact (Zoo.animalAt_routed zoo index animal).keeps (zooSpot.fail zoo)
  case animalName animal capacity place =>
    exact (Zoo.animalName_routed animal capacity place).keeps (zooSpot.fail animal)
  case tigerRoar tiger capacity place =>
    exact (Zoo.tigerRoar_routed tiger capacity place).keeps (zooSpot.fail tiger)
  case getVariable v value =>
    exact (Calculator.getVariable_routed v value).keeps (calculatorSpot.fail v)
  case getValue x value => exact (Primes.getValue_routed x value).keeps (primesSpot.fail x)
  case primeFactors x capacity place =>
    exact (Primes.primeFactors_routed x capacity place).keeps (primesSpot.fail x)
  case primes x capacity place =>
    exact (Primes.primes_routed x capacity place).keeps (primesSpot.fail x)

namespace Host

open Exchange (Host)

/-! ## Methods -/

/-- It leaves all as it was but last errors and notes, whether it succeeds or fails. -/
def LeavesIntact (x : Host (Process ω) α) : Prop :=
  ∀ s₀ : Process ω, Does s₀.Intact x (fun _ => s₀.Intact) fun _ => s₀.Intact

theorem outlastsNotes_intact (s₀ : Process ω) : OutlastsNotes s₀.Intact :=
  fun n _ _ h => h.noted [n]

variable {i : Instance} {l : Library}

namespace Instance

theorem ask_leavesIntact (hi : i.Home) {c : Call ρ} (hc : c.Reads) :
    LeavesIntact (i.ask out.invoker c) :=
  fun s₀ => ask_told hi (outlastsNotes_intact s₀) (hc.intact.post fun r s h => by rwa [ite_self])

theorem classTypeId_leavesIntact (hi : i.Home) : LeavesIntact (i.classTypeId out.invoker) :=
  fun s₀ => .bind checked_does fun x => .assume fun _ =>
    Library.classTypeId_keeps (outlastsNotes_intact s₀) hi x
      (Call.Reads.intact (c := .classTypeId i.library.component x (some 0)) trivial)

theorem lastError_leavesIntact (hi : i.Home) : LeavesIntact (i.lastError out.invoker) :=
  fun s₀ => .bind checked_does fun _ => .assume fun _ =>
    Library.fetchLastError_does (outlastsNotes_intact s₀) hi _

end Instance

/-- On the exits that fail the instance is detached, on the other it is the view's. -/
theorem resolveBorrowed_leavesIntact (hl : l.Home) (T : Class) (raw : RawHandle) :
    LeavesIntact (resolveBorrowed out.invoker l T raw) := by
  intro s₀
  have hasks : LeavesIntact (Instance.classTypeId out.invoker ⟨l, raw.handle⟩) :=
    Instance.classTypeId_leavesIntact hl
  have hresolved := resolveInstance_does (outlastsNotes_intact s₀) T (hasks s₀) raw.cached
  refine Resolution.settled_does (hresolved.post fun _ _ h => h.2) fun why j => .assume fun _ => ?_
  rw [Instance.detach_silent]
  exact .pure fun _ h => h

inductive Reading {σ : Type} [Journal σ] (via : Invoker σ) (i : Instance) :
    {α : Type} → Host σ α → Prop where
  | classTypeId : Reading via i (i.classTypeId via)
  | lastError : Reading via i (i.lastError via)
  | animalName : Reading via i (Zoo.animalName via i)
  | roar : Reading via i (Zoo.roar via i)
  | animalCount : Reading via i (Zoo.animalCount via i)
  | animalAt (index : UInt32) : Reading via i (Zoo.animalAt via i index)
  | variableValue : Reading via i (Calculator.value via i)
  | primesValue : Reading via i (Primes.value via i)
  | primeFactors : Reading via i (Primes.primeFactors via i)
  | primes : Reading via i (Primes.primes via i)

theorem Reading.leavesIntact {x : Host (Process ω) α} (h : Reading out.invoker i x) (hi : i.Home) :
    LeavesIntact x := by
  intro s₀
  have hasks {ρ : Type} {c : Call ρ} (hc : c.Reads) :
      Does s₀.Intact (i.ask out.invoker c) (fun _ => s₀.Intact) fun _ => s₀.Intact :=
    Instance.ask_leavesIntact hi hc s₀
  have hP := outlastsNotes_intact s₀
  cases h with
  | classTypeId => exact Instance.classTypeId_leavesIntact hi s₀
  | lastError => exact Instance.lastError_leavesIntact hi s₀
  | animalName => exact fetchText_keeps hP fun _ _ _ => hasks trivial
  | roar => exact fetchText_keeps hP fun _ _ _ => hasks trivial
  | animalAt index =>
    refine .bind Instance.checked_does fun _ => .assume fun _ => ?_
    exact .bind (hasks trivial) fun cell => resolveBorrowed_leavesIntact hi .animal _ s₀
  | primeFactors | primes =>
    refine .bind Instance.checked_does fun _ => .assume fun _ => ?_
    refine Exchange.fetchArray_does hP (fun _ _ h _ => h) (fun room => ?_) _
    exact .bind (hasks trivial) fun _ => .pure fun _ h => h
  | animalCount | variableValue | primesValue =>
    refine .bind Instance.checked_does fun _ => .assume fun _ => ?_
    exact .bind (hasks trivial) fun _ => .pure fun _ h => h

/-! ## Views -/

/-- A handle is lent where it would be adopted, and for the same reasons it is not. -/
theorem resolveBorrowed_answer (l : Library) (T : Class) (raw : RawHandle) (s : Process ω) :
    (resolveBorrowed via l T raw s).1 = (resolve via l T raw s).1 ∧
      ∀ i, (resolveBorrowed via l T raw s).1 = .ok i → i = ⟨l, raw.handle⟩ := by
  refine ⟨Resolution.settled_answer _ _, fun i hi => ?_⟩
  exact (Resolution.settled_made (Prod.ext hi rfl)).2

open Session (World depth dropWrapper outside)

/-- What comes of a process when handles are borrowed, views are read, in whatever order, and
    dropped. -/
inductive Views (out : Outside World) (s : Process World) : Process World → Prop where
  | none : Views out s s
  | borrow {u : Process World} (l : Library) (T : Class) (raw : RawHandle) :
      Views out s u → l.Home → Views out s (resolveBorrowed out.invoker l T raw u).2
  | read {u : Process World} {α : Type} {i : Instance} {x : Host (Process World) α} :
      Views out s u → i.Home → Reading out.invoker i x → Views out s (x u).2
  | drop {u : Process World} (label : Class) (i : Instance) :
      Views out s u → Views out s (dropWrapper out ⟨label, i, false⟩ u).2

section

variable {out : Outside World} {s u v : Process World}

/-- The instance is detached before it is dropped, so no reference is given back that the view does
    not stand for. -/
theorem dropWrapper_lent (label : Class) (i : Instance) (s : Process World) :
    dropWrapper out ⟨label, i, false⟩ s = ((), s) :=
  congrFun (Borrowed.drop_silent ⟨i⟩) s

theorem Views.intact (h : Views out s u) : s.Intact u := by
  induction h with
  | none => exact .refl s
  | borrow l T raw _ hl ih => exact (resolveBorrowed_leavesIntact hl T raw s).leaves ih
  | read _ hi hx ih => exact (hx.leavesIntact hi s).leaves ih
  | drop label i _ ih => rwa [dropWrapper_lent]

/-! ## References of one's own -/

/-- An owned wrapper of an object gives back one reference. -/
theorem dropWrapper_givesBack (label : Class) (hi : i.Home) (hx : i.isNull = false)
    (hheld : 0 < v.references i.library.component i.handle) :
    (dropWrapper out ⟨label, i, true⟩ v).2.references i.library.component i.handle + 1 =
        v.references i.library.component i.handle ∧
      GivesBack i.library.component i.handle v (dropWrapper out ⟨label, i, true⟩ v).2 := by
  cases hn : v.count? i.library.component i.handle with
  | none =>
    rw [Process.references, hn] at hheld
    exact absurd hheld (Nat.lt_irrefl 0)
  | some n =>
    have hgives : GivesBack i.library.component i.handle v (dropWrapper out ⟨label, i, true⟩ v).2 :=
      Instance.drop_givesBack hi hx (by rw [hn, Option.isSome_some])
    exact ⟨by rw [hgives.references hn, Nat.sub_add_cancel hheld], hgives⟩

end

/-- In any state of the process, to borrow a handle, live, dead or null, answers what it would to
    adopt it. Whatever is borrowed, read and dropped again, no count has changed and no object is
    gone. Through a view of an object a reference is taken, which is one more, and one fewer when it
    is given back, at whatever time; and where none can be taken, all is as it was. -/
theorem borrowing_moves_nothing (out : Outside World) (s : Process World) :
    (∀ (l : Library) (T : Class) (raw : RawHandle),
      (resolveBorrowed out.invoker l T raw s).1 = (resolve out.invoker l T raw s).1 ∧
      ∀ i, (resolveBorrowed out.invoker l T raw s).1 = .ok i → i = ⟨l, raw.handle⟩) ∧
    (∀ u, Views out s u → s.Intact u ∧ ∀ c x, u.count? c x = s.count? c x) ∧
    ∀ i : Instance, i.Home →
      (i.Acquirable s → ∃ u, Borrowed.acquire out.invoker ⟨i⟩ s = (.ok i, u) ∧
        Takes i.library.component i.handle s u) ∧
      (¬ i.Acquirable s → ∃ why u, Borrowed.acquire out.invoker ⟨i⟩ s = (.error why, u) ∧
        s.Intact u) ∧
      (i.isNull = false → ∀ (label : Class) (v : Process World),
        0 < v.references i.library.component i.handle →
          (dropWrapper out ⟨label, i, true⟩ v).2.references i.library.component i.handle + 1 =
            v.references i.library.component i.handle ∧
          GivesBack i.library.component i.handle v (dropWrapper out ⟨label, i, true⟩ v).2) := by
  refine ⟨resolveBorrowed_answer (s := s), fun u h => ⟨h.intact, h.intact.count?⟩, fun i hi => ?_⟩
  exact ⟨Instance.acquire_takes out hi, Instance.acquire_refused out hi,
    fun hx label v => dropWrapper_givesBack label hi hx⟩

def housed : Process World :=
  (perform (outside depth) .none (.createZoo (some FatHandle.null)) { outer := {} }).2

def giraffe : Borrowed := ⟨⟨.own .zoo {}, ⟨1⟩⟩⟩

theorem housed_evaluates :
    (resolve (outside depth).invoker (.own .zoo {}) .reptile (.bare ⟨1⟩) housed).1 =
      .error (.invalidCast "Zoo::Reptile" Class.giraffe.tag) ∧
    housed.count? .zoo ⟨1⟩ = some 1 := by
  decide +kernel

/-- To take its first animal for a reptile costs nothing while it is only lent, a view of it is
    dropped without loss, and a reference to it comes and goes. -/
theorem borrowing_moves_nothing_housed :
    (resolveBorrowed (outside depth).invoker (.own .zoo {}) .reptile (.bare ⟨1⟩) housed).1 =
      .error (.invalidCast "Zoo::Reptile" Class.giraffe.tag) ∧
    (resolveBorrowed (outside depth).invoker (.own .zoo {}) .reptile (.bare ⟨1⟩)
      housed).2.count? .zoo ⟨1⟩ = some 1 ∧
    (dropWrapper (outside depth) ⟨.animal, giraffe.inner, false⟩ (resolveBorrowed
      (outside depth).invoker (.own .zoo {}) .animal (.bare ⟨1⟩) housed).2).2.count? .zoo ⟨1⟩ =
        some 1 ∧
    (giraffe.acquire (outside depth).invoker housed).2.references .zoo ⟨1⟩ = 2 ∧
    (dropWrapper (outside depth) ⟨.animal, giraffe.inner, true⟩
      (giraffe.acquire (outside depth).invoker housed).2).2.references .zoo ⟨1⟩ = 1 := by
  obtain ⟨hrefused, hcount⟩ := housed_evaluates
  have hhome : giraffe.inner.Home := Library.own_home _ _ _
  obtain ⟨hanswer, hviews, htakes⟩ := borrowing_moves_nothing (outside depth) housed
  have hlent (T : Class) :
      Views (outside depth) housed (resolveBorrowed (outside depth).invoker (.own .zoo {}) T
        (.bare ⟨1⟩) housed).2 := .borrow _ T (.bare ⟨1⟩) .none hhome
  refine ⟨(hanswer _ _ _).1.trans hrefused, ?_, ?_, ?_⟩
  · exact ((hviews _ (hlent .reptile)).2 .zoo ⟨1⟩).trans hcount
  · exact ((hviews _ (.drop .animal giraffe.inner (hlent .animal))).2 .zoo ⟨1⟩).trans hcount
  obtain ⟨htaken, -, hdropped⟩ := htakes giraffe.inner hhome
  obtain ⟨u, hrun, hone⟩ := htaken ⟨rfl, 1, hcount, by decide⟩
  have hbefore : housed.references .zoo ⟨1⟩ = 1 := by
    rw [Process.references, hcount]
    rfl
  have htwo : u.references .zoo ⟨1⟩ = 2 := hone.references.trans (congrArg (· + 1) hbefore)
  have hless := (hdropped rfl .animal u (htwo ▸ Nat.two_pos)).1
  rw [hrun]
  exact ⟨htwo, Nat.succ.inj (hless.trans htwo)⟩

end Host

end Boundary
