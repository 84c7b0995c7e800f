/-
  Boundary.Proofs.Intact.Exports — calls that fail leave everything as it was.

  Most exports fail before they change anything. Those that have taken references before
  they can fail give them back, and the others cannot fail any more once they changed
  something: a new object is found under its handle as long as handles are new.

  Clearing a calculator and applying a callable stop halfway when they fail, and so may a
  calculation with a callback, which can do anything. Where a calculator is handed a lookup
  method, its functions are called before it is kept: what they do stays done.

  Proved of every other call, on any tables with counted objects (`failed_call_intact`): when
  it does not answer success, no object, count, iterator, symbol or injected method has
  changed.
-/
import Boundary.Proofs.Intact.Tables
import Boundary.Proofs.Course.Perform
import Boundary.Proofs.Exports.Primes
import Boundary.Proofs.Exports.Registry

namespace Boundary

open Exchange (Cell Place)
open Process (Intact)

variable {ω ρ : Type} {s₀ s : Process ω} {out : Outside ω} {via : Invoker (Process ω)}

/-! ## Zoos -/

namespace Zoo

/-- A new object is found, unless handles have come round. -/
theorem insert_fat (o : Object) (f : FatHandle → ρ) {P : Process ω → Prop} :
    Does P (part.insert o >>= fun h => fat h >>= fun fat => pure (f fat)) (fun _ _ => True)
      fun _ s => ¬ s.shared.issued < handleLimit := by
  refine .bind (Q := fun h s => (s.shared.issued < handleLimit → h.isNull = false) ∧
    ∃ a, s.zoo.slots.get? h = some a) (fun s _ => ?_) fun h => ?_
  · refine ⟨fun hb => ?_, ⟨s.shared.issued + 1, 1, o, none⟩, ?_⟩
    · have hraw := Shared.nextHandle_raw (s := s.shared) (Nat.lt_of_succ_lt hb)
      refine Bool.eq_false_iff.mpr fun hn => ?_
      rw [show s.shared.nextHandle = Handle.null from Table.isNull_iff.mp hn] at hraw
      cases hraw
    · show (s.zoo.insert s.shared.nextHandle (s.shared.issued + 1) o).slots.get? _ = _
      rw [Table.slots_insert, Handle.Map.get?_insert]
      exact if_pos rfl
  · refine .bind (Q := fun _ _ => True)
      (.bind (Q := fun _ _ => True) ?_ fun _ => .pure fun _ _ => trivial)
      fun _ => .pure fun _ _ => trivial
    refine Does.of_run fun s ⟨hnew, a, ha⟩ => ?_
    show (∃ o s', (s.zoo.get h, s) = _ ∧ _) ∨ ∃ e s', (s.zoo.get h, s) = _ ∧ _
    unfold Table.get Table.hold
    cases hn : h.isNull with
    | true =>
      refine .inr ⟨_, s, rfl, fun hb => ?_⟩
      rw [hnew hb] at hn
      cases hn
    | false =>
      rw [ha]
      exact .inl ⟨_, s, rfl, trivial⟩

theorem insertAll_ok (animals : List (Species × String)) :
    Does (fun _ : Process ω => True) (insertAll animals) (fun _ _ => True) fun _ _ => False := by
  induction animals with
  | nil => exact .pure fun _ _ => trivial
  | cons a rest ih =>
    exact .bind (Q := fun _ _ => True) (fun _ _ => trivial) fun _ =>
      .bind ih fun _ => .pure fun _ _ => trivial

theorem createZoo_undone (zoo : Cell FatHandle) : Undone s₀ (createZoo zoo) := by
  refine zooSpot.guard _ _ (.reads_bind (.lift _) fun _ => ?_)
  refine .bind ((insertAll_ok defaults).mono (fun _ _ => trivial) (fun _ _ h => h)
    fun _ _ h => h.elim) fun animals => ?_
  exact (insert_fat (.zoo animals) some).failing fun _ _ h hb => absurd hb h

theorem addAnimal_undone (zoo : Handle) (species : UInt32) (name : TextArg) :
    Undone s₀ (addAnimal zoo species name) := by
  refine zooSpot.guard _ _ (.reads_bind (animalsOf_reads zoo) fun _ => ?_)
  split
  · refine .reads_bind (.lift _) fun name => ?_
    exact Reverts.ite (fun _ => .throw_bind _) fun _ => .of_ok fun _ => ⟨_, _, rfl⟩
  · exact .throw _

theorem acquireAll_owes (hc : s₀.zoo.Counted) (taken rest : List Handle) :
    Does (Owing part taken s₀) (acquireAll taken rest) (fun _ _ => True) fun _ => Intact s₀ := by
  induction rest generalizing taken with
  | nil => exact .pure fun _ _ => trivial
  | cons x rest ih =>
    refine .bind (zooSpot.acquire_owes x).outcome fun r => ?_
    cases r with
    | ok _ => exact ih _
    | error why => exact .bind (zooSpot.rollBack_owes hc taken) fun _ => .throw fun _ h => h

theorem iterator_undone (hc : s₀.zoo.Counted) (zoo : Handle) (cell : Cell FatHandle) :
    Undone s₀ (iterator zoo cell) := by
  refine zooSpot.guard _ _ (.reads_bind (.lift _) fun _ => ?_)
  refine .reads_bind (animalsOf_reads zoo) fun animals => ?_
  refine .bind ((acquireAll_owes hc [] animals).mono (fun _ h => zooSpot.owes h)
    (fun _ _ h => h) fun _ _ h _ => h) fun _ => ?_
  exact (insert_fat (.iterator animals 0) some).failing fun _ _ h hb => absurd hb h

/-- The position has moved on only if there was an animal to hand out. -/
theorem advance_intact (it : Handle) :
    Does (Intact s₀) (advance it) (fun next s => next = none → Intact s₀ s)
      fun _ => Intact s₀ := by
  refine .bind (Reads.get part it _) fun o => ?_
  cases o with
  | iterator animals position =>
    dsimp only
    split
    · exact .pure fun _ h _ => h
    · next h _ =>
      refine .bind (fat_reads h _) fun animal => .bind (zooSpot.acquire_intact h) fun _ => ?_
      exact .bind (Q := fun _ _ => True) (fun _ _ => trivial) fun _ => .pure fun _ _ h => by cases h
  | _ => exact .throw fun _ h => h

/-- An iterator that hands out nothing stays where it is. -/
theorem nextAnimal_intact (it : Handle) (animal : Cell FatHandle) (has : Cell Bool) :
    Ends (Intact s₀) (nextAnimal it animal has) fun r s => r.1 ≠ Status.ok → Intact s₀ s := by
  refine Part.guard_failed (.bind (Reads.lift _ _) fun _ => .bind (Reads.lift _ _) fun _ => ?_)
    (zooSpot.fail it)
  refine .bind (advance_intact it) fun next => ?_
  cases next <;> exact .pure fun _ _ => trivial

theorem nextMandatoryAnimal_intact (it : Handle) (animal : Cell FatHandle) :
    Ends (Intact s₀) (nextMandatoryAnimal it animal)
      fun r s => r.1 ≠ Status.ok → Intact s₀ s := by
  refine Part.guard_failed (.bind (Reads.lift _ _) fun _ => .bind (advance_intact it) fun next => ?_)
    (zooSpot.fail it)
  cases next with
  | some next => exact .pure fun _ _ => trivial
  | none => exact .throw fun _ h => h rfl

end Zoo

/-! ## Calculators -/

namespace Calculator

theorem createVariable_undone (initial : Float) (v : Cell Handle) :
    Undone s₀ (createVariable initial v) :=
  calculatorSpot.guard _ _ (.reads_bind (.lift _) fun _ => .reads_bind (.lift _) fun _ =>
    .of_ok fun _ => ⟨_, _, rfl⟩)

theorem setVariable_undone (v : Handle) (value : Float) : Undone s₀ (setVariable v value) :=
  calculatorSpot.guard _ _ (.reads_bind (.lift _) fun _ => .reads_bind (valueOf_reads v) fun _ =>
    .of_ok fun _ => ⟨_, _, rfl⟩)

theorem createCalculator_undone (cell : Cell Handle) : Undone s₀ (createCalculator cell) :=
  calculatorSpot.guard _ _ (.reads_bind (.lift _) fun _ => .of_ok fun _ => ⟨_, _, rfl⟩)

/-- If there is no calculator, it gives the references back. -/
theorem enlistAll_owes (hc : s₀.calculator.Counted) (calculator : Handle) (vs : List Handle) :
    Does (Owing part vs s₀) (enlistAll calculator vs) (fun _ _ => True) fun _ => Intact s₀ := by
  refine .bind (enlistedIn_reads calculator _).outcome fun r => ?_
  cases r with
  | ok _ => exact fun _ _ => trivial
  | error why => exact .bind (calculatorSpot.rollBack_owes hc vs) fun _ => .throw fun _ h => h

theorem enlistVariable_undone (hc : s₀.calculator.Counted) (calculator v : Handle) :
    Undone s₀ (enlistVariable calculator v) := by
  refine calculatorSpot.guard _ _ (.reads_bind (valueOf_reads v) fun _ => ?_)
  refine .bind ((calculatorSpot.acquire_owes v).mono (fun _ h => calculatorSpot.owes h)
    (fun _ _ h => h) fun _ _ h _ => calculatorSpot.settled h) fun _ => ?_
  exact (enlistAll_owes hc calculator [v]).failing fun _ _ h _ => h

theorem enlistedVariable_undone (calculator : Handle) (index : UInt32) (v : Cell Handle) :
    Undone s₀ (enlistedVariable calculator index v) := by
  refine calculatorSpot.guard _ _ (.reads_bind (.lift _) fun _ => ?_)
  refine .reads_bind (enlistedIn_reads calculator) fun enlisted => ?_
  split
  · exact .bind (calculatorSpot.acquire_reverts _) fun _ => .pure fun _ _ => trivial
  · exact .throw _

theorem combine_undone (calculator : Handle) (initial : Float) (op : Float → Float → Float)
    (result : Cell Handle) : Undone s₀ (combine calculator initial op result) := by
  refine calculatorSpot.guard _ _ (.reads_bind (.lift _) fun _ => ?_)
  refine .reads_bind (enlistedIn_reads calculator) fun vs => ?_
  refine .reads_bind (foldValues_reads op initial vs) fun _ => .reads_bind (.lift _) fun _ => ?_
  exact .of_ok fun _ => ⟨_, _, rfl⟩

/-! ## The primes component -/

section

variable {A : Address → Prop} {sieve : Handle} (inner : Inner via (Intact s₀) A sieve)
include inner

omit inner in
/-- The lookup method is kept at the very end. -/
theorem injectComponent_undone (inner : Inner via (Intact s₀) A Handle.null) (ns : TextArg)
    {lookup : Option Address} (hl : ∀ a, lookup = some a → A a) :
    Undone s₀ (injectComponent via ns lookup) := by
  refine calculatorSpot.guard _ _ (.reads_bind (.lift _) fun ns => ?_)
  refine .ite (fun _ => .throw_bind _) fun _ => ?_
  split
  · next lookup =>
    refine Does.bind ((resolve_fares (inner.lookup _ (hl lookup rfl) _)).failing fun _ _ h _ => h.2) fun f => ?_
    refine .assume fun hf => ?_
    refine .bind (.monadLift (inner.version rfl f hf)) fun (status, v) => ?_
    refine Reverts.ite (fun _ => .throw_bind _) fun _ => ?_
    exact .ite (fun _ => .throw_bind _) fun _ => .of_ok fun _ => ⟨_, _, rfl⟩
  · exact .throw _

def Enlisting (calculator : Handle) (s : Process ω) : Prop :=
  s.shared.issued < handleLimit → calculator.raw.toNat ≤ s.shared.issued ∧
    calculator.isNull = false ∧ ∃ vs, s.calculator.get? calculator = some (.calculator vs)

omit inner in
theorem enlistedIn_found (calculator : Handle) :
    Does (Intact s₀) (enlistedIn calculator) (fun _ s => (calculator.isNull = false ∧
      ∃ vs, s₀.calculator.get? calculator = some (.calculator vs)) ∧ Intact s₀ s)
      fun _ => Intact s₀ := by
  refine .bind (Q := fun o s => (calculator.isNull = false ∧
    s₀.calculator.get? calculator = some o) ∧ Intact s₀ s) (Does.of_run fun s hs => ?_) fun o => ?_
  · show (∃ o s', (s.calculator.get calculator, s) = _ ∧ _) ∨ _
    cases hg : s.calculator.get calculator with
    | error why => exact .inr ⟨why, s, congrArg (·, s) hg, hs⟩
    | ok o =>
      refine .inl ⟨o, s, rfl, ⟨?_, ?_⟩, hs⟩
      · unfold Table.get Table.hold at hg
        cases hn : calculator.isNull with
        | false => rfl
        | true => rw [hn] at hg; cases hg
      · rw [← hs.calculator.get?]
        exact Table.get_ok hg
  · cases o with
    | calculator enlisted => exact .pure fun _ h => ⟨⟨h.1.1, enlisted, h.1.2⟩, h.2⟩
    | _ => exact .throw fun _ h => h.2

omit inner in
theorem insertAll_enlisting (calculator : Handle) (done : List Handle) (ps : List UInt64) :
    Does (Enlisting (ω := ω) calculator) (insertAll done ps) (fun _ => Enlisting calculator)
      fun _ _ => False := by
  induction ps generalizing done with
  | nil => exact .pure fun _ h => h
  | cons p rest ih =>
    refine .bind (Q := fun _ => Enlisting calculator) (fun s h => ?_) fun x => ih (x :: done)
    intro (hb : s.shared.issued + 1 < handleLimit)
    obtain ⟨hle, hnull, vs, hvs⟩ := h (Nat.lt_of_succ_lt hb)
    refine ⟨Nat.le_succ_of_le hle, hnull, vs, ?_⟩
    have hraw := Shared.nextHandle_raw (Nat.lt_of_succ_lt hb)
    have hne : s.shared.nextHandle ≠ calculator := by
      rintro rfl
      omega
    show ((s.calculator.insert s.shared.nextHandle _ _).slots.get? calculator).map (·.object) = _
    rw [Table.slots_insert, Handle.Map.get?_insert, if_neg hne]
    exact hvs

omit inner in
theorem rollBack_over (vs : List Handle) :
    Does (fun s : Process ω => ¬ s.shared.issued < handleLimit) (part.rollBack vs)
      (fun _ s => ¬ s.shared.issued < handleLimit) fun _ s => ¬ s.shared.issued < handleLimit := by
  have m : OutlastsInserts (part (ω := ω)) fun s => ¬ s.shared.issued < handleLimit := {
    insert := fun _ _ h hb => h (Nat.lt_of_succ_lt hb)
    acquire := fun x s h => by
      cases ha : s.calculator.acquire x with
      | ok t =>
        rw [Part.acquire_ok ha]
        exact h
      | error why =>
        rw [Part.acquire_error ha]
        exact h
    release := fun _ _ h => h
    lost := fun _ _ _ h => h }
  exact (m.rollBack_fares vs).failing fun _ _ h => h.2

omit inner in
/-- The calculator that was there is there. -/
theorem enlistAll_enlisting (calculator : Handle) (vs : List Handle) :
    Does (Enlisting (ω := ω) calculator) (enlistAll calculator vs) (fun _ _ => True)
      fun _ s => ¬ s.shared.issued < handleLimit := by
  have hfound : Does (Enlisting (ω := ω) calculator) (enlistedIn calculator) (fun _ _ => True)
      fun _ s => ¬ s.shared.issued < handleLimit := by
    refine .bind (Q := fun o s => s.shared.issued < handleLimit → ∃ vs, o = .calculator vs)
      (Does.of_run fun s hs => ?_) fun o => ?_
    · show (∃ o s', (s.calculator.get calculator, s) = _ ∧ _) ∨ _
      cases hg : s.calculator.get calculator with
      | ok o =>
        refine .inl ⟨o, s, rfl, fun hb => ?_⟩
        obtain ⟨-, -, vs, hvs⟩ := hs hb
        exact ⟨vs, Option.some.inj ((Table.get_ok hg).symm.trans hvs)⟩
      | error why =>
        refine .inr ⟨why, s, congrArg (·, s) hg, fun hb => ?_⟩
        obtain ⟨-, hnull, vs, hvs⟩ := hs hb
        obtain ⟨a, ha, -⟩ := Option.map_eq_some_iff.mp hvs
        rw [Table.get, Table.hold, hnull, ha] at hg
        cases hg
    · cases o with
      | calculator enlisted => exact .pure fun _ _ => trivial
      | _ =>
        refine .throw fun s h hb => ?_
        obtain ⟨vs, hvs⟩ := h hb
        cases hvs
  refine .bind hfound.outcome fun r => ?_
  cases r with
  | ok _ => exact fun _ _ => trivial
  | error why => exact .bind (rollBack_over vs) fun _ => .throw fun _ h => h

theorem enlistPrimes_undone {calculator : Handle}
    (hbelow : ∀ o, s₀.calculator.get? calculator = some o →
      calculator.raw.toNat ≤ s₀.shared.issued)
    (hinjected : ∀ a, s₀.injected = some a → A a) :
    Undone s₀ (enlistPrimes via calculator sieve) := by
  refine calculatorSpot.guard _ _ ?_
  refine .bind ((enlistedIn_found calculator).failing fun _ _ h _ => h) fun _ => ?_
  refine .assume fun ⟨hnull, vs, hvs⟩ => ?_
  refine .bind (Q := fun s s' => s.injected = s₀.injected ∧ Intact s₀ s')
    (fun s h => ⟨h.injected, h⟩) fun s => .assume fun hinj => ?_
  split
  · next lookup hs =>
    refine Reverts.fares_bind (readPrimes_fares inner (hinjected lookup (hinj ▸ hs))) fun ps => ?_
    refine .bind ((insertAll_enlisting calculator [] ps).mono (fun s h _ => ?_) (fun _ _ h => h)
      fun _ _ h => h.elim) fun vs => ?_
    · rw [h.issued, h.calculator.get?]
      exact ⟨hbelow _ hvs, hnull, vs, hvs⟩
    · exact (enlistAll_enlisting calculator vs).failing fun _ _ h hb => absurd hb h
  · exact Reverts.throw _

end

end Calculator

/-! ## Factorizations and sieves -/

namespace Primes

theorem create_undone (kind : Kind) (cell : Cell Handle) : Undone s₀ (create kind cell) :=
  primesSpot.guard _ _ (.reads_bind (.lift _) fun _ => .of_ok fun _ => ⟨_, _, rfl⟩)

theorem setValue_undone (x : Handle) (value : UInt64) : Undone s₀ (setValue x value) :=
  primesSpot.guard _ _ (.reads_bind (.get part x) fun _ => .of_ok fun _ => ⟨_, _, rfl⟩)

theorem setProgressCallback_undone (x : Handle) (callback : Option Foreign) :
    Undone s₀ (setProgressCallback x callback) :=
  primesSpot.guard _ _ (.reads_bind (.get part x) fun _ => .of_ok fun _ => ⟨_, _, rfl⟩)

/-- Without a callback a calculation only reads until it is done. -/
theorem calculate_undone {x : Handle}
    (hsilent : ∀ o, s₀.primes.get? x = some o → o.callback = none) :
    Undone s₀ (calculate out x) := by
  refine primesSpot.guard _ _ (.bind (Q := fun r s => r.2.callback = none ∧ Intact s₀ s)
    (Does.of_run fun s hs => ?_) fun (serial, o) => .assume fun ho => ?_)
  · show (∃ r s', (s.primes.hold x, s) = _ ∧ _) ∨ _
    cases hh : s.primes.hold x with
    | error why => exact .inr ⟨why, s, congrArg (·, s) hh, fun _ => hs⟩
    | ok r =>
      refine .inl ⟨r, s, rfl, hsilent r.2 ?_, hs⟩
      have hg : s.primes.get x = .ok r.2 := by rw [Table.get, hh]; rfl
      rw [← hs.primes.get?]
      exact Table.get_ok hg
  · have hreport (p : Progress) : Fares (Intact s₀) (report out o.callback p) := by
      rw [show o.callback = none from ho]
      exact .pure ()
    refine Reverts.fares_bind ((outcome_fares hreport).post fun _ _ h => h.2) fun found => ?_
    refine .bind (Q := fun _ => Intact s₀) (fun _ h => h) fun now => ?_
    exact Reverts.ite (fun _ => .throw_bind _) fun _ => .of_ok fun _ => ⟨_, _, rfl⟩

end Primes

/-! ## All calls -/

/-- Functions outside that make no calls into the components, and lead to such functions
    only. -/
structure Outside.Apart (out : Outside ω) (F : Foreign → Prop) : Prop where
  call : ∀ {ρ : Type} f (c : Call ρ) s, F f → ∃ w, (out.call f c s).2 = { s with outer := w }
  leads : ∀ f ns name cell s g, F f →
    (out.call f (.lookupSymbol ns name cell) s).1.2 = some (some (.foreign g)) → F g

def Address.Within (F : Foreign → Prop) : Address → Prop
  | .native _ => True
  | .foreign f => F f

theorem inner_intact {F : Foreign → Prop} (d : out.Apart F) (hreg : s₀.registry.Guarded)
    (sieve : Handle) : Inner (out.reach via) (Intact s₀) (Address.Within F) sieve := by
  refine out.inner (fun name s h b hb => ?_) (fun f hf _ c => ?_) (fun f hf name s b hb => ?_)
    (primesSpot.fail sieve)
  · obtain ⟨e, rfl⟩ := Registry.Guarded.finds (h.registry ▸ hreg) (by decide) (.text name) hb
    trivial
  · exact ends_outer (d.call f c · hf) fun _ w h => h.outer w
  · cases b with
    | native e => trivial
    | foreign g => exact d.leads f _ _ _ s g hf hb

/-- Tables as any calls may leave them, dead and saturated objects among what is owned. -/
structure Process.Orderly (s : Process ω) : Prop where
  zoo : s.zoo.Counted
  calculator : s.calculator.Counted
  primes : s.primes.Counted
  /-- Live handles were issued. -/
  below : ∀ c x, (s.count? c x).isSome = true → x.raw.toNat ≤ s.shared.issued

def Call.TakesBack (s : Process ω) : Call ρ → Prop
  | .apply _ _ _ | .clearVariables _ => False
  | .calculate x => ∀ o, s.primes.get? x = some o → o.callback = none
  | _ => True

theorem Registry.insert_failed {r : Registry} {x : Symbol} {e : Entry}
    (h : (r.insert x e).1 ≠ Status.ok) : (r.insert x e).2 = r := by
  unfold insert at h ⊢
  split
  · rfl
  · next hn =>
    rw [if_neg hn] at h
    exact absurd rfl h

theorem Registry.register_failed {r : Registry} {ns name : TextArg} {address : Option Address}
    (h : (r.register ns name address).1 ≠ Status.ok) : (r.register ns name address).2.1 = r := by
  revert h
  unfold register
  split
  · split
    · exact fun _ => rfl
    · split
      · exact fun _ => rfl
      · exact insert_failed
  · exact fun _ => rfl

theorem perform_undone {F : Foreign → Prop} (d : out.Apart F) (h₀ : s₀.Orderly)
    (hreg : s₀.registry.Guarded) {c : Call ρ} (hc : c.TakesBack s₀)
    (hinj : ∀ a, s₀.injected = some a → a.Within F)
    (hover : ∀ a, c.handedOver = some a → a.Within F) :
    Undone s₀ (perform out (out.reach via) c) := by
  cases c with
  | entryPoint c address =>
    intro s hs
    show (entryPoint c address s).1.1 ≠ Status.ok → _ → Intact s₀ (entryPoint c address s).2
    unfold entryPoint
    split
    · exact fun _ _ => hs
    · exact fun h => absurd rfl h
  | lookupSymbol ns name address =>
    intro s hs _ _
    show Intact s₀ (lookupSymbol ns name address s).2
    rwa [lookupSymbol_same]
  | registerSymbol ns name address =>
    intro s hs hfailed _
    refine ⟨hs.zoo, hs.calculator, hs.primes, hs.issued, hs.thread, hs.threads, ?_, hs.injected⟩
    exact (Registry.register_failed hfailed).trans hs.registry
  | getLastError c h capacity place hasError =>
    intro s hs _ _
    rwa [getLastError_same]
  | getVersion c major minor micro =>
    cases c with
    | zoo => exact zooSpot.idle (Fixed.getVersion_routed _ _ _ _)
    | calculator => exact calculatorSpot.idle (Fixed.getVersion_routed _ _ _ _)
    | primes => exact primesSpot.idle (Fixed.getVersion_routed _ _ _ _)
  | acquireInstance c h =>
    cases c with
    | zoo => exact zooSpot.guard _ _ (zooSpot.acquire_reverts h)
    | calculator => exact calculatorSpot.guard _ _ (calculatorSpot.acquire_reverts h)
    | primes => exact primesSpot.guard _ _ (primesSpot.acquire_reverts h)
  | releaseInstance c h =>
    cases c with
    | zoo => exact zooSpot.guard _ _ (zooSpot.release_reverts h)
    | calculator => exact calculatorSpot.guard _ _ (calculatorSpot.release_reverts h)
    | primes => exact primesSpot.guard _ _ (primesSpot.release_reverts h)
  | classTypeId c h tag =>
    cases c with
    | zoo => exact zooSpot.idle (Fixed.classTypeId_routed h tag)
    | calculator => exact calculatorSpot.idle (Fixed.classTypeId_routed h tag)
    | primes => exact primesSpot.idle (Fixed.classTypeId_routed h tag)
  | createZoo zoo => exact Zoo.createZoo_undone zoo
  | addAnimal zoo species name => exact Zoo.addAnimal_undone zoo species name
  | animalCount zoo count => exact zooSpot.idle (Zoo.animalCount_routed zoo count)
  | animalAt zoo index animal => exact zooSpot.idle (Zoo.animalAt_routed zoo index animal)
  | iterator zoo cell => exact Zoo.iterator_undone h₀.zoo zoo cell
  | animalName animal capacity place =>
    exact zooSpot.idle (Zoo.animalName_routed animal capacity place)
  | tigerRoar tiger capacity place => exact zooSpot.idle (Zoo.tigerRoar_routed tiger capacity place)
  | nextAnimal it animal has =>
    exact (Zoo.nextAnimal_intact it animal has).post fun _ _ h hne _ => h hne
  | nextMandatoryAnimal it animal =>
    exact (Zoo.nextMandatoryAnimal_intact it animal).post fun _ _ h hne _ => h hne
  | createVariable initial v => exact Calculator.createVariable_undone initial v
  | createCalculator cell => exact Calculator.createCalculator_undone cell
  | getVariable v value => exact calculatorSpot.idle (Calculator.getVariable_routed v value)
  | setVariable v value => exact Calculator.setVariable_undone v value
  | enlistVariable x v => exact Calculator.enlistVariable_undone h₀.calculator x v
  | enlistedVariable x index v => exact Calculator.enlistedVariable_undone x index v
  | clearVariables x => exact hc.elim
  | add x sum => exact Calculator.combine_undone x _ _ sum
  | multiply x product => exact Calculator.combine_undone x _ _ product
  | apply x ns name => exact hc.elim
  | injectComponent ns lookup =>
    exact Calculator.injectComponent_undone (inner_intact d hreg _) ns hover
  | enlistPrimes x sieve =>
    refine Calculator.enlistPrimes_undone (inner_intact d hreg sieve) (fun o ho => ?_) hinj
    refine h₀.below .calculator x ?_
    obtain ⟨a, ha, -⟩ := Option.map_eq_some_iff.mp ho
    exact Option.isSome_map.trans (by rw [ha]; rfl)
  | createFactorization cell => exact Primes.create_undone _ cell
  | createSieve cell => exact Primes.create_undone _ cell
  | getValue x value => exact primesSpot.idle (Primes.getValue_routed x value)
  | setValue x value => exact Primes.setValue_undone x value
  | calculate x => exact Primes.calculate_undone hc
  | setProgressCallback x callback => exact Primes.setProgressCallback_undone x callback
  | primeFactors x capacity place =>
    exact primesSpot.idle (Primes.primeFactors_routed x capacity place)
  | primes x capacity place => exact primesSpot.idle (Primes.primes_routed x capacity place)

/-- A call that takes back what it did leaves everything but last errors as it was when it
    answers no success, as long as the handles it issues are new. -/
theorem failed_call_intact {F : Foreign → Prop} (d : out.Apart F) (h₀ : s₀.Orderly)
    (hreg : s₀.registry.Guarded) (c : Call ρ) (hc : c.TakesBack s₀)
    (hlookup : ∀ a, s₀.injected = some a ∨ c.handedOver = some a → a.Within F)
    (hfailed : (out.invoker.call (.native c.target) c s₀).1.1 ≠ Status.ok)
    (hb : (out.invoker.call (.native c.target) c s₀).2.shared.issued < handleLimit) :
    s₀.Intact (out.invoker.call (.native c.target) c s₀).2 :=
  perform_undone d h₀ hreg hc (fun a ha => hlookup a (.inl ha)) (fun a ha => hlookup a (.inr ha))
    s₀ (.refl s₀) hfailed hb

def saturated : Process Unit where
  shared := { issued := 3 }
  zoo := {
    component := "Zoo"
    slots := ((Handle.Map.empty.insert ⟨1⟩ ⟨1, 1, .animal .tiger "Tony", none⟩).insert ⟨2⟩
      ⟨2, 4294967295, .animal .snake "Sid", none⟩).insert ⟨3⟩ ⟨3, 1, .zoo [⟨1⟩, ⟨2⟩], none⟩ }
  outer := ()

theorem saturated_orderly : saturated.Orderly where
  zoo.null := by decide
  zoo.pos x s hs := by
    rw [saturated, Handle.Map.get?_insert, Handle.Map.get?_insert, Handle.Map.get?_insert] at hs
    split at hs
    · cases hs
      decide
    · split at hs
      · cases hs
        decide
      · split at hs
        · cases hs
          decide
        · simp at hs
  calculator := ⟨rfl, fun x s hs => by simp [saturated] at hs⟩
  primes := ⟨rfl, fun x s hs => by simp [saturated] at hs⟩
  below c x hx := by
    cases c with
    | zoo =>
      rw [Process.count?, Table.count?, Option.isSome_map, saturated, Handle.Map.get?_insert,
        Handle.Map.get?_insert, Handle.Map.get?_insert] at hx
      split at hx
      · next h => exact h ▸ by decide
      · split at hx
        · next h => exact h ▸ by decide
        · split at hx
          · next h => exact h ▸ by decide
          · simp at hx
    | calculator => simp [saturated, Process.count?, Table.count?] at hx
    | primes => simp [saturated, Process.count?, Table.count?] at hx

/-- An iterator over it is refused, and the reference to the first animal is given back. -/
theorem refused_iterator_intact :
    (idle.invoker.call (.native .iterator) (.iterator ⟨3⟩ (some FatHandle.null)) saturated).1.1
      = Status.generic ∧
    saturated.Intact (idle.invoker.call (.native .iterator)
      (.iterator ⟨3⟩ (some FatHandle.null)) saturated).2 := by
  have hstatus : (idle.invoker.call (.native .iterator) (.iterator ⟨3⟩ (some FatHandle.null))
      saturated).1.1 = Status.generic := by decide +kernel
  refine ⟨hstatus, ?_⟩
  have d : idle.Apart fun _ => False := ⟨fun _ _ _ h => h.elim, fun _ _ _ _ _ _ h => h.elim⟩
  refine failed_call_intact d saturated_orderly (fun x a _ ha => by cases ha)
    (.iterator ⟨3⟩ (some FatHandle.null)) trivial (fun a ha => ?_) (fun h => ?_) ?_
  · rcases ha with ha | ha <;> cases ha
  · exact absurd (hstatus.symm.trans h) (by decide)
  · decide +kernel

/-- A stand-in for the primes component whose version takes a reference to an object before it
    is refused. -/
def grabbing : Outside Unit where
  call f c := match c with
    | .lookupSymbol _ _ address => pure (Status.ok, address.write (some (.foreign f)))
    | .getVersion _ major minor micro => do
      let _ ← perform idle .none (.acquireInstance .primes ⟨1⟩)
      return (Status.generic, major, minor, micro)
    | c => pure (Status.notImplemented, c.cells)
  apply _ x := pure x
  progress _ _ := pure false

def sieved : Process Unit where
  shared := { issued := 1 }
  primes := {
    component := "Primes"
    slots := Handle.Map.empty.insert ⟨1⟩ ⟨1, 1, { kind := .sieve }, none⟩ }
  outer := ()

theorem sieved_orderly : sieved.Orderly where
  zoo := ⟨rfl, fun x s hs => by simp [sieved] at hs⟩
  calculator := ⟨rfl, fun x s hs => by simp [sieved] at hs⟩
  primes.null := by decide
  primes.pos x s hs := by
    rw [sieved, Handle.Map.get?_insert] at hs
    split at hs
    · cases hs
      decide
    · simp at hs
  below c x hx := by
    cases c with
    | primes =>
      rw [Process.count?, Table.count?, Option.isSome_map, sieved, Handle.Map.get?_insert] at hx
      split at hx
      · next h => exact h ▸ by decide
      · simp at hx
    | _ => simp [sieved, Process.count?, Table.count?] at hx

def injectGrabbing : Act Unit (Status × Unit) :=
  grabbing.invoker.call (.native .injectComponent)
    (.injectComponent (.text "primes") (some (.foreign .lookup)))

theorem grabbed_reference_stays :
    sieved.Orderly ∧ sieved.registry.Guarded ∧ sieved.injected = none ∧
      (Call.injectComponent (.text "primes") (some (.foreign .lookup))).TakesBack sieved ∧
      (injectGrabbing sieved).1.1 ≠ Status.ok ∧
      (injectGrabbing sieved).2.shared.issued < handleLimit ∧
      ¬ sieved.Intact (injectGrabbing sieved).2 := by
  refine ⟨sieved_orderly, (fun x a _ ha => by cases ha), rfl, trivial, ?_, ?_, fun h => ?_⟩
  · decide +kernel
  · decide +kernel
  · have hcount : (injectGrabbing sieved).2.primes.count? ⟨1⟩ = some 2 := by decide +kernel
    obtain ⟨b, hb, -, hone, -⟩ := h.primes.some (show sieved.primes.slots.get? ⟨1⟩ = some _ from rfl)
    rw [Table.count?, hb, Option.map_some, hone] at hcount
    cases hcount

end Boundary
