/-
  Boundary.Proofs.Exports.Calculator — what calculator exports do to the ledger.

  A calculator takes one reference for every variable enlisted, and gives all of them back
  when it is cleared; where it cannot take them, the caller's are given back. Reading the
  primes component moves no reference, and neither do callables of the host, which are
  promised to leave the components alone (`OutsideOnly`).
-/
import Boundary.Proofs.Course.Perform
import Boundary.Proofs.Exports.Registry

namespace Boundary

variable {ω : Type} {J : ω → Prop} {e : Ledger} {φ : Process ω → Prop} {out : Outside ω}

structure OutsideOnly (J : ω → Prop) (out : Outside ω) : Prop where
  apply : ∀ a x s, J s.outer → ∃ w, J w ∧ (out.apply a x s).2 = { s with outer := w }
  progress : ∀ f p s, J s.outer → ∃ w, J w ∧ (out.progress f p s).2 = { s with outer := w }

theorem OutsideOnly.apply_balanced (q : OutsideOnly J out) (a : Address) (x : Float) :
    Ends (Balanced J e) (out.apply a x) fun _ => Balanced J e := by
  intro s h
  obtain ⟨w, hw, hs⟩ := q.apply a x s h.1.outer
  rw [hs]
  exact h.turn hw

theorem OutsideOnly.progress_balanced (q : OutsideOnly J out) (f : Foreign) (p : Primes.Progress) :
    Ends (Balanced J e) (out.progress f p) fun _ => Balanced J e := by
  intro s h
  obtain ⟨w, hw, hs⟩ := q.progress f p s h.1.outer
  rw [hs]
  exact h.turn hw

/-- What only reads keeps the books, whatever the component. -/
theorem Reads.balanced {α : Type} {op : Op (Process ω) α} (h : Reads op) :
    Does (Balanced J e) op (fun _ => Balanced J e) fun _ => Balanced J e := h _

namespace Calculator

open Exchange (Cell)

def inCell (cell : Cell Handle) : Ledger := .of .calculator [cell.getD Handle.null]

/-! ## Variables -/

theorem valueOf_does (v : Handle) :
    Does (Books J e φ) (valueOf v)
      (fun value => Books J e fun s => At part v (.var value) s ∧ φ s) fun _ => Balanced J e := by
  refine .bind (Site.get v) fun o => ?_
  cases o with
  | var value => exact .pure fun _ h => h
  | _ => exact .throw fun _ h => h.balanced

theorem createVariable_gives (initial : Float) {v : Cell Handle} (hv : inCell v = 0) :
    Gives J (createVariable initial v : Act ω _) inCell := by
  refine calculatorSite.gives _ v hv fun e => ?_
  refine .bind (Reads.lift _).balanced fun _ => .bind (Reads.lift _).balanced fun initial => ?_
  refine .bind (calculatorSite.insert_bare (o := .var initial) rfl (stays_const True)) fun h => ?_
  exact .pure fun _ hs => hs.balanced

theorem owned_store (value : Float) (o : Object) :
    Resource.owned (store value o) = Resource.owned o := by
  cases o <;> rfl

theorem leaf_store (value : Float) (o : Object) (h : Layered.leaf o) :
    Layered.leaf (store value o) := by
  obtain ⟨old, rfl⟩ := h
  exact ⟨value, rfl⟩

theorem setVariable_gives (v : Handle) (value : Float) :
    Gives J (setVariable v value : Act ω _) fun _ => 0 := by
  refine calculatorSite.gives v () rfl fun e => ?_
  refine .bind (Reads.lift _).balanced fun value => .bind (valueOf_reads v).balanced fun _ => ?_
  rw [add_zero]
  exact calculatorSite.update_same (owned_store value) (leaf_store value) v

/-! ## Lists of variables -/

theorem enlistedIn_does (calculator : Handle) :
    Does (Books J e φ) (enlistedIn calculator)
      (fun vs => Books J e fun s => At part calculator (.calculator vs) s ∧ φ s)
      fun _ => Balanced J e := by
  refine .bind (Site.get calculator) fun o => ?_
  cases o with
  | calculator enlisted => exact .pure fun _ h => h
  | _ => exact .throw fun _ h => h.balanced

theorem createCalculator_gives {cell : Cell Handle} (hc : inCell cell = 0) :
    Gives J (createCalculator cell : Act ω _) inCell := by
  refine calculatorSite.gives _ cell hc fun e => ?_
  refine .bind (Reads.lift _).balanced fun _ => ?_
  refine .bind (calculatorSite.insert_bare (o := .calculator []) rfl (stays_const True)) fun h => ?_
  exact .pure fun _ hs => hs.balanced

/-- The references are the calculator's afterwards, or given back. -/
theorem enlistAll_does (calculator : Handle) (vs : List Handle) :
    Does (Books J (e + .of .calculator vs) fun s => ∀ y ∈ vs, Leaf part y s)
      (enlistAll calculator vs) (fun _ => Balanced J e) fun _ => Balanced J e := by
  refine .bind (enlistedIn_does calculator).outcome fun r => ?_
  cases r with
  | ok enlisted =>
    refine (calculatorSite.update (e := e) (o := .calculator enlisted) (f := extend vs) vs []
      (fun y => ?_) fun hl => ?_).post fun _ s h => ?_
    · exact List.count_append
    · obtain ⟨_, hl⟩ := hl
      cases hl
    · rwa [Ledger.of_nil, add_zero] at h
  | error why => exact .bind (calculatorSite.rollBack vs) fun _ => .throw fun _ h => h

theorem enlistVariable_gives (calculator v : Handle) :
    Gives J (enlistVariable calculator v : Act ω _) fun _ => 0 := by
  refine calculatorSite.gives calculator () rfl fun e => ?_
  rw [add_zero]
  refine .bind (valueOf_does v) fun value => ?_
  refine .bind (calculatorSite.acquire v ((stays_at v _).and (stays_const True))) fun _ => ?_
  refine (enlistAll_does calculator [v]).pre fun s h => h.mono fun _ hs y hy => ?_
  rw [List.mem_singleton] at hy
  subst hy
  exact ⟨_, hs.1, value, rfl⟩

theorem enlistedVariable_gives (calculator : Handle) (index : UInt32) {v : Cell Handle}
    (hv : inCell v = 0) : Gives J (enlistedVariable calculator index v : Act ω _) inCell := by
  refine calculatorSite.gives calculator v hv fun e => ?_
  refine .bind (Reads.lift _).balanced fun _ => ?_
  refine .bind (enlistedIn_reads calculator).balanced fun vs => ?_
  split
  · exact .bind (calculatorSite.acquire _ (stays_const True)) fun _ => .pure fun _ h => h
  · exact .throw fun _ h => h

theorem releaseAll_does (vs : List Handle) {e' : Ledger} {φ' : Process ω → Prop} :
    Does (Balanced J (e + .of .calculator vs)) (releaseAll vs) (fun _ => Balanced J e)
      fun _ => Books J e' φ' := by
  induction vs with
  | nil =>
    refine .pure fun s h => ?_
    rwa [Ledger.of_nil, add_zero] at h
  | cons x rest ih =>
    refine .bind ?_ fun _ => ih
    refine (calculatorSite.release (φ := fun _ => True) x).pre fun s h => ?_
    rwa [Ledger.of_cons, add_comm (Ledger.of _ [x]), ← add_assoc] at h

/-- What the list held is held outside first, and then given back. -/
theorem emptied_does (calculator : Handle) (enlisted : List Handle) {e' : Ledger}
    {φ' : Process ω → Prop} :
    Does (Books J e fun s => At part calculator (.calculator enlisted) s ∧ φ s)
      (do part.update calculator clear; releaseAll enlisted) (fun _ => Balanced J e)
      fun _ => Books J e' φ' := by
  refine .bind ?_ fun _ => releaseAll_does enlisted
  refine (calculatorSite.update (o := .calculator enlisted) (f := clear) [] enlisted
    (fun y => ?_) fun hl => ?_).pre fun s h => ?_
  · show 0 + enlisted.count y = enlisted.count y + 0
    omega
  · obtain ⟨_, hl⟩ := hl
    cases hl
  · rw [Ledger.of_nil, add_zero]
    exact h.mono fun _ hs => ⟨hs.1, by simp⟩

theorem clearVariables_gives (calculator : Handle) :
    Gives J (clearVariables calculator : Act ω _) fun _ => 0 := by
  refine calculatorSite.gives calculator () rfl fun e => ?_
  rw [add_zero]
  exact .bind (enlistedIn_does calculator) fun enlisted => emptied_does calculator enlisted

/-! ## Arithmetic -/

theorem combine_gives (calculator : Handle) (initial : Float) (op : Float → Float → Float)
    {result : Cell Handle} (hr : inCell result = 0) :
    Gives J (combine calculator initial op result : Act ω _) inCell := by
  refine calculatorSite.gives calculator result hr fun e => ?_
  refine .bind (Reads.lift _).balanced fun _ => ?_
  refine .bind (enlistedIn_reads calculator).balanced fun vs => ?_
  refine .bind (foldValues_reads op initial vs).balanced fun value => ?_
  refine .bind (Reads.lift _).balanced fun value => ?_
  refine .bind (calculatorSite.insert_bare (o := .var value) rfl (stays_const True)) fun h => ?_
  exact .pure fun _ hs => hs.balanced

theorem mapValues_does {f : Float → Act ω Float}
    (hf : ∀ x, Ends (Balanced J e) (f x) fun _ => Balanced J e) (vs : List Handle) :
    Does (Balanced J e) (mapValues f vs) (fun _ => Balanced J e) fun _ => Balanced J e := by
  induction vs with
  | nil => exact .pure fun _ h => h
  | cons v rest ih =>
    refine .bind (valueOf_reads v).balanced fun input => .bind (.monadLift (hf input)) fun output => ?_
    refine .bind (Reads.lift _).balanced fun output => .bind (valueOf_reads v).balanced fun _ => ?_
    exact .bind (calculatorSite.update_same (owned_store output) (leaf_store output) v) fun _ => ih

theorem apply_gives (q : OutsideOnly J out) (calculator : Handle) (ns name : TextArg) :
    Gives J (apply out calculator ns name) fun _ => 0 := by
  refine calculatorSite.gives calculator () rfl fun e => ?_
  rw [add_zero]
  refine .bind (Reads.lift _).balanced fun ns => .bind (Reads.lift _).balanced fun name => ?_
  refine .bind (Q := fun _ => Balanced J e) (fun s h => h) fun s => ?_
  split
  · refine .bind (enlistedIn_reads calculator).balanced fun vs => ?_
    exact mapValues_does (fun x => q.apply_balanced _ x) vs
  · exact .throw fun _ h => h

/-! ## The primes component -/

section

variable (via : Invoker (Process ω))

/-- The primes component is reached through functions of the components alone. -/
theorem native_inner {P : Process ω → Prop} (hguard : ∀ s, P s → s.registry.Guarded)
    {sieve : Handle} (hfail : ∀ why s, P s → P (Process.primesPart.fail sieve why s).2) :
    Inner (out.reach via) P Address.Native sieve := by
  have hforeign (f : Foreign) : ¬ (Address.foreign f).Native := by
    rintro ⟨e, he⟩
    cases he
  exact out.inner
    (fun name s h b => Registry.Guarded.finds (hguard s h) (by decide) (.text name))
    (fun f hf => (hforeign f hf).elim) (fun f hf => (hforeign f hf).elim) hfail

theorem books_inner (sieve : Handle) : Inner (out.reach via) (Balanced J e) Address.Native sieve :=
  native_inner via (fun _ h => h.1.reserved) (primesSite.fail sieve)

theorem injectComponent_gives (ns : TextArg) {lookup : Option Address}
    (hl : ∀ a, lookup = some a → a.Native) :
    Gives J (injectComponent (out.reach via) ns lookup) fun _ => 0 := by
  refine gives_zero fun e => ?_
  refine (injectComponent_routed (books_inner via _) ns fun a ha => ⟨hl a ha, fun v s h => ?_⟩).keeps
    (calculatorSite.fail _)
  exact (h.inject (hl a ha)).notes [_] (by simp [Note.Plain, Note.maker?, Note.isLoss])

/-- The caller gets a reference to each new variable. -/
theorem insertAll_does (done : List Handle) (ps : List UInt64) {e' : Ledger} :
    Does (Books J (e + .of .calculator done) fun s => ∀ y ∈ done, Leaf part y s)
      (insertAll done ps)
      (fun vs => Books J (e + .of .calculator vs) fun s => ∀ y ∈ vs, Leaf part y s)
      fun _ => Balanced J e' := by
  induction ps generalizing done with
  | nil =>
    refine .pure fun s h => ?_
    rw [Ledger.of_reverse]
    exact h.mono fun _ hl y hy => hl y (List.mem_reverse.mp hy)
  | cons p rest ih =>
    refine .bind (calculatorSite.insert_bare (o := .var p.toFloat) rfl (stays_leaves done))
      fun h => (ih (h :: done)).pre fun s hs => ?_
    rw [Ledger.of_cons, add_comm (Ledger.of _ [h]), ← add_assoc]
    refine hs.mono fun _ hl y hy => ?_
    rcases List.mem_cons.mp hy with rfl | hy
    · exact ⟨_, hl.1, _, rfl⟩
    · exact hl.2 y hy

theorem enlistPrimes_gives (calculator sieve : Handle) :
    Gives J (enlistPrimes (out.reach via) calculator sieve) fun _ => 0 := by
  refine calculatorSite.gives calculator () rfl fun e => ?_
  rw [add_zero]
  refine .bind (enlistedIn_reads calculator).balanced fun _ => ?_
  refine .bind (Q := fun s s' => (∀ a, s.injected = some a → a.Native) ∧ Balanced J e s')
    (fun s h => ⟨h.1.injected, h⟩) fun s => .assume fun hinj => ?_
  split
  · next lookup hs =>
    refine .bind ((readPrimes_fares (books_inner via sieve) (hinj lookup hs)).failing
      fun _ _ h => h.2) fun ps => ?_
    refine .bind ((insertAll_does [] ps).pre fun s h => ?_) fun vs => enlistAll_does calculator vs
    rw [Ledger.of_nil, add_zero]
    exact h.mono fun _ _ y hy => by cases hy
  · exact .throw fun _ h => h

end

end Calculator

end Boundary
