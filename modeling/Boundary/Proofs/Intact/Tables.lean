/-
  Boundary.Proofs.Intact.Tables — what a failed call leaves as it was.

  A process is intact when nothing has changed but last errors and what is kept outside the
  components (`Process.Intact`). In the middle of an operation it need not be: references
  were taken that are to be given back (`Owing`), or an object was made.

  Proved:
  - a taken reference can always be given back, and that undoes the taking
    (`Table.Lent.acquire`, `Table.Lent.release`);
  - recording a failure leaves a process intact (`Spot.fail`).
-/
import Boundary.Proofs.Course.Exports
import Boundary.Proofs.Books
import Boundary.Proofs.Release

namespace Boundary

variable {ω O α β ρ : Type}

/-! ## Tables -/

def Slot.body (a : Slot O) : Nat × UInt32 × O := (a.serial, a.count, a.object)

structure Table.Intact (t₀ t : Table O) : Prop where
  component : t.component = t₀.component
  retired : t.retired = t₀.retired
  slots : ∀ x, (t.slots.get? x).map Slot.body = (t₀.slots.get? x).map Slot.body

/-- The table `t₀`, but for one more reference to each handle in `taken`. -/
structure Table.Lent (taken : List Handle) (t₀ t : Table O) : Prop where
  component : t.component = t₀.component
  retired : t.retired = t₀.retired
  gone : ∀ x, t₀.slots.get? x = none → t.slots.get? x = none
  slot : ∀ x a, t₀.slots.get? x = some a → ∃ b, t.slots.get? x = some b ∧
    b.serial = a.serial ∧ b.object = a.object ∧ b.count.toNat = a.count.toNat + taken.count x
  live : ∀ x ∈ taken, (t₀.slots.get? x).isSome = true

namespace Table

variable {t₀ t t' : Table O} {x : Handle} {taken rest : List Handle}

namespace Intact

theorem refl (t : Table O) : t.Intact t := ⟨rfl, rfl, fun _ => rfl⟩

theorem setError (h : t₀.Intact t) (x : Handle) (message : String) :
    t₀.Intact (t.setError x message) where
  component := h.component
  retired := h.retired
  slots y := by
    rw [Table.setError, Handle.Map.get?_modify, ← h.slots y]
    split
    · rw [Option.map_map]
      rfl
    · rfl

theorem some (h : t₀.Intact t) {a : Slot O} (hx : t₀.slots.get? x = some a) :
    ∃ b, t.slots.get? x = some b ∧ b.serial = a.serial ∧ b.count = a.count ∧ b.object = a.object := by
  have hs := h.slots x
  rw [hx, Option.map_some, Option.map_eq_some_iff] at hs
  obtain ⟨b, hb, hbody⟩ := hs
  obtain ⟨hserial, hrest⟩ := Prod.mk.inj hbody
  obtain ⟨hcount, hobject⟩ := Prod.mk.inj hrest
  exact ⟨b, hb, hserial, hcount, hobject⟩

theorem get? (h : t₀.Intact t) (x : Handle) : t.get? x = t₀.get? x := by
  have hs := congrArg (Option.map fun b => b.2.2) (h.slots x)
  rw [Option.map_map, Option.map_map] at hs
  exact hs

theorem count? (h : t₀.Intact t) (x : Handle) : t.count? x = t₀.count? x := by
  have hs := congrArg (Option.map fun b => b.2.1) (h.slots x)
  rw [Option.map_map, Option.map_map] at hs
  exact hs

theorem lent (h : t₀.Intact t) : t₀.Lent [] t where
  component := h.component
  retired := h.retired
  gone x hx := by
    have hs := h.slots x
    rwa [hx, Option.map_none, Option.map_eq_none_iff] at hs
  slot x a hx := by
    obtain ⟨b, hb, hserial, hcount, hobject⟩ := h.some hx
    exact ⟨b, hb, hserial, hobject, by rw [hcount]; rfl⟩
  live := by simp

end Intact

/-- A release of one call. -/
theorem release_single [Resource O] {fate : Fate} (h : t.releaseOnce x = (t', fate, [])) :
    t.release x = (t', [⟨x, none, fate⟩]) := by
  rw [Table.release, cascade, h]
  exact cascade.eq_1 _ _

namespace Lent

/-- Nothing is owed any more. -/
theorem intact (h : t₀.Lent [] t) : t₀.Intact t where
  component := h.component
  retired := h.retired
  slots x := by
    cases hx : t₀.slots.get? x with
    | none => rw [h.gone x hx]
    | some a =>
      obtain ⟨b, hb, hserial, hobject, hcount⟩ := h.slot x a hx
      rw [hb]
      simp only [Option.map_some, Slot.body, hserial, hobject, UInt32.toNat_inj.mp hcount]

theorem setCount (h : t₀.Lent taken t) {b : Slot O} (hx : t.slots.get? x = some b) {n : UInt32}
    (hn : n.toNat + taken.count x = b.count.toNat + rest.count x)
    (hrest : ∀ y, y ≠ x → rest.count y = taken.count y)
    (hlive : ∀ y ∈ rest, (t₀.slots.get? y).isSome = true) : t₀.Lent rest (t.setCount x n) where
  component := h.component
  retired := h.retired
  gone y hy := by
    rw [get?_setCount, h.gone y hy]
    split <;> rfl
  slot y a hy := by
    obtain ⟨c, hc, hserial, hobject, hcount⟩ := h.slot y a hy
    rw [get?_setCount, hc]
    by_cases e : x = y
    · subst e
      rw [hx] at hc
      cases hc
      refine ⟨{ b with count := n }, if_pos rfl, hserial, hobject, ?_⟩
      show n.toNat = _
      omega
    · exact ⟨c, if_neg e, hserial, hobject, by rw [hcount, hrest y (Ne.symm e)]⟩
  live := hlive

theorem acquire (h : t₀.Lent taken t) (ha : t.acquire x = .ok t') :
    t₀.Lent (taken ++ [x]) t' := by
  obtain ⟨b, hx, hroom, rfl⟩ := Table.acquire_ok ha
  have hlive : (t₀.slots.get? x).isSome = true := by
    cases hg : t₀.slots.get? x with
    | none => rw [h.gone x hg] at hx; cases hx
    | some a => rfl
  refine h.setCount hx ?_ (fun y hy => ?_) fun y hy => ?_
  · rw [List.count_append, List.count_singleton_self, toNat_add_one hroom]
    omega
  · simp [List.count_append, Ne.symm hy]
  · rcases List.mem_append.mp hy with hy | hy
    · exact h.live y hy
    · rwa [List.mem_singleton.mp hy]

/-- A taken reference is not the last one, so giving it back destroys nothing. -/
theorem release [Resource O] (h : t₀.Lent (x :: rest) t) (hc : t₀.Counted) :
    ∃ t', t.release x = (t', [⟨x, none, .kept⟩]) ∧ t₀.Lent rest t' := by
  obtain ⟨a, ha⟩ := Option.isSome_iff_exists.mp (h.live x List.mem_cons_self)
  obtain ⟨b, hb, -, -, hcount⟩ := h.slot x a ha
  have hpos := hc.pos x a ha
  rw [List.count_cons_self] at hcount
  have hmore : ¬ b.count ≤ 1 := by
    rw [UInt32.le_iff_toNat_le, show (1 : UInt32).toNat = 1 from rfl]
    omega
  have honce := releaseOnce_kept (isNull_of_some hc.null ha) hb hmore
  refine ⟨t.setCount x (b.count - 1), release_single honce,
    h.setCount hb ?_ (fun y hy => ?_) fun y hy => ?_⟩
  · rw [← toNat_sub_one hmore, List.count_cons_self]
    omega
  · rw [List.count_cons_of_ne (Ne.symm hy)]
  · exact h.live y (List.mem_cons_of_mem _ hy)

end Lent

/-- A release that fails changes nothing. -/
theorem release_error [Resource O] {e : Fault} (h : Release.answer (t.release x).2 = .error e) :
    t.release x = (t, [⟨x, none, .unknown⟩]) := by
  obtain ⟨hn, hx⟩ := release_missing h
  refine release_single ?_
  rw [releaseOnce, if_neg (by simp [hn]), hx]

end Table

/-! ## Processes -/

/-- Nothing has changed but last errors, notes, and what is kept outside the components. -/
structure Process.Intact (s₀ s : Process ω) : Prop where
  zoo : s₀.zoo.Intact s.zoo
  calculator : s₀.calculator.Intact s.calculator
  primes : s₀.primes.Intact s.primes
  issued : s.shared.issued = s₀.shared.issued
  thread : s.shared.thread = s₀.shared.thread
  threads : s.shared.threads = s₀.shared.threads
  registry : s.registry = s₀.registry
  injected : s.injected = s₀.injected

open Process (Intact)

theorem Process.Intact.refl (s : Process ω) : s.Intact s :=
  ⟨.refl _, .refl _, .refl _, rfl, rfl, rfl, rfl, rfl⟩

theorem Process.Intact.outer {s₀ s : Process ω} (h : s₀.Intact s) (w : ω) :
    s₀.Intact { s with outer := w } :=
  ⟨h.zoo, h.calculator, h.primes, h.issued, h.thread, h.threads, h.registry, h.injected⟩

structure Spot (p : Part (Process ω) O) : Prop where
  view_shared : ∀ s, (p.view s).shared = s.shared
  view_put : ∀ st s, p.view (p.put st s) = st
  put_view : ∀ s, p.put (p.view s) s = s
  put_put : ∀ st st' s, p.put st' (p.put st s) = p.put st' s
  put_shared : ∀ st s, (p.put st s).shared = st.shared
  table : ∀ {s₀ s}, Intact s₀ s → (p.view s₀).table.Intact (p.view s).table
  put : ∀ {s₀ s st}, Intact s₀ s → (p.view s₀).table.Intact st.table →
    st.shared.issued = s₀.shared.issued → st.shared.thread = s₀.shared.thread →
    st.shared.threads = s₀.shared.threads → Intact s₀ (p.put st s)

theorem zooSpot : Spot (Process.zooPart (ω := ω)) where
  view_shared _ := rfl
  view_put _ _ := rfl
  put_view _ := rfl
  put_put _ _ _ := rfl
  put_shared _ _ := rfl
  table h := h.zoo
  put h ht hi hthread hthreads :=
    ⟨ht, h.calculator, h.primes, hi, hthread, hthreads, h.registry, h.injected⟩

theorem calculatorSpot : Spot (Process.calculatorPart (ω := ω)) where
  view_shared _ := rfl
  view_put _ _ := rfl
  put_view _ := rfl
  put_put _ _ _ := rfl
  put_shared _ _ := rfl
  table h := h.calculator
  put h ht hi hthread hthreads :=
    ⟨h.zoo, ht, h.primes, hi, hthread, hthreads, h.registry, h.injected⟩

theorem primesSpot : Spot (Process.primesPart (ω := ω)) where
  view_shared _ := rfl
  view_put _ _ := rfl
  put_view _ := rfl
  put_put _ _ _ := rfl
  put_shared _ _ := rfl
  table h := h.primes
  put h ht hi hthread hthreads :=
    ⟨h.zoo, h.calculator, ht, hi, hthread, hthreads, h.registry, h.injected⟩

def Owing (p : Part (Process ω) O) (taken : List Handle) (s₀ s : Process ω) : Prop :=
  ∃ s₁ t, Intact s₀ s₁ ∧ s = p.put { p.view s₁ with table := t } s₁ ∧
    (p.view s₀).table.Lent taken t

/-- Where the operation fails, it has taken back what it did, as long as handles are new. -/
def Reverts (s₀ : Process ω) (op : Op (Process ω) α) : Prop :=
  Does (Intact s₀) op (fun _ _ => True) fun _ s => s.shared.issued < handleLimit → Intact s₀ s

def Undone (s₀ : Process ω) (x : Act ω (Status × ρ)) : Prop :=
  Ends (Intact s₀) x fun r s => r.1 ≠ Status.ok → s.shared.issued < handleLimit → Intact s₀ s

namespace Reverts

variable {s₀ : Process ω} {op : Op (Process ω) α} {f : α → Op (Process ω) β}

theorem of_reads (h : Reads op) : Reverts s₀ op :=
  (h _).mono (fun _ h => h) (fun _ _ _ => trivial) fun _ _ h _ => h

/-- An operation that never fails. -/
theorem of_ok (h : ∀ s, ∃ a s', op s = (.ok a, s')) : Reverts s₀ op :=
  Does.of_run fun s _ => .inl ((h s).imp fun _ ⟨s', hr⟩ => ⟨s', hr, trivial⟩)

theorem reads_bind (h : Reads op) (hf : ∀ a, Reverts s₀ (f a)) : Reverts s₀ (op >>= f) :=
  .bind ((h _).failing fun _ _ h _ => h) hf

theorem fares_bind (h : Fares (Intact s₀) op) (hf : ∀ a, Reverts s₀ (f a)) :
    Reverts s₀ (op >>= f) :=
  .bind (h.failing fun _ _ h _ => h.2) hf

theorem ite {c : Prop} [Decidable c] {x y : Op (Process ω) α} (hx : c → Reverts s₀ x)
    (hy : ¬ c → Reverts s₀ y) : Reverts s₀ (if c then x else y) :=
  Does.ite hx hy

theorem throw (e : Fault) : Reverts s₀ (throw e : Op (Process ω) α) :=
  .of_reads (.throw e)

theorem throw_bind (e : Fault) : Reverts s₀ (MonadExcept.throw e >>= f) :=
  .of_reads (.throw_bind e f)

end Reverts

namespace Spot

variable {p : Part (Process ω) O} (spot : Spot p) {s₀ s : Process ω} {taken rest : List Handle}
  {x : Handle}
include spot

/-! ## Failures -/

/-- A record of a failure, on whatever target. -/
theorem fail (x : Handle) (why : Fault) (s : Process ω) (h : Intact s₀ s) :
    Intact s₀ (p.fail x why s).2 := by
  have hnote : Intact s₀ (p.put { p.view s with
      shared := (p.view s).shared.note (.callFailed (p.view s).table.component why) } s) := by
    refine spot.put h (spot.table h) ?_ ?_ ?_ <;>
      simp only [Shared.note, spot.view_shared, h.issued, h.thread, h.threads]
  have hrun : (p.fail x why s).2 = (p.recordError x why.message (p.put { p.view s with
      shared := (p.view s).shared.note (.callFailed (p.view s).table.component why) } s)).2 := rfl
  rw [hrun]
  revert hnote
  generalize p.put { p.view s with
      shared := (p.view s).shared.note (.callFailed (p.view s).table.component why) } s = s'
  intro h'
  unfold Part.recordError
  dsimp only
  split
  · refine spot.put h' ((spot.table h').setError x _) ?_ ?_ ?_ <;>
      simp only [spot.view_shared, h'.issued, h'.thread, h'.threads]
  · refine spot.put h' (spot.table h') ?_ ?_ ?_ <;>
      simp only [Shared.setGlobal, spot.view_shared, h'.issued, h'.thread, h'.threads]

theorem guard (x : Handle) (cells : ρ) {op : Op (Process ω) ρ} (hop : Reverts s₀ op) :
    Undone s₀ (p.guard x cells op) := by
  refine Part.guard_failed hop fun why s h hb => spot.fail x why s (h ?_)
  have hissued : (p.fail x why s).2.shared.issued = s.shared.issued :=
    (spot.fail x why s (.refl s)).issued
  rwa [hissued] at hb

/-- What only reads leaves all intact. -/
theorem idle {x : Act ω (Status × ρ)} {y : Handle} (h : Routed p y (Intact s₀) x) : Undone s₀ x :=
  (h.keeps (spot.fail y)).post fun _ _ h _ _ => h

/-! ## References -/

theorem owes (h : Intact s₀ s) : Owing p [] s₀ s :=
  ⟨s, (p.view s).table, h, (spot.put_view s).symm, (spot.table h).lent⟩

theorem settled (h : Owing p [] s₀ s) : Intact s₀ s := by
  obtain ⟨s₁, t, h₁, rfl, ht⟩ := h
  refine spot.put h₁ ht.intact ?_ ?_ ?_ <;>
    simp only [spot.view_shared, h₁.issued, h₁.thread, h₁.threads]

theorem acquire_owes (x : Handle) :
    Does (Owing p taken s₀) (p.acquire x) (fun _ => Owing p (taken ++ [x]) s₀)
      fun _ => Owing p taken s₀ := by
  refine Does.of_run fun s hs => ?_
  cases ha : (p.view s).table.acquire x with
  | error why => exact .inr ⟨why, s, Part.acquire_error ha, hs⟩
  | ok t' =>
    refine .inl ⟨(), _, Part.acquire_ok ha, ?_⟩
    obtain ⟨s₁, t, h₁, rfl, ht⟩ := hs
    rw [spot.view_put] at ha ⊢
    rw [spot.put_put]
    exact ⟨s₁, t', h₁, rfl, ht.acquire ha⟩

variable [Resource O]

theorem release_owes (hc : (p.view s₀).table.Counted) (x : Handle) {E : Fault → Process ω → Prop} :
    Does (Owing p (x :: rest) s₀) (p.release x) (fun _ => Owing p rest s₀) E := by
  refine Does.of_run fun s hs => .inl ?_
  obtain ⟨s₁, t, h₁, rfl, ht⟩ := hs
  obtain ⟨t', hrelease, ht'⟩ := ht.release hc
  refine ⟨(), _, ?_, s₁, t', h₁, rfl, ht'⟩
  show p.release x _ = _
  unfold Part.release
  dsimp only
  rw [spot.view_put, hrelease, spot.put_put]
  rfl

/-- Everything taken is given back. -/
theorem rollBack_owes (hc : (p.view s₀).table.Counted) (taken : List Handle)
    {E : Fault → Process ω → Prop} :
    Does (Owing p taken s₀) (p.rollBack taken) (fun _ => Intact s₀) E := by
  induction taken with
  | nil => exact .pure fun _ h => spot.settled h
  | cons x rest ih =>
    refine .bind (spot.release_owes hc x (E := fun _ _ => False)).outcome fun r => ?_
    cases r with
    | ok _ => exact ih
    | error why => exact fun _ h => h.elim

omit [Resource O] in
theorem acquire_intact (x : Handle) :
    Does (Intact s₀) (p.acquire x) (fun _ _ => True) fun _ => Intact s₀ :=
  (spot.acquire_owes x).mono (fun _ h => spot.owes h) (fun _ _ _ => trivial)
    fun _ _ h => spot.settled h

omit [Resource O] in
theorem acquire_reverts (x : Handle) : Reverts s₀ (p.acquire x) :=
  (spot.acquire_intact x).failing fun _ _ h _ => h

theorem release_reverts (x : Handle) : Reverts s₀ (p.release x) := by
  refine Does.of_run fun s hs => ?_
  have hrun : p.release x s = (Release.answer ((p.view s).table.release x).2,
      p.put ⟨(p.view s).shared.notes (((p.view s).table.release x).2.flatMap
          (Release.notes (p.view s).table.component)), ((p.view s).table.release x).1⟩ s) := rfl
  cases ha : Release.answer ((p.view s).table.release x).2 with
  | ok a => exact .inl ⟨a, _, hrun.trans (by rw [ha]), trivial⟩
  | error why =>
    refine .inr ⟨why, s, hrun.trans ?_, fun _ => hs⟩
    rw [ha, Table.release_error ha]
    exact congrArg (Prod.mk _) (spot.put_view s)

end Spot

end Boundary
