/-
  Boundary.Proofs.Tables — tables that share the counter of a process.

  `Ran part s made u`: from `s` to `u` any number of tables were worked on, in any
  interleaving and with any handles: objects were inserted and changed, references taken
  and released, one call of a cascade at a time where others come in between, errors
  recorded and operations guarded. `made` is what was inserted on the way, newest first:
  the table and the handle it answered. Nothing is asked of the ownership lists.

  A step that inserts nothing is `InsertsNone`: no object comes and no count ends. So what is
  known of the tables (`Issued`) has two cases only (`Issued.run`).

  Proved: after any run of fewer than 2^64 inserts (`Together.Ran.orderly`)
  (1) a live handle is not null, was answered by one insert and lives in the table of that
      insert only;
  (2) counts lie between one and 2^32 - 1, a release call takes one off, and the full
      count takes no more;
  (3) a call for a handle that is not live there is refused and changes nothing;
  (4) a handle whose object is gone is never answered again and lives nowhere.
-/
import Boundary.Bench
import Boundary.Proofs.Release
import Boundary.Proofs.Store

namespace Boundary

/-! ## One table -/

namespace Table

variable {O : Type}

/-- Every object of the second table was in the first one and has a reference left if it
    had one there. -/
def Thins (t t' : Table O) : Prop :=
  ∀ x b, t'.slots.get? x = some b →
    ∃ a, t.slots.get? x = some a ∧ (0 < a.count.toNat → 0 < b.count.toNat)

namespace Thins

variable {t t' t'' : Table O}

theorem of_slots (h : t'.slots = t.slots) : t.Thins t' :=
  fun _ b hb => ⟨b, by rw [← h]; exact hb, id⟩

theorem refl (t : Table O) : t.Thins t := of_slots rfl

theorem trans (h : t.Thins t') (h' : t'.Thins t'') : t.Thins t'' := fun x c hc => by
  obtain ⟨b, hb, hbc⟩ := h' x c hc
  obtain ⟨a, ha, hab⟩ := h x b hb
  exact ⟨a, ha, hbc ∘ hab⟩

/-- A change of one slot that leaves it a reference. -/
theorem modify {x : Handle} {f : Slot O → Slot O}
    (hf : ∀ a, t.slots.get? x = some a → 0 < a.count.toNat → 0 < (f a).count.toNat) :
    t.Thins { t with slots := t.slots.modify x f } := fun y b hb => by
  rw [Handle.Map.get?_modify] at hb
  by_cases e : x = y
  · subst e
    rw [if_pos rfl, Option.map_eq_some_iff] at hb
    obtain ⟨a, ha, rfl⟩ := hb
    exact ⟨a, ha, hf a ha⟩
  · rw [if_neg e] at hb
    exact ⟨b, hb, id⟩

theorem acquire {x : Handle} (ha : t.acquire x = .ok t') : t.Thins t' := by
  obtain ⟨a, hx, hroom, rfl⟩ := acquire_ok ha
  refine modify fun b hb _ => ?_
  rw [hx, Option.some.injEq] at hb
  subst hb
  show 0 < (a.count + 1).toNat
  rw [toNat_add_one hroom]
  exact Nat.succ_pos _

variable [Resource O]

theorem releaseOnce (t : Table O) (x : Handle) : t.Thins (t.releaseOnce x).1 := by
  unfold Table.releaseOnce
  split
  · exact refl t
  · split
    · exact refl t
    · next a ha =>
      split
      · intro y b hb
        rw [get?_destroy] at hb
        split at hb
        · cases hb
        · exact ⟨b, hb, id⟩
      · next h1 =>
        refine modify fun c _ _ => ?_
        have h1' : 1 < a.count.toNat := by simpa [UInt32.le_iff_toNat_le] using h1
        rw [← toNat_sub_one h1] at h1'
        exact Nat.lt_of_succ_lt_succ h1'

theorem cascade (t : Table O) (calls : List Release) (work : List (Handle × Option Handle)) :
    t.Thins (t.cascade calls work).1 := by
  fun_induction Table.cascade t calls work with
  | case1 t calls => exact refl t
  | case2 t calls x owner rest after ih => exact (releaseOnce t x).trans ih

end Thins

/-- A release call for a live handle takes one reference off. -/
theorem refs_releaseOnce [Resource O] {t : Table O} {x : Handle} {a : Slot O}
    (hn : x.isNull = false) (hx : t.slots.get? x = some a) (ha : 0 < a.count.toNat) :
    (t.releaseOnce x).1.refs x + 1 = t.refs x := by
  rw [refs_some hx]
  by_cases h1 : a.count ≤ 1
  · rw [releaseOnce_last hn hx h1, refs_none (by rw [get?_destroy, if_pos rfl])]
    have : a.count.toNat ≤ 1 := UInt32.le_iff_toNat_le.mp h1
    omega
  · rw [releaseOnce_kept hn hx h1,
      refs_some (by rw [get?_setCount, if_pos rfl, hx]; rfl : _ = some { a with count := _ })]
    exact toNat_sub_one h1

/-- Releasing what is not there is one call that changes nothing. -/
theorem release_unknown [Resource O] {t : Table O} {x : Handle} (hn : x.isNull = false)
    (hx : t.slots.get? x = none) : t.release x = (t, [⟨x, none, .unknown⟩]) := by
  simp [release, cascade, releaseOnce_unknown hn hx]

end Table

/-! ## Tables side by side -/

namespace Together

variable {σ ι : Type} {O : ι → Type}

/-- The parts are tables of their own, and what the process shares is the same for all.
    `fit` says which states hold them. -/
structure Sharing (part : (i : ι) → Part σ (O i)) (fit : σ → Prop) : Prop where
  view_put : ∀ {s i} st, fit s → (part i).view ((part i).put st s) = st
  put_view : ∀ {s i}, fit s → (part i).put ((part i).view s) s = s
  shared : ∀ {s} i j, fit s → ((part i).view s).shared = ((part j).view s).shared
  others : ∀ {s i j} st, fit s → j ≠ i →
    ((part j).view ((part i).put st s)).table = ((part j).view s).table
  fit_put : ∀ {s i} st, fit s → fit ((part i).put st s)

variable [∀ i, Resource (O i)]

inductive Ran (part : (i : ι) → Part σ (O i)) : σ → List (ι × Handle) → σ → Prop
  | refl (s : σ) : Ran part s [] s
  | insert {s u v : σ} {made : List (ι × Handle)} {h : Handle} (i : ι) (o : O i) :
      Ran part s made u → (part i).insert o u = (.ok h, v) → Ran part s ((i, h) :: made) v
  | acquire {s u : σ} {made : List (ι × Handle)} (i : ι) (h : Handle) :
      Ran part s made u → Ran part s made ((part i).acquire h u).2
  | release {s u : σ} {made : List (ι × Handle)} (i : ι) (h : Handle) :
      Ran part s made u → Ran part s made ((part i).release h u).2
  /-- One call of a cascade, so that others may come in between. -/
  | once {s u : σ} {made : List (ι × Handle)} (i : ι) (h : Handle) : Ran part s made u →
      Ran part s made ((part i).put
        { (part i).view u with table := (((part i).view u).table.releaseOnce h).1 } u)
  | record {s u : σ} {made : List (ι × Handle)} (i : ι) (h : Handle) (message : String) :
      Ran part s made u → Ran part s made ((part i).recordError h message u).2
  /-- An operation on any target; what it does is a run of its own. -/
  | guard {s u : σ} {made new : List (ι × Handle)} {ρ : Type} (i : ι) (h : Handle) (cells : ρ)
      (op : Op σ ρ) : Ran part s made u → Ran part u new (op u).2 →
      Ran part s (new ++ made) ((part i).guard h cells op u).2
  /-- An object changes, what it owns too. -/
  | change {s u : σ} {made : List (ι × Handle)} (i : ι) (h : Handle) (f : O i → O i) :
      Ran part s made u → Ran part s made ((part i).update h f u).2
  /-- Another thread runs, or something is noted or taken from the journal. -/
  | aside {s u : σ} {made : List (ι × Handle)} (i : ι) (shared : Shared) : Ran part s made u →
      shared.issued = ((part i).view u).shared.issued →
      Ran part s made ((part i).put { (part i).view u with shared := shared } u)

/-! ## Steps that insert nothing -/

structure InsertsNone (part : (i : ι) → Part σ (O i)) (fit : σ → Prop) (s u : σ) : Prop where
  fit : fit u
  issued : ∀ i, ((part i).view u).shared.issued = ((part i).view s).shared.issued
  thins : ∀ i, ((part i).view s).table.Thins ((part i).view u).table

variable {part : (i : ι) → Part σ (O i)} {fit : σ → Prop} {s u v : σ}

omit [∀ i, Resource (O i)] in
theorem InsertsNone.refl (hs : fit s) : InsertsNone part fit s s := ⟨hs, fun _ => rfl, fun _ => .refl _⟩

omit [∀ i, Resource (O i)] in
theorem InsertsNone.trans (q : InsertsNone part fit s u) (r : InsertsNone part fit u v) :
    InsertsNone part fit s v :=
  ⟨r.fit, fun i => (r.issued i).trans (q.issued i), fun i => (q.thins i).trans (r.thins i)⟩

namespace Sharing

variable (sh : Sharing part fit)
include sh

omit [∀ i, Resource (O i)] in
/-- A change of one table that inserts nothing. -/
theorem put (hs : fit s) {i : ι} {st : Store (O i)}
    (hissued : st.shared.issued = ((part i).view s).shared.issued)
    (ht : ((part i).view s).table.Thins st.table) : InsertsNone part fit s ((part i).put st s) where
  fit := sh.fit_put st hs
  issued j := by
    rw [sh.shared j i (sh.fit_put st hs), sh.view_put st hs, hissued, sh.shared i j hs]
  thins j := by
    by_cases e : j = i
    · subst e
      rw [sh.view_put st hs]
      exact ht
    · rw [sh.others st hs e]
      exact .refl _

omit [∀ i, Resource (O i)] in
theorem acquire (hs : fit s) (i : ι) (h : Handle) :
    InsertsNone part fit s ((part i).acquire h s).2 := by
  cases ha : ((part i).view s).table.acquire h with
  | error e =>
    rw [Part.acquire_error ha]
    exact .refl hs
  | ok t =>
    rw [Part.acquire_ok ha]
    exact sh.put hs rfl (.acquire ha)

theorem release (hs : fit s) (i : ι) (h : Handle) :
    InsertsNone part fit s ((part i).release h s).2 :=
  sh.put hs rfl (.cascade _ _ _)

omit [∀ i, Resource (O i)] in
theorem record (hs : fit s) (i : ι) (h : Handle) (message : String) :
    InsertsNone part fit s ((part i).recordError h message s).2 := by
  unfold Part.recordError
  dsimp only
  split
  · exact sh.put hs rfl (.modify fun _ _ ha => ha)
  · exact sh.put hs rfl (.refl _)

omit [∀ i, Resource (O i)] in
/-- What a guard does after its operation. -/
theorem guard {ρ : Type} (i : ι) (h : Handle) (cells : ρ) {op : Op σ ρ}
    (hs : fit (op s).2) : InsertsNone part fit (op s).2 ((part i).guard h cells op s).2 := by
  cases hop : op s with
  | mk answer v =>
    rw [hop] at hs
    cases answer with
    | ok after =>
      rw [Part.guard_of_ok hop]
      exact .refl hs
    | error why =>
      rw [Part.guard_of_error hop]
      let st := (part i).view v
      have q : InsertsNone part fit v
          ((part i).put { st with shared := st.shared.note (.callFailed st.table.component why) } v) :=
        sh.put hs rfl (.refl _)
      exact q.trans (sh.record q.fit i h why.message)

omit [∀ i, Resource (O i)] in
/-- What an insert does: one slot more in its own table, under the next handle. -/
theorem insert (hs : fit s) {i : ι} {o : O i} {h : Handle}
    (hi : (part i).insert o s = (.ok h, u)) :
    ((part i).view s).shared.nextHandle = h ∧ fit u
      ∧ (∀ j, ((part j).view u).shared.issued = ((part i).view s).shared.issued + 1)
      ∧ ∀ j x b, ((part j).view u).table.slots.get? x = some b →
        (i = j ∧ h = x ∧ b.count = 1) ∨ ((part j).view s).table.slots.get? x = some b := by
  unfold Part.insert at hi
  dsimp only at hi
  obtain ⟨hh, hu⟩ := Prod.mk.inj hi
  obtain rfl := Except.ok.inj hh
  subst hu
  refine ⟨rfl, sh.fit_put _ hs, fun j => ?_, fun j x b hb => ?_⟩
  · rw [sh.shared j i (sh.fit_put _ hs), sh.view_put _ hs]
    rfl
  · by_cases e : j = i
    · subst e
      rw [sh.view_put _ hs, Table.slots_insert, Handle.Map.get?_insert] at hb
      split at hb
      · next hx =>
        cases hb
        exact .inl ⟨rfl, hx, rfl⟩
      · exact .inr hb
    · rw [sh.others _ hs e] at hb
      exact .inr hb

/-- What every insert and every step without one keep, a run keeps. -/
theorem run {P : List (ι × Handle) → σ → Prop} (hfit : ∀ {made s}, P made s → fit s)
    (hnone : ∀ {made s u}, P made s → InsertsNone part fit s u → P made u)
    (hinsert : ∀ {made s u h} (i : ι) (o : O i), P made s → (part i).insert o s = (.ok h, u) →
      P ((i, h) :: made) u)
    {made : List (ι × Handle)} (r : Ran part s made u) :
    ∀ {before}, P before s → P (made ++ before) u := by
  induction r with
  | refl s => exact id
  | insert i o _ hi ih => exact fun hp => hinsert i o (ih hp) hi
  | acquire i h _ ih => exact fun hp => hnone (ih hp) (sh.acquire (hfit (ih hp)) i h)
  | release i h _ ih => exact fun hp => hnone (ih hp) (sh.release (hfit (ih hp)) i h)
  | once i h _ ih =>
    exact fun hp => hnone (ih hp) (sh.put (hfit (ih hp)) rfl (.releaseOnce _ h))
  | record i h m _ ih => exact fun hp => hnone (ih hp) (sh.record (hfit (ih hp)) i h m)
  | guard i h cells op _ _ ih inner =>
    intro before hp
    rw [List.append_assoc]
    have hq := inner (ih hp)
    exact hnone hq (sh.guard i h cells (hfit hq))
  | change i h f _ ih =>
    exact fun hp => hnone (ih hp) (sh.put (hfit (ih hp)) rfl (.modify fun _ _ ha => ha))
  | aside i shared _ hi ih => exact fun hp => hnone (ih hp) (sh.put (hfit (ih hp)) hi (.refl _))

end Sharing

/-! ## What is known of the tables -/

/-- The handles answered so far are those up to the counter, each once. What lives was
    answered by the table it lives in, and has a reference. -/
structure Issued (part : (i : ι) → Part σ (O i)) (fit : σ → Prop) (made : List (ι × Handle))
    (s : σ) : Prop where
  fit : fit s
  issued : ∀ i, ((part i).view s).shared.issued = made.length
  upTo : ∀ h ∈ made.map Prod.snd, 0 < h.raw.toNat ∧ h.raw.toNat ≤ made.length
  nodup : (made.map Prod.snd).Nodup
  home : ∀ i x a, ((part i).view s).table.slots.get? x = some a → (i, x) ∈ made
  counted : ∀ i x a, ((part i).view s).table.slots.get? x = some a → 0 < a.count.toNat

namespace Issued

variable {made : List (ι × Handle)}

omit [∀ i, Resource (O i)] in
theorem insertsNone (k : Issued part fit made s) (q : InsertsNone part fit s u) :
    Issued part fit made u where
  fit := q.fit
  issued i := (q.issued i).trans (k.issued i)
  upTo := k.upTo
  nodup := k.nodup
  home i x b hb := by
    obtain ⟨a, ha, -⟩ := q.thins i x b hb
    exact k.home i x a ha
  counted i x b hb := by
    obtain ⟨a, ha, hpos⟩ := q.thins i x b hb
    exact hpos (k.counted i x a ha)

omit [∀ i, Resource (O i)] in
/-- An insert answers the next handle, while the counter has room. -/
theorem insert (sh : Sharing part fit) (k : Issued part fit made s)
    (hb : made.length + 1 < 2 ^ 64) {i : ι} {o : O i} {h : Handle}
    (hi : (part i).insert o s = (.ok h, u)) : Issued part fit ((i, h) :: made) u := by
  obtain ⟨rfl, hfit, hissued, hslots⟩ := sh.insert k.fit hi
  have hraw : ((part i).view s).shared.nextHandle.raw.toNat = made.length + 1 := by
    show (UInt64.ofNat (((part i).view s).shared.issued + 1)).toNat = _
    rw [k.issued i]
    exact UInt64.toNat_ofNat_of_lt' hb
  refine ⟨hfit, fun j => by rw [hissued j, k.issued i, List.length_cons], ?_, ?_, ?_, ?_⟩
  · rintro x (_ | ⟨_, hx⟩)
    · rw [hraw]
      exact ⟨Nat.succ_pos _, Nat.le_refl _⟩
    · exact ⟨(k.upTo x hx).1, Nat.le_succ_of_le (k.upTo x hx).2⟩
  · refine List.nodup_cons.mpr ⟨fun hx => ?_, k.nodup⟩
    have := (k.upTo _ hx).2
    rw [hraw] at this
    omega
  · intro j x b hb
    rcases hslots j x b hb with ⟨rfl, rfl, -⟩ | ha
    · exact List.mem_cons_self
    · exact List.mem_cons_of_mem _ (k.home j x b ha)
  · intro j x b hb
    rcases hslots j x b hb with ⟨-, -, h1⟩ | ha
    · rw [h1]
      exact Nat.one_pos
    · exact k.counted j x b ha

/-- From a state whose handles are known, a run leaves one whose handles are known, and
    what was gone before it is gone after it. -/
theorem run (sh : Sharing part fit) {before : List (ι × Handle)} (k : Issued part fit before s)
    (r : Ran part s made u) (hb : (made ++ before).length < 2 ^ 64) :
    Issued part fit (made ++ before) u ∧ ∀ i h, (i, h) ∈ before →
      ((part i).view s).table.slots.get? h = none →
      ((part i).view u).table.slots.get? h = none := by
  let Gone (v : σ) : Prop := ∀ i h, (i, h) ∈ before →
    ((part i).view s).table.slots.get? h = none → ((part i).view v).table.slots.get? h = none
  let P (made : List (ι × Handle)) (v : σ) : Prop :=
    fit v ∧ (made.length < 2 ^ 64 → Issued part fit made v ∧ before ⊆ made ∧ Gone v)
  have hrun : P (made ++ before) u := by
    refine sh.run (fun hp => hp.1) ?_ ?_ r
      (show P before s from ⟨k.fit, fun _ => ⟨k, List.Subset.refl _, fun _ _ _ hx => hx⟩⟩)
    · intro made v w hp q
      refine ⟨q.fit, fun hlt => ?_⟩
      obtain ⟨kv, hsub, hgone⟩ := hp.2 hlt
      refine ⟨kv.insertsNone q, hsub, fun i h hmem hs => ?_⟩
      refine Option.eq_none_iff_forall_not_mem.mpr fun b hb => ?_
      obtain ⟨a, ha, -⟩ := q.thins i h b hb
      rw [hgone i h hmem hs] at ha
      cases ha
    · intro made v w h i o hp hi
      obtain ⟨-, hfit, -, hslots⟩ := sh.insert hp.1 hi
      refine ⟨hfit, fun hlt => ?_⟩
      rw [List.length_cons] at hlt
      obtain ⟨kv, hsub, hgone⟩ := hp.2 (Nat.lt_of_succ_lt hlt)
      have kw := kv.insert sh hlt hi
      refine ⟨kw, List.subset_cons_of_subset _ hsub, fun j x hmem hs => ?_⟩
      refine Option.eq_none_iff_forall_not_mem.mpr fun b hb => ?_
      rcases hslots j x b hb with ⟨rfl, rfl, -⟩ | ha
      -- the new handle is none of those answered before
      · exact (List.nodup_cons.mp kw.nodup).1 (List.mem_map_of_mem (hsub hmem))
      · rw [hgone j x hmem hs] at ha
        cases ha
  obtain ⟨ku, -, hgone⟩ := hrun.2 hb
  exact ⟨ku, hgone⟩

omit [∀ i, Resource (O i)] in
/-- A handle answered by one table is live in no other. -/
theorem elsewhere (k : Issued part fit made s) {i j : ι} {x : Handle} (hi : (i, x) ∈ made)
    (hj : ((part j).view s).table.live x = true) : j = i := by
  obtain ⟨a, ha⟩ := Table.live_iff.mp hj
  exact congrArg Prod.fst (List.inj_on_of_nodup_map k.nodup (k.home j x a ha) hi rfl)

end Issued

/-! ## Any run -/

structure Unused (part : (i : ι) → Part σ (O i)) (fit : σ → Prop) (s : σ) : Prop where
  fit : fit s
  issued : ∀ i, ((part i).view s).shared.issued = 0
  empty : ∀ i x, ((part i).view s).table.slots.get? x = none

omit [∀ i, Resource (O i)] in
theorem Unused.nothing (h : Unused part fit s) : Issued part fit [] s where
  fit := h.fit
  issued := h.issued
  upTo x hx := absurd hx List.not_mem_nil
  nodup := List.nodup_nil
  home i x a ha := by
    rw [h.empty i x] at ha
    cases ha
  counted i x a ha := by
    rw [h.empty i x] at ha
    cases ha

structure Orderly (part : (i : ι) → Part σ (O i)) (made : List (ι × Handle)) (s : σ) : Prop where
  /-- A live handle is not null, was answered once, and lives where it was answered. -/
  live : ∀ i h, ((part i).view s).table.live h = true →
    h.isNull = false ∧ (i, h) ∈ made ∧ (made.map Prod.snd).count h = 1
      ∧ ∀ j, ((part j).view s).table.live h = true → j = i
  counted : ∀ i h n, ((part i).view s).table.count? h = some n →
    1 ≤ n.toNat ∧ n.toNat ≤ 4294967295
  /-- A release call takes one reference of a live object. -/
  release : ∀ i h, ((part i).view s).table.live h = true →
    (((part i).view s).table.releaseOnce h).1.refs h + 1 = ((part i).view s).table.refs h
  full : ∀ i h, ((part i).view s).table.count? h = some 4294967295 →
    (part i).acquire h s = (.error .countOverflow, s)
  /-- A handle that is not live there is refused. -/
  refused : ∀ i h, h.isNull = false → ((part i).view s).table.live h = false →
    (part i).get h s = (.error (.unknownHandle h), s)
      ∧ (part i).acquire h s = (.error (.unknownHandle h), s)
      ∧ (part i).release h s = (.error (.unknownHandle h), s)
      ∧ (Fault.unknownHandle h).code = Status.invalidParam
  /-- What is gone is never answered again, and lives nowhere. -/
  ended : ∀ i h, (i, h) ∈ made → ((part i).view s).table.live h = false →
    ∀ new u, Ran part s new u → (new ++ made).length ≤ 2 ^ 64 - 1 →
      h ∉ new.map Prod.snd ∧ ∀ j, ((part j).view u).table.live h = false

section Refused

variable (sh : Sharing part fit) (hs : fit s) {i : ι} {h : Handle}

omit [∀ i, Resource (O i)] in
theorem get_missing (hn : h.isNull = false)
    (hx : ((part i).view s).table.slots.get? h = none) :
    (part i).get h s = (.error (.unknownHandle h), s) := by
  simp [Part.get, Table.get, Table.hold, hn, hx]
  rfl

omit [∀ i, Resource (O i)] in
theorem acquire_missing (hx : ((part i).view s).table.slots.get? h = none) :
    (part i).acquire h s = (.error (.unknownHandle h), s) :=
  Part.acquire_error (by simp only [Table.acquire, hx])

include sh hs in
theorem release_missing (hn : h.isNull = false)
    (hx : ((part i).view s).table.slots.get? h = none) :
    (part i).release h s = (.error (.unknownHandle h), s) := by
  simp only [Part.release, Table.release_unknown hn hx]
  exact congrArg (Prod.mk _) (sh.put_view hs)

end Refused

/-- (1) to (4): after any run of fewer than 2^64 inserts on empty tables, they are in order. -/
theorem Ran.orderly (sh : Sharing part fit) (hs : Unused part fit s) {made : List (ι × Handle)}
    (r : Ran part s made u) (hb : made.length ≤ 2 ^ 64 - 1) : Orderly part made u := by
  have k : Issued part fit made u := by
    have hrun := hs.nothing.run sh r (by rw [List.append_nil]; omega)
    rw [List.append_nil] at hrun
    exact hrun.1
  have hnull : ∀ i h, ((part i).view u).table.live h = true → h.isNull = false := by
    intro i h hl
    obtain ⟨a, ha⟩ := Table.live_iff.mp hl
    refine Bool.eq_false_iff.mpr fun hn => ?_
    have hpos := (k.upTo h (List.mem_map_of_mem (k.home i h a ha))).1
    rw [Table.isNull_iff.mp hn] at hpos
    exact absurd hpos (by decide)
  have hgone : ∀ i h, ((part i).view u).table.live h = false →
      ((part i).view u).table.slots.get? h = none := fun i h hl =>
    Option.not_isSome_iff_eq_none.mp (Bool.eq_false_iff.mp hl)
  refine ⟨fun i h hl => ?_, fun i h n hn => ?_, fun i h hl => ?_, fun i h hn => ?_,
    fun i h hn hl => ?_, fun i h hmem hl new v r' hb' => ?_⟩
  · obtain ⟨a, ha⟩ := Table.live_iff.mp hl
    have hmem := k.home i h a ha
    exact ⟨hnull i h hl, hmem, List.count_eq_one_of_mem k.nodup (List.mem_map_of_mem hmem),
      fun j hj => k.elsewhere hmem hj⟩
  · obtain ⟨a, ha, rfl⟩ := Option.map_eq_some_iff.mp hn
    exact ⟨k.counted i h a ha, Nat.le_of_lt_succ a.count.toNat_lt⟩
  · obtain ⟨a, ha⟩ := Table.live_iff.mp hl
    exact Table.refs_releaseOnce (hnull i h hl) ha (k.counted i h a ha)
  · obtain ⟨a, ha, hc⟩ := Option.map_eq_some_iff.mp hn
    exact Part.acquire_error (by simp only [Table.acquire, ha, hc, if_pos])
  · have hx := hgone i h hl
    exact ⟨get_missing hn hx, acquire_missing hx, release_missing sh k.fit hn hx, rfl⟩
  · obtain ⟨k', hgone'⟩ := k.run sh r' (by omega)
    have hmem' : h ∈ made.map Prod.snd := List.mem_map_of_mem hmem
    refine ⟨fun hnew => ?_, fun j => Bool.eq_false_iff.mpr fun hj => ?_⟩
    · have hnd := k'.nodup
      rw [List.map_append, List.nodup_append'] at hnd
      exact hnd.2.2 hnew hmem'
    · obtain rfl := k'.elsewhere (List.mem_append_right _ hmem) hj
      obtain ⟨a, ha⟩ := Table.live_iff.mp hj
      rw [hgone' _ h hmem (hgone _ h hl)] at ha
      cases ha

end Together

/-! ## Tables of nodes -/

namespace Bench

def tables (n : Nat) (i : Fin n) : Part State Node := part i

theorem tables_sharing (n : Nat) : Together.Sharing (tables n) fun s => s.tables.length = n where
  view_put {s i} st hs := by
    have hi : i.val < s.tables.length := by rw [hs]; exact i.isLt
    simp [tables, part, hi]
  put_view {s i} hs := by
    have hi : i.val < s.tables.length := by rw [hs]; exact i.isLt
    simp [tables, part, hi]
  shared _ _ _ := rfl
  others {s i j} st _ hne := by
    have hij : i.val ≠ j.val := fun e => hne (Fin.ext e.symm)
    simp [tables, part, List.getElem?_set_ne hij]
  fit_put st hs := by simpa [tables, part] using hs

theorem unused (components : List String) :
    Together.Unused (tables components.length) (fun s => s.tables.length = components.length)
      { tables := components.map fun c => { component := c } } where
  fit := List.length_map _
  issued _ := rfl
  empty i x := by simp [tables, part]

def steps {n : Nat} (s : State) (todo : List (Fin n × Step)) : State :=
  todo.foldl (fun s t => (t.2.run (tables n t.1) s).2) s

/-- What follows an operation without a change of its own leaves what that left. -/
theorem bind_state {α β : Type} {x : Op State α} {f : α → Op State β}
    (hf : ∀ a s, (f a s).2 = s) (s : State) : ((x >>= f) s).2 = (x s).2 := by
  cases hx : x s with
  | mk a u => cases a with
    | ok a => rw [run_bind_ok hx, hf a u]
    | error why => rw [run_bind_error hx]

theorem asked_state {α : Type} {x : Op State α} {f : α → Op State Value}
    (hf : ∀ a s, (f a s).2 = s) (s : State) : (asked (x >>= f) s).2 = (x s).2 := by
  rw [← bind_state hf s]
  cases h : (x >>= f) s with
  | mk r u =>
    rw [asked, state_bind (x := (x >>= f).run) h]
    cases r <;> rfl

theorem lastError_state (p : Part State Node) (h : Handle) (s : State) :
    (p.lastError h s).2 = s := by
  unfold Part.lastError
  dsimp only
  split
  · rfl
  · split <;> rfl

/-- What a guarded operation does is a run. -/
theorem Guarded.ran {n : Nat} (i : Fin n) (h : Handle) (op : Guarded) (s : State) :
    Together.Ran (tables n) s [] (op.run (tables n i) h s).2 := by
  cases op with
  | succeed => exact .refl s
  | fail code message => exact .refl s
  | panic message => exact .refl s
  | release => exact .release i h (.refl s)
  | releaseThenFail code message =>
    rw [Guarded.run, bind_state fun _ _ => rfl]
    exact .release i h (.refl s)

/-- A step is a run with one insert at most. -/
theorem Step.ran {n : Nat} (i : Fin n) (st : Step) {made : List (Fin n × Handle)} {s u : State}
    (r : Together.Ran (tables n) s made u) : ∃ new, new.length ≤ 1
      ∧ Together.Ran (tables n) s (new ++ made) (st.run (tables n i) u).2 := by
  have insertsNone {v : State} (r' : Together.Ran (tables n) s made v) :
      ∃ new, new.length ≤ 1 ∧ Together.Ran (tables n) s (new ++ made) v := ⟨[], Nat.zero_le _, r'⟩
  cases st with
  | component => exact insertsNone r
  | insert node =>
    exact ⟨[(i, u.shared.nextHandle)], Nat.le_refl _, r.insert i node rfl⟩
  | get h =>
    rw [Step.run, asked_state fun _ _ => rfl]
    exact insertsNone r
  | acquire h =>
    rw [Step.run, asked_state fun _ _ => rfl]
    exact insertsNone (r.acquire i h)
  | release h =>
    rw [Step.run, asked_state fun _ _ => rfl]
    exact insertsNone (r.release i h)
  | count h => exact insertsNone r
  | record h message => exact insertsNone (r.record i h message)
  | lastError h =>
    rw [Step.run, asked_state fun _ _ => rfl, lastError_state]
    exact insertsNone r
  | guarded h op => exact insertsNone (r.guard i h () _ (op.ran i h u))

/-- Steps are a run, with no more inserts than there are steps. -/
theorem steps_ran {n : Nat} (todo : List (Fin n × Step)) {made : List (Fin n × Handle)}
    {s u : State} (r : Together.Ran (tables n) s made u) : ∃ new, new.length ≤ todo.length
      ∧ Together.Ran (tables n) s (new ++ made) (steps u todo) := by
  induction todo generalizing made u with
  | nil => exact ⟨[], Nat.zero_le _, r⟩
  | cons t rest ih =>
    obtain ⟨new, hnew, r'⟩ := t.2.ran t.1 r
    obtain ⟨more, hmore, r''⟩ := ih r'
    refine ⟨more ++ new, ?_, by rw [List.append_assoc]; exact r''⟩
    rw [List.length_append, List.length_cons]
    omega

def mixed : List (Fin 2 × Step) :=
  [(0, .insert ⟨⟨1⟩, []⟩), (1, .insert ⟨⟨1⟩, []⟩),
   (0, .insert ⟨⟨1⟩, [⟨1⟩, ⟨2⟩, ⟨99⟩, Handle.null]⟩), (0, .acquire ⟨1⟩), (1, .acquire ⟨1⟩),
   (0, .guarded ⟨3⟩ (.releaseThenFail Status.generic "late")), (0, .release ⟨3⟩),
   (1, .insert ⟨⟨1⟩, [⟨2⟩]⟩), (1, .record ⟨3⟩ "gone")]

def pair : State := { tables := ["First", "Second"].map fun c => { component := c } }

theorem mixed_counts :
    ((tables 2 0).view (steps pair mixed)).table.count? ⟨1⟩ = some 1
      ∧ ((tables 2 1).view (steps pair mixed)).table.count? ⟨2⟩ = some 1
      ∧ ((tables 2 0).view (steps pair mixed)).table.live ⟨3⟩ = false
      ∧ ((tables 2 1).view (steps pair mixed)).table.count? ⟨4⟩ = some 1 := by
  decide +kernel

theorem mixed_orderly : ∃ made, made.length ≤ 2 ^ 64 - 1
    ∧ Together.Ran (tables 2) pair made (steps pair mixed)
    ∧ Together.Orderly (tables 2) made (steps pair mixed)
    ∧ (1, ⟨4⟩) ∈ made ∧ ((tables 2 0).view (steps pair mixed)).table.live ⟨3⟩ = false := by
  obtain ⟨made, hlen, r⟩ := steps_ran mixed (.refl pair)
  rw [List.append_nil] at r
  have hb : made.length ≤ 2 ^ 64 - 1 := Nat.le_trans hlen (by decide)
  have horder := Together.Ran.orderly (tables_sharing 2) (unused ["First", "Second"]) r hb
  obtain ⟨-, -, h3, h4⟩ := mixed_counts
  have hlive : ((tables 2 1).view (steps pair mixed)).table.live ⟨4⟩ = true := by
    obtain ⟨a, ha, -⟩ := Option.map_eq_some_iff.mp h4
    exact Table.live_iff.mpr ⟨a, ha⟩
  exact ⟨made, hb, r, horder, (horder.live 1 ⟨4⟩ hlive).2.1, h3⟩

end Bench

end Boundary
