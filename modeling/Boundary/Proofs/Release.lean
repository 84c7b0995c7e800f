/-
  Boundary.Proofs.Release — what a release leaves of a table.

  Releasing `h` gives one reference to `h` back, and every object that is destroyed
  gives back those it owned. `given h D x` counts the references to `x` that come back
  when the objects of `D` are destroyed. A set of live handles is `Closed` when it
  contains every object all of whose references come back.

  Proved:
  (1) However the calls that are due are ordered (`Drained`), they destroy the least
      closed set and take from every other count what was given back
      (`Drained.least`). Null, dead and repeated entries of the ownership lists are
      covered, and cycles.
  (2) The cascade is one such order (`cascade_drained`), so a release of a live handle
      succeeds and has this result, whatever the order of the entries in the ownership
      lists.
-/
import Boundary.Bench
import Mathlib.Algebra.BigOperators.Group.Finset.Basic
import Mathlib.Algebra.Order.BigOperators.Group.Finset
import Mathlib.Order.Bounds.Basic

namespace Boundary.Table

variable {O : Type}

/-! ## Counts -/

section

variable {n : UInt32}

/-- A count that is not full takes one more. -/
theorem toNat_add_one (h : n ≠ 4294967295) : (n + 1).toNat = n.toNat + 1 := by
  have hne : n.toNat ≠ 4294967295 := fun hn => h (UInt32.toNat_inj.mp hn)
  have := n.toNat_lt
  rw [UInt32.toNat_add, UInt32.toNat_one]
  omega

theorem toNat_sub_one (h : ¬ n ≤ 1) : (n - 1).toNat + 1 = n.toNat := by
  have hle : (1 : UInt32) ≤ n := UInt32.le_of_lt (UInt32.not_le.mp h)
  rw [UInt32.toNat_sub_of_le _ _ hle, UInt32.toNat_one]
  exact Nat.sub_add_cancel (UInt32.le_iff_toNat_le.mp hle)

end

/-! ## Tables as they can be found -/

structure Counted (t : Table O) : Prop where
  null : t.slots.get? Handle.null = none
  pos : ∀ h s, t.slots.get? h = some s → 0 < s.count.toNat

def refs (t : Table O) (x : Handle) : Nat := (t.count? x).elim 0 UInt32.toNat

theorem refs_some {t : Table O} {x : Handle} {s : Slot O} (h : t.slots.get? x = some s) :
    t.refs x = s.count.toNat := by
  simp [refs, count?, h]

theorem refs_none {t : Table O} {x : Handle} (h : t.slots.get? x = none) : t.refs x = 0 := by
  simp [refs, count?, h]

theorem isNull_iff {x : Handle} : x.isNull = true ↔ x = Handle.null := by
  obtain ⟨x⟩ := x
  simp [Handle.isNull, Handle.null]

/-- Where null names no object, a live handle is not null. -/
theorem isNull_of_some {t : Table O} (hnull : t.slots.get? Handle.null = none) {x : Handle}
    {s : Slot O} (hs : t.slots.get? x = some s) : x.isNull = false := by
  apply Bool.eq_false_iff.mpr
  intro hn
  rw [isNull_iff.mp hn, hnull] at hs
  cases hs

theorem live_iff {t : Table O} {x : Handle} : t.live x = true ↔ ∃ s, t.slots.get? x = some s := by
  simp [live, Handle.Map.contains, Option.isSome_iff_exists]

/-! ## One call -/

variable [Resource O]

def ownedBy (t : Table O) (x : Handle) : List Handle := (t.get? x).elim [] Resource.owned

theorem ownedBy_some {t : Table O} {x : Handle} {s : Slot O} (h : t.slots.get? x = some s) :
    t.ownedBy x = Resource.owned s.object := by
  simp [ownedBy, get?, h]

theorem releaseOnce_null (t : Table O) {x : Handle} (hx : x.isNull = true) :
    t.releaseOnce x = (t, .null, []) := by
  rw [releaseOnce, if_pos hx]

theorem releaseOnce_unknown {t : Table O} {x : Handle} (hx : x.isNull = false)
    (h : t.slots.get? x = none) : t.releaseOnce x = (t, .unknown, []) := by
  simp [releaseOnce, hx, h]

theorem releaseOnce_none {t : Table O} {x : Handle} (h : t.slots.get? x = none) :
    (t.releaseOnce x).1 = t ∧ (t.releaseOnce x).2.2 = [] := by
  unfold releaseOnce
  split
  · exact ⟨rfl, rfl⟩
  · rw [h]
    exact ⟨rfl, rfl⟩

theorem releaseOnce_last {t : Table O} {x : Handle} {s : Slot O} (hx : x.isNull = false)
    (h : t.slots.get? x = some s) (h1 : s.count ≤ 1) :
    t.releaseOnce x = (t.destroy x s, .destroyed, Resource.owned s.object) := by
  simp [releaseOnce, hx, h, h1]

theorem releaseOnce_kept {t : Table O} {x : Handle} {s : Slot O} (hx : x.isNull = false)
    (h : t.slots.get? x = some s) (h1 : ¬ s.count ≤ 1) :
    t.releaseOnce x = (t.setCount x (s.count - 1), .kept, []) := by
  simp [releaseOnce, hx, h, h1]

omit [Resource O] in
theorem get?_destroy (t : Table O) (x y : Handle) (s : Slot O) :
    (t.destroy x s).slots.get? y = if x = y then none else t.slots.get? y :=
  Handle.Map.get?_erase t.slots x y

omit [Resource O] in
theorem get?_setCount (t : Table O) (x y : Handle) (n : UInt32) :
    (t.setCount x n).slots.get? y
      = if x = y then (t.slots.get? y).map (fun s => { s with count := n })
        else t.slots.get? y :=
  Handle.Map.get?_modify t.slots x y _

/-! ## What comes back -/

/-- The references to `x` that come back when `h` is released and the objects of `D` are
    destroyed. -/
def given (t : Table O) (h : Handle) (D : Finset Handle) (x : Handle) : Nat :=
  (if x = h then 1 else 0) + ∑ y ∈ D, (t.ownedBy y).count x

theorem given_mono (t : Table O) (h : Handle) {D E : Finset Handle} (hDE : D ⊆ E) (x : Handle) :
    t.given h D x ≤ t.given h E x :=
  Nat.add_le_add_left (Finset.sum_le_sum_of_subset hDE) _

theorem given_cons (t : Table O) (h : Handle) {D : Finset Handle} {y : Handle} (hy : y ∉ D)
    (x : Handle) : t.given h (D.cons y hy) x = t.given h D x + (t.ownedBy y).count x := by
  simp only [given, Finset.sum_cons]
  omega

/-- A set of live handles with every live handle that it gives all references of back. -/
structure Closed (t : Table O) (h : Handle) (D : Finset Handle) : Prop where
  live : ∀ x ∈ D, t.live x = true
  all : ∀ x, t.live x = true → t.refs x ≤ t.given h D x → x ∈ D

def Slot.less (n : Nat) (s : Slot O) : Slot O :=
  { s with count := UInt32.ofNat (s.count.toNat - n) }

def settled (t : Table O) (h : Handle) (D : Finset Handle) (x : Handle) : Option (Slot O) :=
  if x ∈ D then none else (t.slots.get? x).map (Slot.less (t.given h D x))

/-! ## Any order -/

/-- Release calls that are due are carried out in some order, with those that become due
    on the way. -/
inductive Drained : Table O → List Handle → Table O → Prop
  | done (t : Table O) : Drained t [] t
  | call {t t' : Table O} {due rest : List Handle} {x : Handle} : due.Perm (x :: rest) →
      Drained (t.releaseOnce x).1 ((t.releaseOnce x).2.2 ++ rest) t' → Drained t due t'

/-- On the way from `t₀`: the objects of `K` are destroyed, `served` calls were carried out
    for each handle, and the calls for `due` are left. -/
structure Midway (t₀ : Table O) (h : Handle) (K : Finset Handle) (served : Handle → Nat)
    (t : Table O) (due : List Handle) : Prop where
  /-- Every reference given back was or will be served. -/
  books : ∀ x, t₀.given h K x = served x + due.count x
  gone : ∀ x ∈ K, t.slots.get? x = none
  kept : ∀ x, x ∉ K → t.slots.get? x = (t₀.slots.get? x).map (Slot.less (served x))
  left : ∀ x, x ∉ K → ∀ s, t₀.slots.get? x = some s → served x < s.count.toNat
  live : ∀ x ∈ K, t₀.live x = true
  least : ∀ D, t₀.Closed h D → K ⊆ D

theorem Midway.start {t : Table O} (ht : t.Counted) (h : Handle) :
    Midway t h ∅ (fun _ => 0) t [h] where
  books x := by simp [given, List.count_singleton', eq_comm]
  gone x hx := absurd hx (Finset.notMem_empty x)
  kept x _ := by
    cases t.slots.get? x with
    | none => rfl
    | some s => simp [Slot.less]
  left x _ s hs := ht.pos x s hs
  live x hx := absurd hx (Finset.notMem_empty x)
  least D _ := Finset.empty_subset D

section Step

variable {t₀ t : Table O} {h x : Handle} {K : Finset Handle} {served : Handle → Nat}
  {due rest : List Handle}

def oneMore (served : Handle → Nat) (x : Handle) : Handle → Nat :=
  fun y => served y + if y = x then 1 else 0

theorem oneMore_same (served : Handle → Nat) (x : Handle) : oneMore served x x = served x + 1 := by
  simp [oneMore]

theorem oneMore_ne (served : Handle → Nat) {x y : Handle} (h : y ≠ x) :
    oneMore served x y = served y := by
  simp [oneMore, h]

theorem count_due (hd : due.Perm (x :: rest)) (y : Handle) :
    due.count y = rest.count y + if y = x then 1 else 0 := by
  rw [hd.count_eq y, List.count_cons]
  by_cases e : y = x
  · simp [e]
  · simp [e, Ne.symm e]

/-- A call for null, or for an object that is gone, is served without an effect. -/
theorem Midway.skip (m : Midway t₀ h K served t due) (hd : due.Perm (x :: rest))
    (hx : t.slots.get? x = none) : Midway t₀ h K (oneMore served x) t rest where
  books y := by
    rw [m.books y, count_due hd y, oneMore]
    omega
  gone := m.gone
  kept y hy := by
    by_cases e : y = x
    · subst e
      have hn := m.kept y hy
      rw [hx, eq_comm, Option.map_eq_none_iff] at hn
      rw [hx, hn]
      rfl
    · rw [oneMore_ne served e]
      exact m.kept y hy
  left y hy s hs := by
    by_cases e : y = x
    · subst e
      have hn := m.kept y hy
      rw [hx, hs] at hn
      cases hn
    · rw [oneMore_ne served e]
      exact m.left y hy s hs
  live := m.live
  least := m.least

/-- The slot of an object that is still there has all references but those served. -/
theorem Midway.slot (m : Midway t₀ h K served t due) {s : Slot O}
    (hs : t.slots.get? x = some s) :
    x ∉ K ∧ ∃ s₀, t₀.slots.get? x = some s₀ ∧ s = Slot.less (served x) s₀
      ∧ s.count.toNat = s₀.count.toNat - served x ∧ served x < s₀.count.toNat := by
  have hK : x ∉ K := fun hx => by
    rw [m.gone x hx] at hs
    cases hs
  have hk := m.kept x hK
  rw [hs, eq_comm, Option.map_eq_some_iff] at hk
  obtain ⟨s₀, h0, rfl⟩ := hk
  refine ⟨hK, s₀, h0, rfl, ?_, m.left x hK s₀ h0⟩
  have := s₀.count.toNat_lt
  simp only [Slot.less, UInt32.toNat_ofNat']
  omega

/-- A call that leaves a reference. -/
theorem Midway.keep (m : Midway t₀ h K served t due) (hd : due.Perm (x :: rest)) {s : Slot O}
    (hs : t.slots.get? x = some s) (h1 : ¬ s.count ≤ 1) :
    Midway t₀ h K (oneMore served x) (t.setCount x (s.count - 1)) rest where
  books y := by
    rw [m.books y, count_due hd y, oneMore]
    omega
  gone y hy := by
    rw [get?_setCount, m.gone y hy]
    simp
  kept y hy := by
    obtain ⟨hK, s₀, h0, rfl, hc, hlt⟩ := m.slot hs
    rw [get?_setCount]
    by_cases e : x = y
    · subst e
      have hcount : (Slot.less (served x) s₀).count - 1
          = UInt32.ofNat (s₀.count.toNat - (served x + 1)) := by
        apply UInt32.toNat_inj.mp
        have hless := toNat_sub_one h1
        have := s₀.count.toNat_lt
        simp only [Slot.less, UInt32.toNat_ofNat'] at hless ⊢
        omega
      rw [if_pos rfl, hs, h0, oneMore_same, Option.map_some, Option.map_some, hcount]
      rfl
    · rw [if_neg e, oneMore_ne served (Ne.symm e)]
      exact m.kept y hy
  left y hy s' hs' := by
    by_cases e : y = x
    · subst e
      obtain ⟨-, s₀, h0, -, hc, hlt⟩ := m.slot hs
      rw [h0] at hs'
      cases hs'
      have : 1 < s.count.toNat := by simpa [UInt32.le_iff_toNat_le] using h1
      rw [oneMore_same]
      omega
    · rw [oneMore_ne served e]
      exact m.left y hy s' hs'
  live := m.live
  least := m.least

/-- A call that takes the last reference: the object joins the destroyed ones, and its
    references are due. A closed set contains it, for its references all came back. -/
theorem Midway.destroy (m : Midway t₀ h K served t due) (hd : due.Perm (x :: rest)) {s : Slot O}
    (hs : t.slots.get? x = some s) (h1 : s.count ≤ 1) :
    Midway t₀ h (K.cons x (m.slot hs).1) (oneMore served x) (t.destroy x s)
      (Resource.owned s.object ++ rest) := by
  obtain ⟨hK, s₀, h0, rfl, hc, hlt⟩ := m.slot hs
  have hlast : s₀.count.toNat = served x + 1 := by
    have : (Slot.less (served x) s₀).count.toNat ≤ 1 := by
      simpa [UInt32.le_iff_toNat_le] using h1
    omega
  constructor
  · intro y
    rw [given_cons t₀ h hK y, m.books y, count_due hd y, ownedBy_some h0, List.count_append,
      oneMore]
    show _ = _ + ((Resource.owned s₀.object).count y + _)
    omega
  · intro y hy
    rw [get?_destroy]
    rcases Finset.mem_cons.mp hy with rfl | hy
    · simp
    · rw [m.gone y hy]
      simp
  · intro y hy
    rw [Finset.mem_cons, not_or] at hy
    rw [get?_destroy, if_neg (Ne.symm hy.1), oneMore_ne served hy.1]
    exact m.kept y hy.2
  · intro y hy s' hs'
    rw [Finset.mem_cons, not_or] at hy
    rw [oneMore_ne served hy.1]
    exact m.left y hy.2 s' hs'
  · intro y hy
    rcases Finset.mem_cons.mp hy with rfl | hy
    · exact live_iff.mpr ⟨s₀, h0⟩
    · exact m.live y hy
  · intro D hD
    have hKD := m.least D hD
    refine Finset.cons_subset.mpr ⟨hD.all x (live_iff.mpr ⟨s₀, h0⟩) ?_, hKD⟩
    have hle := given_mono t₀ h hKD x
    rw [m.books x, count_due hd x, if_pos rfl] at hle
    rw [refs_some h0]
    omega

end Step

/-- When nothing is due any more, the destroyed objects are the least closed set. -/
theorem Midway.finish {t₀ t : Table O} {h : Handle} {K : Finset Handle} {served : Handle → Nat}
    (m : Midway t₀ h K served t []) :
    IsLeast {D | t₀.Closed h D} K ∧ ∀ x, t.slots.get? x = t₀.settled h K x := by
  have hserved : ∀ x, served x = t₀.given h K x := fun x => by simpa using (m.books x).symm
  refine ⟨⟨⟨m.live, fun x hx hle => ?_⟩, fun D hD => m.least D hD⟩, fun x => ?_⟩
  · apply Classical.byContradiction
    intro hK
    obtain ⟨s, hs⟩ := live_iff.mp hx
    have := m.left x hK s hs
    rw [refs_some hs, ← hserved x] at hle
    omega
  · by_cases hK : x ∈ K
    · rw [settled, if_pos hK, m.gone x hK]
    · rw [settled, if_neg hK, m.kept x hK, hserved x]

/-- A slot at null is never there on the way. -/
theorem Midway.null {t₀ t : Table O} {h : Handle} {K : Finset Handle} {served : Handle → Nat}
    {due : List Handle} (ht : t₀.Counted) (m : Midway t₀ h K served t due) :
    t.slots.get? Handle.null = none := by
  by_cases hK : Handle.null ∈ K
  · exact m.gone _ hK
  · rw [m.kept _ hK, ht.null]
    rfl

/-- Induction on the order taken: every call keeps the books. -/
theorem Drained.settles {t₀ t t' : Table O} {h : Handle} {due : List Handle} (ht : t₀.Counted)
    (d : Drained t due t') {K : Finset Handle} {served : Handle → Nat}
    (m : Midway t₀ h K served t due) :
    ∃ D, IsLeast {D | t₀.Closed h D} D ∧ ∀ x, t'.slots.get? x = t₀.settled h D x := by
  induction d generalizing K served with
  | done t => exact ⟨K, m.finish⟩
  | @call t t' due rest x hd _ ih =>
    cases hx : t.slots.get? x with
    | none =>
      obtain ⟨h1, h2⟩ := releaseOnce_none hx
      rw [h1, h2] at ih
      exact ih (m.skip hd hx)
    | some s =>
      have hn := isNull_of_some (m.null ht) hx
      by_cases h1 : s.count ≤ 1
      · rw [releaseOnce_last hn hx h1] at ih
        exact ih (m.destroy hd hx h1)
      · rw [releaseOnce_kept hn hx h1] at ih
        exact ih (m.keep hd hx h1)

/-- (1) Any order destroys the least closed set, and takes from every other count what was
    given back. -/
theorem Drained.least {t t' : Table O} {h : Handle} (ht : t.Counted) (d : Drained t [h] t') :
    ∃ D, IsLeast {D | t.Closed h D} D ∧ ∀ x, t'.slots.get? x = t.settled h D x :=
  d.settles ht (Midway.start ht h)

/-! ## The cascade -/

/-- The cascade takes the calls from the front of its list. -/
theorem cascade_drained (t : Table O) (calls : List Release)
    (work : List (Handle × Option Handle)) :
    Drained t (work.map Prod.fst) (t.cascade calls work).1 := by
  fun_induction cascade t calls work with
  | case1 t calls => exact .done t
  | case2 t calls h owner rest after ih =>
    refine .call (List.Perm.refl _) ?_
    simpa [after, Function.comp_def] using ih

theorem release_drained (t : Table O) (h : Handle) : Drained t [h] (t.release h).1 :=
  cascade_drained t [] [(h, none)]

/-- The records of the calls made so far stay in front. -/
theorem cascade_calls (t : Table O) (calls : List Release)
    (work : List (Handle × Option Handle)) :
    ∃ more, (t.cascade calls work).2 = calls.reverse ++ more := by
  fun_induction cascade t calls work with
  | case1 t calls => exact ⟨[], by simp⟩
  | case2 t calls h owner rest after ih =>
    obtain ⟨more, hm⟩ := ih
    exact ⟨⟨h, owner, after.2.1⟩ :: more, by rw [hm]; simp⟩

theorem releaseOnce_component (t : Table O) (x : Handle) :
    (t.releaseOnce x).1.component = t.component := by
  unfold releaseOnce
  split
  · rfl
  · split
    · rfl
    · split <;> rfl

theorem Drained.component {t t' : Table O} {due : List Handle} (d : Drained t due t') :
    t'.component = t.component := by
  induction d with
  | done => rfl
  | call _ _ ih => rw [ih, releaseOnce_component]

theorem cascade_slots (t : Table O) (calls : List Release)
    (work : List (Handle × Option Handle)) {x : Handle} {a' : Slot O}
    (hx : (t.cascade calls work).1.slots.get? x = some a') :
    ∃ a, t.slots.get? x = some a ∧ a'.serial = a.serial ∧ a'.object = a.object := by
  fun_induction Table.cascade t calls work with
  | case1 t calls => exact ⟨a', hx, rfl, rfl⟩
  | case2 t calls y owner rest after ih =>
    obtain ⟨b, hb, hser, hobj⟩ := ih hx
    show ∃ a, t.slots.get? x = some a ∧ a'.serial = a.serial ∧ a'.object = a.object
    revert hb
    simp only [after]
    unfold Table.releaseOnce
    split
    · exact fun hb => ⟨b, hb, hser, hobj⟩
    · split
      · exact fun hb => ⟨b, hb, hser, hobj⟩
      · split
        · intro hb
          simp only [Table.destroy, Handle.Map.get?_erase] at hb
          split at hb
          · cases hb
          · exact ⟨b, hb, hser, hobj⟩
        · intro hb
          simp only [Table.setCount, Handle.Map.get?_modify] at hb
          split at hb
          · rw [Option.map_eq_some_iff] at hb
            obtain ⟨a, ha, rfl⟩ := hb
            exact ⟨a, ha, hser, hobj⟩
          · exact ⟨b, hb, hser, hobj⟩

/-- Slots after a release were there before, but for their counts. -/
theorem release_slots (t : Table O) (h : Handle) {x : Handle} {a' : Slot O}
    (hx : (t.release h).1.slots.get? x = some a') :
    ∃ a, t.slots.get? x = some a ∧ a'.serial = a.serial ∧ a'.object = a.object :=
  cascade_slots t [] [(h, none)] hx

/-- A release answers what became of its first call. -/
theorem release_calls (t : Table O) (h : Handle) :
    ∃ more, (t.release h).2 = ⟨h, none, (t.releaseOnce h).2.1⟩ :: more := by
  obtain ⟨more, hm⟩ := cascade_calls (t.releaseOnce h).1 [⟨h, none, (t.releaseOnce h).2.1⟩]
    ((t.releaseOnce h).2.2.map (·, some h) ++ [])
  refine ⟨more, ?_⟩
  rw [release, cascade, hm]
  rfl

/-- A release fails only if there is nothing to release. -/
theorem release_missing {t : Table O} {h : Handle} {e : Fault}
    (he : Release.answer (t.release h).2 = .error e) :
    h.isNull = false ∧ t.slots.get? h = none := by
  obtain ⟨more, hm⟩ := release_calls t h
  rw [hm] at he
  unfold releaseOnce at he
  split at he
  · cases he
  · next hn =>
    split at he
    · next hx => exact ⟨by simpa using hn, hx⟩
    · split at he <;> cases he

/-! ## Order of the entries -/

def Slot.Alike (a b : Slot O) : Prop :=
  a.count = b.count ∧ (Resource.owned a.object).Perm (Resource.owned b.object)

def Alike (t u : Table O) : Prop :=
  ∀ x, Option.Rel Slot.Alike (t.slots.get? x) (u.slots.get? x)

section Alike

variable {t u : Table O}

theorem Alike.some (a : t.Alike u) {x : Handle} {s : Slot O} (hs : t.slots.get? x = some s) :
    ∃ s', u.slots.get? x = some s' ∧ Slot.Alike s s' := by
  have hx := a x
  rw [hs] at hx
  cases hu : u.slots.get? x with
  | none =>
    rw [hu] at hx
    cases hx
  | some s' =>
    rw [hu] at hx
    cases hx with
    | some h => exact ⟨s', rfl, h⟩

theorem Alike.none (a : t.Alike u) {x : Handle} (hs : t.slots.get? x = none) :
    u.slots.get? x = none := by
  have hx := a x
  rw [hs] at hx
  cases hu : u.slots.get? x with
  | none => rfl
  | some s' =>
    rw [hu] at hx
    cases hx

theorem Alike.counted (a : t.Alike u) (ht : t.Counted) : u.Counted where
  null := a.none ht.null
  pos x s' hs' := by
    cases hs : t.slots.get? x with
    | none =>
      rw [a.none hs] at hs'
      cases hs'
    | some s =>
      obtain ⟨s'', hs'', hc, -⟩ := a.some hs
      rw [hs'] at hs''
      cases hs''
      rw [← hc]
      exact ht.pos x s hs

theorem Alike.live (a : t.Alike u) (x : Handle) : u.live x = t.live x := by
  cases hs : t.slots.get? x with
  | none => simp [Table.live, Handle.Map.contains, hs, a.none hs]
  | some s =>
    obtain ⟨s', hs', -⟩ := a.some hs
    simp [Table.live, Handle.Map.contains, hs, hs']

theorem Alike.refs (a : t.Alike u) (x : Handle) : u.refs x = t.refs x := by
  cases hs : t.slots.get? x with
  | none => rw [refs_none hs, refs_none (a.none hs)]
  | some s =>
    obtain ⟨s', hs', hc, -⟩ := a.some hs
    rw [refs_some hs, refs_some hs', hc]

theorem Alike.given (a : t.Alike u) (h : Handle) (D : Finset Handle) (x : Handle) :
    u.given h D x = t.given h D x := by
  have hy : ∀ y ∈ D, (u.ownedBy y).count x = (t.ownedBy y).count x := by
    intro y _
    cases hs : t.slots.get? y with
    | none => simp [ownedBy, get?, hs, a.none hs]
    | some s =>
      obtain ⟨s', hs', -, hp⟩ := a.some hs
      rw [ownedBy_some hs, ownedBy_some hs', hp.count_eq x]
  rw [Table.given, Table.given, Finset.sum_congr rfl hy]

theorem Alike.closed (a : t.Alike u) {h : Handle} {D : Finset Handle} :
    u.Closed h D ↔ t.Closed h D := by
  have hall : (∀ x, u.live x = true → u.refs x ≤ u.given h D x → x ∈ D)
      ↔ ∀ x, t.live x = true → t.refs x ≤ t.given h D x → x ∈ D := by
    simp only [a.live, a.refs, a.given]
  constructor
  · exact fun c => ⟨fun x hx => a.live x ▸ c.live x hx, hall.mp c.all⟩
  · exact fun c => ⟨fun x hx => a.live x ▸ c.live x hx, hall.mpr c.all⟩

theorem Alike.settled (a : t.Alike u) (h : Handle) (D : Finset Handle) (x : Handle) :
    Option.Rel Slot.Alike (t.settled h D x) (u.settled h D x) := by
  rw [Table.settled, Table.settled, a.given]
  by_cases hx : x ∈ D
  · rw [if_pos hx, if_pos hx]
    exact .none
  · rw [if_neg hx, if_neg hx]
    cases hs : t.slots.get? x with
    | none =>
      rw [a.none hs]
      exact .none
    | some s =>
      obtain ⟨s', hs', hc, hp⟩ := a.some hs
      rw [hs', Option.map_some, Option.map_some]
      exact .some ⟨by simp only [Slot.less, hc], hp⟩

end Alike

/-- (2) A release of a live handle succeeds. It destroys the least closed set and takes from
    every other count what was given back, as any other order of the calls does, and
    tables that differ in the order of ownership entries alone go on doing so. -/
theorem release_least_fixpoint {t : Table O} (ht : t.Counted) {h : Handle}
    (hl : t.live h = true) :
    Release.answer (t.release h).2 = .ok () ∧ (t.release h).1.component = t.component ∧
      ∃ D, IsLeast {D | t.Closed h D} D ∧
        (∀ x, (t.release h).1.slots.get? x = t.settled h D x) ∧
        (∀ t', t.Drained [h] t' → ∀ x, t'.slots.get? x = t.settled h D x) ∧
        ∀ u : Table O, t.Alike u → (t.release h).1.Alike (u.release h).1 := by
  obtain ⟨D, hD, hx⟩ := (release_drained t h).least ht
  refine ⟨?_, (release_drained t h).component, D, hD, hx, ?_, ?_⟩
  · obtain ⟨s, hs⟩ := live_iff.mp hl
    have hn := isNull_of_some ht.null hs
    obtain ⟨more, hm⟩ := release_calls t h
    rw [hm]
    by_cases h1 : s.count ≤ 1
    · rw [releaseOnce_last hn hs h1]
      rfl
    · rw [releaseOnce_kept hn hs h1]
      rfl
  · intro t' d
    obtain ⟨E, hE, hy⟩ := d.least ht
    rwa [hE.unique hD] at hy
  · intro u a x
    obtain ⟨E, hE, hy⟩ := (release_drained u h).least (a.counted ht)
    have hE' : IsLeast {D | t.Closed h D} E := by
      have he : {D | u.Closed h D} = {D | t.Closed h D} := Set.ext fun _ => a.closed
      rwa [he] at hE
    rw [hx, hy, hE'.unique hD]
    exact a.settled h D x

def ring : Table Bench.Node where
  component := "Test"
  slots := (Handle.Map.empty.insert ⟨1⟩ ⟨1, 1, ⟨⟨1⟩, [⟨2⟩, Handle.null, ⟨2⟩, ⟨9⟩]⟩, none⟩).insert ⟨2⟩
    ⟨2, 2, ⟨⟨1⟩, [⟨1⟩]⟩, none⟩

theorem counted_ring : ring.Counted where
  null := by decide
  pos x s hs := by
    rw [ring, Handle.Map.get?_insert, Handle.Map.get?_insert] at hs
    split at hs
    · cases hs
      decide
    · split at hs
      · cases hs
        decide
      · simp at hs

theorem release_ring : ring.Counted ∧ ring.live ⟨1⟩ = true ∧
    Release.answer (ring.release ⟨1⟩).2 = .ok () ∧
    ∃ D, IsLeast {D | ring.Closed ⟨1⟩ D} D ∧
      ∀ x, (ring.release ⟨1⟩).1.slots.get? x = ring.settled ⟨1⟩ D x := by
  have hl : ring.live ⟨1⟩ = true := by decide
  obtain ⟨ha, -, D, hD, hx, -⟩ := release_least_fixpoint counted_ring hl
  exact ⟨counted_ring, hl, ha, D, hD, hx⟩

end Boundary.Table
