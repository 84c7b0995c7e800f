/-
  Boundary.Proofs.Iterator.Snapshot — the list an iterator was made for, and its position.

  Handles are not issued twice, so an object that is still there under its handle is the one
  that was there when it was looked at (`Later`); where none is made, it is so for any handle
  (`Fewer`). What it holds changes in two ways alone:
  an animal is added to a zoo, or an iterator moves on. So an iterator keeps its list, and
  the animals in it stay what they were (`Snap`).

  Proved:
  - every call but those that move the iterator on keeps its list, its position and what its
    animals were (`snap_upheld`);
  - a call that moves it on and succeeds moves it on by one, up to the end of the list, and
    one that fails leaves it where it was (`next_moves`); so it never moves back
    (`ahead_upheld`).
-/
import Boundary.Proofs.Course.Loss
import Boundary.Proofs.Host.Instance
import Boundary.Proofs.Intact.Exports
import Boundary.Proofs.Session.Lifetimes

namespace Boundary

open Exchange (Cell)

variable {ω O ρ : Type} {s s' s'' : Process ω} {x : Handle}

/-! ## Later on -/

/-- Under a handle that was issued before there is the zoo object that was there, if any. -/
structure Later (s s' : Process ω) : Prop where
  issued : s.shared.issued ≤ s'.shared.issued
  objects : s'.shared.issued < handleLimit → ∀ x o, x.raw.toNat ≤ s.shared.issued →
    s'.zoo.get? x = some o → s.zoo.get? x = some o
  registry : s'.registry = s.registry
  injected : s'.injected = s.injected
  outer : s'.outer = s.outer

theorem Later.trans (h : Later s s') (h' : Later s' s'') : Later s s'' where
  issued := h.issued.trans h'.issued
  objects hb x o hx ho := h.objects (Nat.lt_of_le_of_lt h'.issued hb) x o hx
    (h'.objects hb x o (hx.trans h.issued) ho)
  registry := h'.registry.trans h.registry
  injected := h'.injected.trans h.injected
  outer := h'.outer.trans h.outer

structure Fewer (s s' : Process ω) : Prop where
  issued : s.shared.issued ≤ s'.shared.issued
  objects : ∀ x o, s'.zoo.get? x = some o → s.zoo.get? x = some o
  registry : s'.registry = s.registry
  injected : s'.injected = s.injected
  outer : s'.outer = s.outer

theorem Fewer.trans (h : Fewer s s') (h' : Fewer s' s'') : Fewer s s'' where
  issued := h.issued.trans h'.issued
  objects x o ho := h.objects x o (h'.objects x o ho)
  registry := h'.registry.trans h.registry
  injected := h'.injected.trans h.injected
  outer := h'.outer.trans h.outer

theorem Fewer.later (h : Fewer s s') : Later s s' :=
  ⟨h.issued, fun _ x o _ => h.objects x o, h.registry, h.injected, h.outer⟩

/-! ## Tables -/

namespace Table

theorem live_iff_get? {t : Table O} {x : Handle} : t.live x = true ↔ ∃ o, t.get? x = some o := by
  rw [live_iff]
  refine ⟨fun ⟨slot, h⟩ => ⟨slot.object, by rw [get?, h, Option.map_some]⟩, fun ⟨o, h⟩ => ?_⟩
  obtain ⟨slot, hslot, -⟩ := Option.map_eq_some_iff.mp h
  exact ⟨slot, hslot⟩

/-! What the books say of an object that is there. -/

namespace Kept

variable [Resource O] [Layered O] {name : String} {f : Handle → Nat} {issued : Nat}
  {j : List Note} {t : Table O} {x y : Handle} {o : O} (k : t.Kept name f issued j)
  (h : t.get? x = some o)
include k h

theorem get : t.get x = .ok o := by
  obtain ⟨slot, hslot, -⟩ := Option.map_eq_some_iff.mp h
  exact get_some (k.isNull hslot) h

theorem raw_le : x.raw.toNat ≤ issued := by
  obtain ⟨slot, hslot, -⟩ := Option.map_eq_some_iff.mp h
  exact (k.handle x slot hslot).2.1

theorem counted : ∃ n, t.count? x = some n ∧ 1 ≤ n.toNat := by
  obtain ⟨slot, hslot, -⟩ := Option.map_eq_some_iff.mp h
  exact ⟨slot.count, by rw [count?, hslot, Option.map_some], k.pos x slot hslot⟩

/-- What a live object owns is alive, and owns nothing itself. -/
theorem owned_leaf (hy : y ∈ Resource.owned o) : ∃ o', t.get? y = some o' ∧ Layered.leaf o' := by
  obtain ⟨slot, hslot, rfl⟩ := Option.map_eq_some_iff.mp h
  obtain ⟨b, hb, hleaf⟩ := k.leaves x slot hslot y hy
  exact ⟨b.object, Option.map_eq_some_iff.mpr ⟨b, hb, rfl⟩, hleaf⟩

end Kept

end Table

/-! ## Stores -/

structure Berth (p : Part (Process ω) O) : Prop where
  view_issued : ∀ s, (p.view s).shared.issued = s.shared.issued
  later : ∀ {s st}, s.shared.issued ≤ st.shared.issued →
    (st.shared.issued < handleLimit → ∀ x o, x.raw.toNat ≤ s.shared.issued →
      st.table.get? x = some o → (p.view s).table.get? x = some o) → Later s (p.put st s)
  fewer : ∀ {s st}, s.shared.issued ≤ st.shared.issued →
    (∀ x o, st.table.get? x = some o → (p.view s).table.get? x = some o) → Fewer s (p.put st s)

theorem zooBerth : Berth (Process.zooPart (ω := ω)) where
  view_issued _ := rfl
  later hi ho := ⟨hi, ho, rfl, rfl, rfl⟩
  fewer hi ho := ⟨hi, ho, rfl, rfl, rfl⟩

theorem calculatorBerth : Berth (Process.calculatorPart (ω := ω)) where
  view_issued _ := rfl
  later hi _ := ⟨hi, fun _ _ _ _ h => h, rfl, rfl, rfl⟩
  fewer hi _ := ⟨hi, fun _ _ h => h, rfl, rfl, rfl⟩

theorem primesBerth : Berth (Process.primesPart (ω := ω)) where
  view_issued _ := rfl
  later hi _ := ⟨hi, fun _ _ _ _ h => h, rfl, rfl, rfl⟩
  fewer hi _ := ⟨hi, fun _ _ h => h, rfl, rfl, rfl⟩

namespace Berth

variable {p : Part (Process ω) O} (berth : Berth p)
include berth

theorem allowsLoss : AllowsLoss p Fewer where
  refl _ := ⟨le_rfl, fun _ _ h => h, rfl, rfl, rfl⟩
  trans := Fewer.trans
  put hi ho := berth.fewer (hi.trans (berth.view_issued _)).ge ho

theorem fail (x : Handle) (why : Fault) (s : Process ω) : Fewer s (p.fail x why s).2 :=
  berth.allowsLoss.fail x why s

theorem outlastsRefs [Resource O] {P : Process ω → Prop} (hP : ∀ {s s'}, P s → Fewer s s' → P s') :
    OutlastsRefs p P :=
  berth.allowsLoss.outlastsRefs hP

theorem insert [Resource O] (o : O) (s : Process ω) : Later s (p.insert o s).2 := by
  have hi := berth.view_issued s
  refine berth.later ?_ fun hb x o' hx ho => ?_
  · show s.shared.issued ≤ (p.view s).shared.issued + 1
    omega
  · have hraw := Shared.nextHandle_raw (s := (p.view s).shared) (Nat.lt_of_succ_lt hb)
    have hne : (p.view s).shared.nextHandle ≠ x := by
      rintro rfl
      omega
    rwa [Table.get?_insert_ne _ hne] at ho

theorem outlastsInserts [Resource O] {P : Process ω → Prop} (hP : ∀ {s s'}, P s → Later s s' → P s') :
    OutlastsInserts p P where
  toOutlastsRefs := berth.outlastsRefs fun h l => hP h l.later
  insert o s h := hP h (berth.insert o s)

end Berth

/-- Whatever happens in another component happens beside the zoos. -/
theorem outlastsInserts_aside {O : Type} [Resource O] {p : Part (Process ω) O} {P : Process ω → Prop}
    (hview : ∀ s, (p.view s).shared.issued = s.shared.issued)
    (hput : ∀ {s st}, s.shared.issued ≤ st.shared.issued → Fewer s (p.put st s))
    (hP : ∀ {s s'}, P s → Fewer s s' → P s') : OutlastsInserts p P where
  insert o s h := hP h (hput (by
    show s.shared.issued ≤ (p.view s).shared.issued + 1
    have := hview s
    omega))
  acquire x s h := by
    cases ha : (p.view s).table.acquire x with
    | error why => rwa [Part.acquire_error ha]
    | ok t =>
      rw [Part.acquire_ok ha]
      exact hP h (hput (hview s).ge)
  release x s h := hP h (hput (hview s).ge)
  lost x why s h := hP h (hput (hview s).ge)

/-! ## What is known of zoo objects -/

structure Thinned (s s' : Process ω) : Prop where
  issued : s.shared.issued ≤ s'.shared.issued
  objects : ∀ x o, s'.zoo.get? x = some o → s.zoo.get? x = some o

theorem Fewer.thinned (h : Fewer s s') : Thinned s s' := ⟨h.issued, h.objects⟩

theorem Thinned.same (hi : s'.shared.issued = s.shared.issued) (hz : s'.zoo = s.zoo) :
    Thinned s s' :=
  ⟨hi.ge, fun _ _ h => hz ▸ h⟩

theorem GuardedWith.fewer {J : ω → Prop} (h : GuardedWith J s) (l : Fewer s s') : GuardedWith J s' :=
  h.same l.outer l.registry l.injected

/-- What is known of zoo objects outlasts all that makes or changes none of them. -/
theorem OutsideOnly.outlastsUpdates {J : ω → Prop} {out : Outside ω} {P : Process ω → Prop}
    (q : OutsideOnly J out) (hguarded : ∀ {s}, P s → GuardedWith J s)
    (hP : ∀ {s s'}, P s → Thinned s s' → GuardedWith J s' → P s') :
    OutlastsUpdates out Address.Native P := by
  have hfewer {s s' : Process ω} (h : P s) (l : Fewer s s') : P s' :=
    hP h l.thinned ((hguarded h).fewer l)
  have houter {s : Process ω} (h : P s) {w : ω} (hw : J w) : P { s with outer := w } :=
    hP h (.same rfl rfl) ⟨hw, (hguarded h).reserved, (hguarded h).injected⟩
  refine ⟨zooBerth.outlastsRefs hfewer, outlastsInserts_aside (fun _ => rfl)
    (fun hi => ⟨hi, fun _ _ h => h, rfl, rfl, rfl⟩) hfewer, outlastsInserts_aside (fun _ => rfl)
    (fun hi => ⟨hi, fun _ _ h => h, rfl, rfl, rfl⟩) hfewer,
    fun x f s h => ?_, fun x f s h => ?_, fun x n f s h => ?_, fun c address s h => ?_,
    fun ns name address s h => ?_, fun a s h ha => (hguarded h).injected a ha,
    fun a v s ha h => ?_, fun a x s h => ?_, fun f p s h => ?_⟩
  · exact hfewer h ⟨le_rfl, fun _ _ h => h, rfl, rfl, rfl⟩
  · exact hfewer h ⟨le_rfl, fun _ _ h => h, rfl, rfl, rfl⟩
  · exact hfewer h ⟨le_rfl, fun _ _ h => h, rfl, rfl, rfl⟩
  · unfold entryPoint
    dsimp only
    split
    · exact h
    · have hr := (Registry.Guarded.install (hguarded h).reserved c).1
      exact hP h (.same rfl rfl) ⟨(hguarded h).outer, hr, (hguarded h).injected⟩
  · have hr := (Registry.Guarded.register (hguarded h).reserved ns name address).1
    exact hP h (.same rfl rfl) ⟨(hguarded h).outer, hr, (hguarded h).injected⟩
  · exact hP h (.same rfl rfl)
      ⟨(hguarded h).outer, (hguarded h).reserved, fun b hb => Option.some.inj hb ▸ ha⟩
  · obtain ⟨w, hw, hs⟩ := q.apply a x s (hguarded h).outer
    exact hs ▸ houter h hw
  · obtain ⟨w, hw, hs⟩ := q.progress f p s (hguarded h).outer
    exact hs ▸ houter h hw

theorem Component.fail_fewer (c : Component) (x : Handle) (why : Fault) (s : Process ω) :
    Fewer s (c.fail x why s).2 := by
  cases c with
  | zoo => exact zooBerth.fail x why s
  | calculator => exact calculatorBerth.fail x why s
  | primes => exact primesBerth.fail x why s

/-- So a call keeps it that does nothing to zoo objects but what keeps it. -/
theorem OutsideOnly.performs {J : ω → Prop} {out : Outside ω} {P : Process ω → Prop}
    (q : OutsideOnly J out) (hguarded : ∀ {s}, P s → GuardedWith J s)
    (hP : ∀ {s s'}, P s → Thinned s s' → GuardedWith J s' → P s') {c : Call ρ} (spares : c.Spares P)
    (hover : ∀ a, c.handedOver = some a → a.Native) :
    Ends P (perform out (out.reach .none) c) fun _ => P := by
  have hfewer {s s' : Process ω} (h : P s) (l : Fewer s s') : P s' :=
    hP h l.thinned ((hguarded h).fewer l)
  refine (q.outlastsUpdates hguarded hP).keeps (fun _ => ?_) spares hover
    fun site _ why s h => hfewer h (site.1.fail_fewer site.2 why s)
  exact Calculator.native_inner _ (fun _ h => (hguarded h).reserved)
    fun why s h => hfewer h (primesBerth.fail _ why s)

/-! ## What is known of an iterator -/

/-- The handle was issued, and what is still there under it meets `A`. -/
def Process.Pinned (x : Handle) (A : Zoo.Object → Prop) (s : Process ω) : Prop :=
  s.shared.issued < handleLimit →
    x.raw.toNat ≤ s.shared.issued ∧ ∀ o, s.zoo.get? x = some o → A o

theorem Process.Pinned.later {A : Zoo.Object → Prop} (h : s.Pinned x A) (l : Later s s') :
    s'.Pinned x A := by
  intro hb
  obtain ⟨hx, ho⟩ := h (Nat.lt_of_le_of_lt l.issued hb)
  exact ⟨hx.trans l.issued, fun o hs => ho o (l.objects hb x o hx hs)⟩

theorem Process.Pinned.thinned {A : Zoo.Object → Prop} (h : s.Pinned x A) (l : Thinned s s') :
    s'.Pinned x A := by
  intro hb
  obtain ⟨hx, ho⟩ := h (Nat.lt_of_le_of_lt l.issued hb)
  exact ⟨hx.trans l.issued, fun o hs => ho o (l.objects x o hs)⟩

/-- A new object is the only one under its handle. -/
theorem Process.pinned_insert (o : Zoo.Object) (s : Process ω) :
    (Process.zooPart.insert o s).2.Pinned s.shared.nextHandle (· = o) := by
  intro (hb : s.shared.issued + 1 < handleLimit)
  refine ⟨(Shared.nextHandle_raw (Nat.lt_of_succ_lt hb)).le, fun o' ho => ?_⟩
  have hget := s.zoo.get?_insert s.shared.nextHandle (s.shared.issued + 1) o s.shared.nextHandle
  rw [if_pos rfl] at hget
  exact Option.some.inj (ho.symm.trans hget)

theorem Process.Pinned.update {A A' : Zoo.Object → Prop} (h : s.Pinned x A) {y : Handle}
    {f : Zoo.Object → Zoo.Object}
    (hf : s.shared.issued < handleLimit → ∀ o, A o → A' (if y = x then f o else o)) :
    (Process.zooPart.update y f s).2.Pinned x A' := by
  intro (hlimit : s.shared.issued < handleLimit)
  obtain ⟨hx, ho⟩ := h hlimit
  refine ⟨hx, fun o (hs : (s.zoo.update y f).get? x = some o) => ?_⟩
  rw [Table.object_update] at hs
  split at hs
  · next e =>
    obtain ⟨b, hb, rfl⟩ := Option.map_eq_some_iff.mp hs
    simpa only [if_pos e] using hf hlimit b (ho b hb)
  · next e => simpa only [if_neg e] using hf hlimit o (ho o hs)

/-- The animals of a list are what they were, those that are still there. -/
structure Listed (animals : List Handle) (was : Handle → Option Zoo.Object) (s : Process ω) :
    Prop where
  guarded : s.registry.Guarded
  injected : ∀ a, s.injected = some a → a.Native
  pinned : ∀ x ∈ animals, s.Pinned x fun o => was x = some o ∧ Layered.leaf o

/-- With the animals listed, the iterator over them has come to the position `k`, or to the end. -/
structure Snap (it : Handle) (animals : List Handle) (was : Handle → Option Zoo.Object) (k : Nat)
    (s : Process ω) : Prop extends Listed animals was s where
  iterator : s.Pinned it (· = .iterator animals (min k animals.length))

section

variable {it : Handle} {animals : List Handle} {was : Handle → Option Zoo.Object} {k : Nat}
  {J : ω → Prop} {out : Outside ω}

theorem Listed.later (h : Listed animals was s) (l : Later s s') : Listed animals was s' where
  guarded := l.registry ▸ h.guarded
  injected := l.injected ▸ h.injected
  pinned x hx := (h.pinned x hx).later l

theorem Snap.later (h : Snap it animals was k s) (l : Later s s') : Snap it animals was k s' :=
  ⟨h.toListed.later l, h.iterator.later l⟩

theorem leaf_pushAnimal {o : Zoo.Object} (h : Layered.leaf o) (a : Handle) :
    Zoo.pushAnimal a o = o := by
  obtain ⟨species, name, rfl⟩ := h
  rfl

theorem leaf_stays {o : Zoo.Object} (h : Layered.leaf o) : Zoo.stepOn o = o := by
  obtain ⟨species, name, rfl⟩ := h
  rfl

/-- A change that no animal notices. -/
theorem Listed.update (h : Listed animals was s) (y : Handle) {f : Zoo.Object → Zoo.Object}
    (hf : ∀ o, Layered.leaf o → f o = o) :
    Listed animals was (Process.zooPart.update y f s).2 where
  guarded := h.guarded
  injected := h.injected
  pinned x hx := (h.pinned x hx).update fun _ o ho => by rwa [hf o ho.2, ite_self]

/-! ## Other calls -/

abbrev Placed (it : Handle) (animals : List Handle) (was : Handle → Option Zoo.Object)
    (J : ω → Prop) (k : Nat) (s : Process ω) : Prop :=
  J s.outer ∧ Snap it animals was k s

theorem Placed.later (h : Placed it animals was J k s) (l : Later s s') :
    Placed it animals was J k s' :=
  ⟨l.outer ▸ h.1, h.2.later l⟩

theorem Placed.note (h : Placed it animals was J k s) (n : Note) :
    Placed it animals was J k (Journal.note n s) :=
  h.later ⟨le_rfl, fun _ _ _ _ h => h, rfl, rfl, rfl⟩

theorem placed_guardedWith (h : Placed it animals was J k s) : GuardedWith J s :=
  ⟨h.1, h.2.guarded, h.2.injected⟩

theorem Placed.thinned (h : Placed it animals was J k s) (l : Thinned s s')
    (g : GuardedWith J s') : Placed it animals was J k s' :=
  ⟨g.outer, ⟨g.reserved, g.injected, fun x hx => (h.2.pinned x hx).thinned l⟩,
    h.2.iterator.thinned l⟩

/-- An animal that is added to a zoo does not matter to it. -/
theorem Placed.push (h : Placed it animals was J k s) (y a : Handle) :
    Placed it animals was J k (Process.zooPart.update y (Zoo.pushAnimal a) s).2 := by
  refine ⟨h.1, h.2.toListed.update y fun _ ho => leaf_pushAnimal ho a, ?_⟩
  exact h.2.iterator.update fun _ o ho => by subst ho; split <;> rfl

/-- A call is in turn for all other iterators if it does not move this one on. -/
theorem Call.inTurn_ne {c : Call ρ} (hc : c.advances ≠ some it) : c.InTurn (· ≠ it) := by
  unfold Call.InTurn
  cases h : c.advances with
  | none => trivial
  | some y => exact fun e => hc (e ▸ h)

theorem perform_snap (q : OutsideOnly J out) {c : Call ρ}
    (hover : ∀ a, c.handedOver = some a → a.Native) (hturn : c.InTurn (· ≠ it)) :
    Ends (Placed it animals was J k) (perform out (out.reach .none) c)
      fun _ => Placed it animals was J k := by
  refine q.performs placed_guardedWith Placed.thinned
    ⟨fun o _ => (zooBerth.outlastsInserts Placed.later).insert o, fun y _ a s h => h.push y a,
      fun y hy s h => ?_⟩ hover
  have hne : y ≠ it := by
    rw [Call.InTurn, hy] at hturn
    exact hturn
  refine ⟨h.1, h.2.toListed.update y fun _ ho => leaf_stays ho, ?_⟩
  exact h.2.iterator.update fun _ o ho => by rw [if_neg hne, ho]

/-- The list, the position and the animals are kept by all calls but those that move the
    iterator on. -/
theorem snap_upheld (q : OutsideOnly J out) :
    Upheld out (.turns (· ≠ it)) fun _ => Placed it animals was J k :=
  Host.upheld_const (fun n _ h => h.note n) (fun _ h => h.2.guarded)
    fun _ hover hmay => perform_snap q hover hmay.inTurn

/-! ## Moving on -/

/-- From its position the iterator moves on by one. -/
theorem Snap.step (h : Snap it animals was k s)
    (hk : s.shared.issued < handleLimit → k < animals.length) :
    Snap it animals was (k + 1) (Process.zooPart.update it Zoo.stepOn s).2 := by
  refine ⟨h.toListed.update it fun _ ho => leaf_stays ho, h.iterator.update fun hb o ho => ?_⟩
  rw [if_pos rfl, ho, Nat.min_eq_left (Nat.le_of_lt (hk hb)), Nat.min_eq_left (hk hb)]
  rfl

/-- At the end of the list it stays. -/
theorem Snap.over (h : Snap it animals was k s)
    (hk : s.shared.issued < handleLimit → animals.length ≤ k) :
    Snap it animals was (k + 1) s := by
  refine ⟨h.toListed, fun hb => ?_⟩
  rw [Nat.min_eq_right (Nat.le_succ_of_le (hk hb)), ← Nat.min_eq_right (hk hb)]
  exact h.iterator hb

structure Seen (it : Handle) (animals : List Handle) (was : Handle → Option Zoo.Object)
    (J : ω → Prop) (k : Nat) (o : Zoo.Object) (s : Process ω) : Prop where
  placed : Placed it animals was J k s
  read : s.shared.issued < handleLimit → o = .iterator animals (min k animals.length)

theorem Seen.later {o : Zoo.Object} (h : Seen it animals was J k o s) (l : Later s s') :
    Seen it animals was J k o s' :=
  ⟨h.placed.later l, fun hb => h.read (Nat.lt_of_le_of_lt l.issued hb)⟩

theorem read_seen :
    Does (Placed (ω := ω) it animals was J k) (Zoo.part.get it) (Seen it animals was J k)
      fun why s => why.code ≠ Status.ok ∧ Placed it animals was J k s :=
  (Zoo.part.get_finds it).post fun o _ h => ⟨h.1, fun hb => (h.1.2.iterator hb).2 o h.2⟩

/-- The iterator moves on by one, or it fails and stays. At the end it does both. -/
theorem advance_moves :
    Does (Placed (ω := ω) it animals was J k) (Zoo.advance it)
      (fun next s => Placed it animals was J (k + 1) s ∧
        (next = none → Placed it animals was J k s))
      fun why s => why.code ≠ Status.ok ∧ Placed it animals was J k s := by
  refine .bind read_seen fun o => ?_
  cases o with
  | iterator animals' position =>
    dsimp only
    split
    · next hx =>
      refine .pure fun s h => ⟨⟨h.placed.1, h.placed.2.over fun hb => ?_⟩, fun _ => h.placed⟩
      obtain ⟨rfl, rfl⟩ := Zoo.Object.iterator.inj (h.read hb)
      have := List.getElem?_eq_none_iff.mp hx
      omega
    · next x hx =>
      refine .bind ((Zoo.fat_fares x).failing fun _ _ h => ⟨h.1, h.2.placed⟩) fun animal => ?_
      refine .bind (((zooBerth.outlastsInserts Seen.later).acquire_fares x).failing
        fun _ _ h => ⟨h.1, h.2.placed⟩) fun _ => ?_
      refine .bind (Q := fun _ => Placed it animals was J (k + 1)) (fun s h => ?_)
        fun _ => .pure fun _ h => ⟨h, fun e => by cases e⟩
      refine ⟨h.placed.1, h.placed.2.step fun hb => ?_⟩
      obtain ⟨rfl, rfl⟩ := Zoo.Object.iterator.inj (h.read hb)
      exact lt_of_not_ge fun hle => by simp [Nat.min_eq_right hle] at hx
  | _ => exact .throw fun _ h => ⟨by decide, h.placed⟩

/-- What a call that moves the iterator on does is what moving on does. -/
theorem next_told {P R E : Process ω → Prop} {c : Call ρ} (hc : c.advances = some it)
    (hkeep : ∀ s, P s → E s) (hfail : ∀ why s, E s → E (Zoo.part.fail it why s).2)
    (hop : Does P (Zoo.advance it) (fun next s => R s ∧ (next = none → E s))
      fun why s => why.code ≠ Status.ok ∧ E s) (via : Invoker (Process ω)) :
    Ends P (perform out via c) fun r s => if r.1 = Status.ok then R s else E s := by
  have hrequire {α : Type} (cell : Cell α) : Does P (liftM (Fixed.require cell) : Op (Process ω) _)
      (fun _ => P) fun why s => why.code ≠ Status.ok ∧ E s :=
    (Fixed.require_fares cell).failing fun _ s h => ⟨h.1, hkeep s h.2⟩
  cases c with
  | nextAnimal h animal hasAnimal =>
    obtain rfl : h = it := Option.some.inj hc
    refine Part.guard_told (Q := fun _ => R) (.bind (hrequire animal) fun _ =>
      .bind (hrequire hasAnimal) fun _ => .bind hop fun next => ?_) hfail
    cases next <;> exact .pure fun _ h => h.1
  | nextMandatoryAnimal h animal =>
    obtain rfl : h = it := Option.some.inj hc
    refine Part.guard_told (Q := fun _ => R)
      (.bind (hrequire animal) fun _ => .bind hop fun next => ?_) hfail
    cases next with
    | some next => exact .pure fun _ h => h.1
    | none => exact .throw fun _ h => ⟨by decide, h.2 rfl⟩
  | _ => cases hc

/-- A call that moves the iterator on and succeeds has moved it on by one; one that fails has
    left it where it was. -/
theorem next_moves {c : Call ρ} (hc : c.advances = some it) (via : Invoker (Process ω)) :
    Ends (Placed it animals was J k) (perform out via c) fun r s =>
      if r.1 = Status.ok then Placed it animals was J (k + 1) s else Placed it animals was J k s :=
  next_told hc (fun _ h => h) (fun why _ h => h.later (zooBerth.fail it why _).later) advance_moves via

/-- Where there is no object a call that would move it on fails. -/
theorem next_gone {c : Call ρ} (hc : c.advances = some it) (via : Invoker (Process ω))
    (hgone : ∀ o, s.zoo.get it ≠ .ok o) : (perform out via c s).1.1 ≠ Status.ok := by
  have hop : Does (fun s' => s' = s) (Zoo.advance it) (fun next _ => False ∧ (next = none → True))
      fun why _ => why.code ≠ Status.ok ∧ True := by
    refine .bind (Q := fun _ _ => False) (.of_run ?_) fun o => fun _ h => h.elim
    rintro s rfl
    cases hget : s.zoo.get it with
    | ok o => exact absurd hget (hgone o)
    | error why => exact .inr ⟨why, s, congrArg (·, s) hget, Table.get_code hget, trivial⟩
  have hcall : Ends (fun s' => s' = s) (perform out via c) fun r _ => r.1 ≠ Status.ok :=
    (next_told hc (fun _ _ => trivial) (fun _ _ _ => trivial) hop via).post fun r _ h hok => by
      rwa [if_pos hok] at h
  exact hcall s rfl

/-- There is no iterator under the null handle. -/
theorem next_null {c : Call ρ} (hc : c.advances = some it) (hn : it.isNull = true)
    (via : Invoker (Process ω)) (s : Process ω) : (perform out via c s).1.1 ≠ Status.ok := by
  refine next_gone hc via fun o h => ?_
  rw [Table.get, Table.hold, if_pos hn] at h
  cases h

def Ahead (it : Handle) (animals : List Handle) (was : Handle → Option Zoo.Object)
    (J : ω → Prop) (k : Nat) (s : Process ω) : Prop :=
  ∃ j, k ≤ j ∧ Placed it animals was J j s

/-- Whatever is done, it does not move back. -/
theorem ahead_upheld (q : OutsideOnly J out) :
    Upheld out .all fun _ => Ahead it animals was J k := by
  refine Host.upheld_const (fun n s ⟨j, hj, h⟩ => ⟨j, hj, h.note n⟩)
    (fun _ ⟨_, _, h⟩ => h.2.guarded) fun c hover _ => ?_
  rintro s ⟨j, hj, hs⟩
  suffices h : Ends (Placed it animals was J j) (perform out (out.reach .none) c)
      fun _ => Ahead it animals was J k from h s hs
  by_cases hc : c.advances = some it
  · refine (next_moves hc _).post fun r s h => ?_
    split at h
    · exact ⟨j + 1, Nat.le_succ_of_le hj, h⟩
    · exact ⟨j, hj, h⟩
  · exact (perform_snap q hover (Call.inTurn_ne hc)).post fun _ _ h => ⟨j, hj, h⟩

end

end Boundary
