/-
  Boundary.Proofs.Zoo.Iteration — iterations over a zoo, from the first animal to the last.

  An iteration makes an iterator, asks every animal that comes for its name and its tag and
  drops it again, and drops the iterator in the end (`identifyAll`). The iterator's references
  keep the animals alive all the while, and each animal that comes has one more for as long as
  it is looked at. So an iteration can fail for want of room in the counts alone.

  Proved: an iteration that comes to its end has seen the animals of the roll, in order
  (`identifyAll_reads`); it does come to its end if the counts have room (`Spare`).
-/
import Boundary.Proofs.Zoo.Contents

namespace Boundary

open Exchange (Cell Servable)

variable {ω : Type} {out : Outside ω} {s u : Process ω} {t : Table Zoo.Object}
  {it zoo x : Handle} {hs : List Handle} {roll : Zoo.Roll} {a : Zoo.Species × String} {φ : Prop}
  {k : Nat}

/-! ## Iterations -/

namespace Host.Zoo

def identify (out : Outside ω) (animal : Instance) : Exchange.Host (Process ω) (String × Tag) := do
  let name ← animalName out.invoker animal
  let tag ← animal.classTypeId out.invoker
  return (name, tag)

def visit (out : Outside ω) (animal : Instance) : Exchange.Host (Process ω) (String × Tag) := do
  let seen ← (identify out animal).outcome
  animal.drop out.invoker
  seen

def identifyNext (out : Outside ω) (iterator : Instance) :
    (limit : Nat) → Exchange.Host (Process ω) (List (String × Tag))
  | 0 => pure []
  | limit + 1 => do
    match ← nextAnimal out.invoker iterator with
    | none => return []
    | some animal => do
      let seen ← visit out animal
      return seen :: (← identifyNext out iterator limit)

/-- The names and tags of the animals that the zoo has now, at most `limit`. -/
def identifyAll (out : Outside ω) (zoo : Instance) (limit : Nat) :
    Exchange.Host (Process ω) (List (String × Tag)) := do
  let iterator ← iterate out.invoker zoo
  let seen ← (identifyNext out iterator limit).outcome
  iterator.drop out.invoker
  seen

end Host.Zoo

/-! ## Tables -/

namespace Table

variable {O : Type}

theorem refs_insert_ne (t : Table O) {x y : Handle} (h : x ≠ y) (n : Nat) (o : O) :
    (t.insert x n o).refs y = t.refs y := by
  rw [refs, refs, count?, count?, slots_insert, Handle.Map.get?_insert, if_neg h]

theorem count_room {t : Table O} {x : Handle} (h : t.refs x + 1 < UInt32.size) :
    t.count? x ≠ some 4294967295 := by
  intro hfull
  rw [refs, hfull] at h
  exact absurd h (by decide)

/-- One reference of several is given back. -/
theorem release_kept [Resource O] {t : Table O} {x : Handle} (hn : x.isNull = false)
    (h : 1 < t.refs x) :
    ∃ t', t.release x = (t', [⟨x, none, .kept⟩]) ∧ (∀ y, t'.get? y = t.get? y) ∧
      ∀ y, t.refs y = t'.refs y + if x = y then 1 else 0 := by
  cases hslot : t.slots.get? x with
  | none =>
    rw [refs_none hslot] at h
    omega
  | some slot =>
    rw [refs_some hslot] at h
    have hmany : ¬ slot.count ≤ 1 := fun hle => by
      have : slot.count.toNat ≤ 1 := hle
      omega
    have hcount : (slot.count - 1).toNat + 1 = slot.count.toNat := toNat_sub_one hmany
    refine ⟨t.setCount x (slot.count - 1), ?_, t.object_setCount x _, fun y => ?_⟩
    · rw [release, cascade, releaseOnce_kept hn hslot hmany]
      dsimp only
      rw [List.map_nil, List.nil_append, cascade]
      rfl
    · rw [refs, refs, count?, count?, get?_setCount]
      split
      · next hxy =>
        subst hxy
        rw [hslot]
        exact hcount.symm
      · rfl

end Table

theorem Does.exists {σ ε α ι : Type} {P : ι → σ → Prop} {op : ExceptT ε (StateM σ) α}
    {Q : α → σ → Prop} {E : ε → σ → Prop} (h : ∀ i, Does (P i) op Q E) :
    Does (fun s => ∃ i, P i s) op Q E :=
  fun s ⟨i, hi⟩ => h i s hi

/-! ## Iterators on their way -/

namespace Zoo

structure Underway (it : Handle) (hs : List Handle) (roll : Roll) (k : Nat) (t : Table Object) :
    Prop where
  iterator : t.get it = .ok (.iterator hs k)
  animals : Listing hs roll t

/-- Each animal has a reference, and as far as `φ` promises room for one more. -/
def Counts (φ : Prop) (hs : List Handle) (refs : Handle → Nat) : Prop :=
  ∀ x ∈ hs, 0 < refs x ∧ (φ → refs x + 1 < UInt32.size)

abbrev Touring (it : Handle) (hs : List Handle) (roll : Roll) (k : Nat) (φ : Prop)
    (s : Process ω) : Prop :=
  Underway it hs roll k s.zoo ∧ Counts φ hs s.zoo.refs

inductive Coming (it : Handle) (hs : List Handle) (roll : Roll) (k : Nat) (s : Process ω) :
    Option (Handle × Species × String) → Table Object → Prop where
  | animal {x : Handle} {a : Species × String} {u : Process ω} : hs[k]? = some x →
      roll[k]? = some a → s.zoo.get x = .ok (.animal a.1 a.2) → Handed it hs (k + 1) x s u →
      Coming it hs roll k s (some (x, a)) u.zoo
  | ended : hs.length ≤ k → Coming it hs roll k s none s.zoo

def fatOf (p : Handle × Species × String) : FatHandle := ⟨p.1, p.2.1.tag.value⟩

/-- Moving on fails for want of room alone. -/
theorem advance_comes (hw : Underway it hs roll k s.zoo)
    (hroom : φ → ∀ x ∈ hs, s.zoo.refs x + 1 < UInt32.size) :
    Does (fun s' => s' = s) (advance it)
      (fun r s' => ∃ next, r = next.map fatOf ∧ Coming it hs roll k s next s'.zoo)
      fun why _ => why.code ≠ Status.ok ∧ ¬ φ := by
  refine .of_run ?_
  rintro s rfl
  cases hx : hs[k]? with
  | none =>
    exact .inl ⟨none, s, advance_ended hw.iterator hx, none, rfl,
      .ended (List.getElem?_eq_none_iff.mp hx)⟩
  | some x =>
    obtain ⟨a, ha, ho⟩ := hw.animals.at hx
    cases hacquire : s.zoo.acquire x with
    | ok t =>
      refine .inl ⟨_, _, advance_hands hw.iterator hx ho hacquire, some (x, a), rfl, ?_⟩
      exact .animal hx ha ho (handed (Table.get_ok hw.iterator) hacquire)
    | error why =>
      refine .inr ⟨why, s, advance_full hw.iterator hx ho hacquire, Table.acquire_code hacquire,
        fun hφ => ?_⟩
      obtain ⟨t, ht⟩ := Table.acquire_room (Table.get_ok ho)
        (Table.count_room (hroom hφ x (List.mem_of_getElem? hx)))
      rw [ht] at hacquire
      cases hacquire

def cellsOf (next : Option (Handle × Species × String)) : Cell FatHandle × Cell Bool :=
  (some ((next.map fatOf).getD FatHandle.null), some next.isSome)

theorem nextAnimal_comes (hw : Underway it hs roll k s.zoo)
    (hroom : φ → ∀ x ∈ hs, s.zoo.refs x + 1 < UInt32.size) (animal : FatHandle)
    (hasAnimal : Bool) :
    Ends (fun s' => s' = s) (nextAnimal it (some animal) (some hasAnimal)) fun r s' =>
      if r.1 = Status.ok then ∃ next, r.2 = cellsOf next ∧ Coming it hs roll k s next s'.zoo
      else ¬ φ := by
  have hrequire {α : Type} (x : α) :
      Does (fun s' => s' = s) (liftM (Fixed.require (some x)) : Op (Process ω) Unit)
        (fun _ s' => s' = s) fun why _ => why.code ≠ Status.ok ∧ ¬ φ := fun _ h => h
  refine Part.guard_told (E := fun _ => ¬ φ) (Q := fun cells (s' : Process ω) => ∃ next,
    cells = cellsOf next ∧ Coming it hs roll k s next s'.zoo) ?_ fun _ _ h => h
  refine .bind (hrequire animal) fun _ => .bind (hrequire hasAnimal) fun _ => ?_
  refine .bind (advance_comes hw hroom) fun r => .exists fun next => .assume fun hr => ?_
  subst hr
  cases next with
  | some p => exact .pure fun s' h => ⟨some p, rfl, h⟩
  | none => exact .pure fun s' h => ⟨none, rfl, h⟩

theorem releaseInstance_run {t' : Table Object} (h : s.zoo.release x = (t', [⟨x, none, .kept⟩])) :
    ∃ u, Fixed.releaseInstance part x s = ((Status.ok, ()), u) ∧ u.zoo = t' := by
  have hanswer : (part.release x s).1 = .ok () := by
    show Release.answer (s.zoo.release x).2 = _
    rw [h]
    rfl
  refine ⟨(part.release x s).2, Part.guard_of_ok (Prod.ext hanswer rfl), ?_⟩
  show (s.zoo.release x).1 = t'
  rw [h]

theorem Coming.over {next : Option (Handle × Species × String)} (h : Coming it hs roll k s next t)
    (hnext : next = none) : hs.length ≤ k := by
  cases h with
  | animal _ _ _ _ => cases hnext
  | ended hle => exact hle

/-- The animal that came is that of the roll. -/
theorem Coming.shown {next : Option (Handle × Species × String)} (hw : Underway it hs roll k s.zoo)
    (h : Coming it hs roll k s next t) (hnext : next = some (x, a)) :
    roll[k]? = some a ∧ Underway it hs roll (k + 1) t ∧ t.get x = .ok (.animal a.1 a.2) := by
  cases h with
  | ended _ => cases hnext
  | @animal x' a' u hx ha ho handed =>
    obtain ⟨rfl, rfl⟩ := Prod.mk.inj (Option.some.inj hnext)
    -- an animal is not the iterator
    have hsame {y : Handle} {species : Species} {name : String}
        (hy : s.zoo.get y = .ok (.animal species name)) :
        u.zoo.get y = .ok (.animal species name) := by
      refine (Table.get_congr ((handed.objects y).resolve_left ?_)).trans hy
      rintro rfl
      rw [hw.iterator] at hy
      cases hy
    have hiterator : u.zoo.get it = .ok (.iterator hs (k + 1)) :=
      Table.get_some (Table.isNull_of_get hw.iterator) handed.moved
    exact ⟨ha, ⟨hiterator, hw.animals.imp fun _ _ hy => hsame hy⟩, hsame ho⟩

/-- It has a reference of its own. -/
theorem Coming.counts {next : Option (Handle × Species × String)}
    (hcounts : Counts φ hs s.zoo.refs) (h : Coming it hs roll k s next t)
    (hnext : next = some (x, a)) :
    0 < s.zoo.refs x ∧ ∀ y, t.refs y = s.zoo.refs y + if x = y then 1 else 0 := by
  cases h with
  | ended _ => cases hnext
  | @animal x' a' u hx ha ho handed =>
    obtain ⟨rfl, rfl⟩ := Prod.mk.inj (Option.some.inj hnext)
    refine ⟨(hcounts x' (List.mem_of_getElem? hx)).1, fun y => ?_⟩
    by_cases hy : x' = y
    · subst hy
      rw [if_pos rfl]
      exact handed.one
    · rw [if_neg hy]
      exact (handed.others .zoo y).resolve_left fun e => hy e.2.symm

end Zoo

/-! ## What the methods answer on the way -/

namespace Host

variable {i : Instance}

variable (out) in
/-- The next animal comes, or there is none; for want of room alone the method may fail. -/
theorem Zoo.nextAnimal_comes (hi : i.Home) (hc : i.library.component = .zoo)
    (hw : Boundary.Zoo.Underway i.handle hs roll k s.zoo)
    (hroom : φ → ∀ x ∈ hs, s.zoo.refs x + 1 < UInt32.size) :
    Does (fun s' => s' = s) (nextAnimal out.invoker i)
      (fun r s' => ∃ next, r = next.map (fun p => (⟨i.library, p.1⟩ : Instance)) ∧
        Boundary.Zoo.Coming i.handle hs roll k s next s'.zoo) fun _ _ => ¬ φ := by
  refine .bind ((Instance.checked_live hw.iterator).failing fun _ _ h => h.elim) fun h =>
    .assume fun hh => ?_
  subst hh
  refine .bind (Instance.ask_told hi (fun _ _ _ h => h) (Q := fun cells s' => ∃ next,
    cells = Boundary.Zoo.cellsOf next ∧ Boundary.Zoo.Coming i.handle hs roll k s next s'.zoo)
    (Boundary.Zoo.nextAnimal_comes hw hroom _ _)) fun cells => .exists fun next =>
    .assume fun hcells => ?_
  subst hcells
  cases next with
  | none => exact .ite (fun h => by cases h) fun _ => .pure fun s' h => ⟨none, rfl, h⟩
  | some p =>
    refine .ite (fun _ => ?_) fun h => absurd rfl h
    refine .bind ((resolve_fits (f := Boundary.Zoo.fatOf p) (fun _ _ _ h => h)
      (p.2.1.tag_fat p.1) (hc ▸ p.2.1.tag_known.2)).failing fun _ _ h => h.elim)
      fun animal => .assume fun hanimal => .pure fun s' h => ⟨some p, ?_, h⟩
    rw [hanimal]
    rfl

/-- An animal that is there is told by its name and its tag. -/
theorem Zoo.identify_reads (hi : i.Home) (hc : i.library.component = .zoo)
    (hx : t.get i.handle = .ok (.animal a.1 a.2)) (hname : Servable a.2)
    (hend : a.2.toList.getLast? ≠ some '\x00') :
    Does (fun s => s.zoo = t) (identify out i)
      (fun seen s => seen = (a.2, a.1.tag) ∧ s.zoo = t) fun _ _ => False := by
  refine .bind (animalName_reads out hi hx hname hend) fun name => .assume fun hn => ?_
  refine .bind (Instance.classTypeId_reads out hi hc hx) fun tag => .assume fun ht => ?_
  refine .pure fun s h => ⟨?_, h⟩
  rw [hn, ht]
  rfl

/-- A reference is given back, and it is not the last. -/
theorem Instance.drop_keeps {t' : Table Boundary.Zoo.Object} (hi : i.Home)
    (hc : i.library.component = .zoo) (hn : i.isNull = false)
    (hrelease : t.release i.handle = (t', [⟨i.handle, none, .kept⟩])) :
    Ends (fun s => s.zoo = t) (i.drop out.invoker) fun _ s => s.zoo = t' := by
  have hcall : Ends (fun s : Process ω => s.zoo = t)
      (perform out (out.reach .none) (.releaseInstance i.library.component i.handle)) fun r s =>
        if r.1 = Status.ok then s.zoo = t' else False := by
    rintro s rfl
    obtain ⟨u, hrun, hu⟩ := Boundary.Zoo.releaseInstance_run hrelease
    have hperform : perform out (out.reach .none) (.releaseInstance i.library.component i.handle) s
        = ((Status.ok, ()), u) := by
      rw [hc]
      exact hrun
    rw [hperform]
    exact if_pos rfl ▸ hu
  have hgive : Does (fun s : Process ω => s.zoo = t) (i.release out.invoker)
      (fun _ s => s.zoo = t') fun _ _ => False :=
    Instance.release_does hi (fun _ _ _ h => h) (fun _ _ _ h => h) hcall
      fun h => by simp [hn] at h
  refine .bind hgive fun r => ?_
  cases r with
  | ok _ => exact .pure fun _ h => h
  | error why => exact fun _ h => h.elim

/-! ## All animals, one after the other -/

variable (out) in
/-- The animal that came is looked at and dropped, and the iterator is at the next one. -/
theorem Zoo.visit_reads {refs : Handle → Nat} (hi : i.Home) (hc : i.library.component = .zoo)
    (hw : Boundary.Zoo.Underway it hs roll k t) (hx : t.get i.handle = .ok (.animal a.1 a.2))
    (hcounts : Boundary.Zoo.Counts φ hs refs) (hpos : 0 < refs i.handle)
    (hrefs : ∀ y, t.refs y = refs y + if i.handle = y then 1 else 0) (hname : Servable a.2)
    (hend : a.2.toList.getLast? ≠ some '\x00') :
    Does (fun s => s.zoo = t) (visit out i)
      (fun seen s => seen = (a.2, a.1.tag) ∧ Boundary.Zoo.Touring it hs roll k φ s)
      fun _ _ => False := by
  have hn : i.isNull = false := Table.isNull_of_get hx
  have hmany : 1 < t.refs i.handle := by
    rw [hrefs, if_pos rfl]
    omega
  obtain ⟨t', hrelease, hobject, hcount⟩ := Table.release_kept hn hmany
  have hsame : t'.refs = refs := funext fun y => Nat.add_right_cancel ((hcount y).symm.trans (hrefs y))
  refine .bind (outcome_does (identify_reads hi hc hx hname hend)) fun seen => ?_
  cases seen with
  | error why => exact fun _ h => h.elim
  | ok seen =>
    refine .assume fun hseen => .bind (.monadLift (Instance.drop_keeps hi hc hn hrelease))
      fun _ => .pure fun s h => ⟨hseen, ?_⟩
    subst h
    refine ⟨⟨(Table.get_congr (hobject it)).trans hw.iterator, hw.animals.imp fun y b hy => ?_⟩, ?_⟩
    · exact (Table.get_congr (hobject y)).trans hy
    · rwa [hsame]

def Zoo.entry (a : Boundary.Zoo.Species × String) : String × Tag := (a.2, a.1.tag)

variable (out) in
/-- From its position on the iterator serves what is left of the roll. -/
theorem Zoo.identifyNext_reads (hi : i.Home) (hc : i.library.component = .zoo)
    (hnames : ∀ a ∈ roll, Servable a.2 ∧ a.2.toList.getLast? ≠ some '\x00') (limit : Nat) :
    Does (Boundary.Zoo.Touring i.handle hs roll k φ) (identifyNext out i limit)
      (fun seen _ => seen = ((roll.drop k).map entry).take limit) fun _ _ => ¬ φ := by
  induction limit generalizing k with
  | zero => exact .pure fun _ _ => (List.take_zero).symm
  | succ limit ih =>
    rintro s ⟨hw, hcounts⟩
    refine Does.bind (nextAnimal_comes out hi hc hw fun hφ x hx => (hcounts x hx).2 hφ) (fun r =>
      .exists fun next => .assume fun hr => ?_) s rfl
    subst hr
    cases next with
    | none =>
      refine .pure fun s' hcome => ?_
      have hover : roll.length ≤ k := hw.animals.length ▸ hcome.over rfl
      rw [List.drop_of_length_le hover]
      rfl
    | some p =>
      intro s' hcome
      obtain ⟨hat, hw', hx⟩ := hcome.shown hw rfl
      obtain ⟨hpos, hrefs⟩ := hcome.counts hcounts rfl
      obtain ⟨hname, hend⟩ := hnames p.2 (List.mem_of_getElem? hat)
      have hvisit := visit_reads out (i := ⟨i.library, p.1⟩) hi hc hw' hx hcounts hpos
        hrefs hname hend
      refine Does.bind (hvisit.failing fun _ _ h => h.elim) (fun seen => .assume fun hseen =>
        .bind ih fun rest => .pure fun _ hrest => ?_) s' rfl
      obtain ⟨hk, hget⟩ := List.getElem?_eq_some_iff.mp hat
      rw [hseen, hrest, List.drop_eq_getElem_cons hk, hget]
      rfl

end Host

/-! ## The start -/

namespace Zoo

/-- There is room for the references of an iterator, and for one more to each animal. -/
def Spare (hs : List Handle) (refs : Handle → Nat) : Prop :=
  ∀ x ∈ hs, refs x + hs.count x + 1 < UInt32.size

structure Taken (t : Table Object) (issued : Nat) (taken : List Handle) (s : Process ω) : Prop where
  objects : ∀ y, s.zoo.get? y = t.get? y
  refs : ∀ y, s.zoo.refs y = t.refs y + taken.count y
  issued : s.shared.issued = issued

/-- As far as `φ` promises room all references are taken. -/
theorem acquireAll_takes {issued : Nat} (hlive : Listing hs roll t) (hroom : φ → Spare hs t.refs)
    (taken rest : List Handle) (hall : taken ++ rest = hs) :
    Does (Taken (ω := ω) t issued taken) (acquireAll taken rest) (fun _ => Taken t issued hs)
      fun why _ => why.code ≠ Status.ok ∧ ¬ φ := by
  induction rest generalizing taken with
  | nil =>
    rw [List.append_nil] at hall
    exact hall ▸ .pure fun _ h => h
  | cons x rest ih =>
    have hx : x ∈ hs := hall ▸ List.mem_append_right taken List.mem_cons_self
    have htake : Does (Taken (ω := ω) t issued taken) (part.acquire x)
        (fun _ => Taken t issued (taken ++ [x])) fun why _ => why.code ≠ Status.ok ∧ ¬ φ := by
      refine .of_run fun s h => ?_
      cases hacquire : s.zoo.acquire x with
      | ok t' =>
        refine .inl ⟨(), _, Part.acquire_ok hacquire, fun y => ?_, fun y => ?_, h.issued⟩
        · obtain ⟨slot, -, -, rfl⟩ := Table.acquire_ok hacquire
          exact (s.zoo.object_setCount x _ y).trans (h.objects y)
        · show t'.refs y = _
          rw [Table.refs_acquire hacquire, h.refs, List.count_append, Nat.add_assoc]
          by_cases hxy : x = y <;> simp [hxy]
      | error why =>
        refine .inr ⟨why, s, Part.acquire_error hacquire, Table.acquire_code hacquire, fun hφ => ?_⟩
        obtain ⟨species, name, ho⟩ := hlive.mem hx
        have hfits : s.zoo.refs x + 1 < UInt32.size := by
          have hspare := hroom hφ x hx
          rw [← hall, List.count_append, List.count_cons_self] at hspare
          rw [h.refs]
          omega
        obtain ⟨t', ht'⟩ := Table.acquire_room ((h.objects x).trans (Table.get_ok ho))
          (Table.count_room hfits)
        rw [ht'] at hacquire
        cases hacquire
    refine .bind htake.outcome fun r => ?_
    cases r with
    | ok _ => exact ih _ (by rw [List.append_assoc]; exact hall)
    | error why =>
      have outlastsRefs : OutlastsRefs (part (ω := ω)) fun _ => why.code ≠ Status.ok ∧ ¬ φ :=
        ⟨fun _ _ h => h, fun _ _ h => h, fun _ _ _ h => h⟩
      exact .bind ((outlastsRefs.rollBack_fares taken).failing fun _ _ h => ⟨h.1, h.2.2⟩) fun _ =>
        .throw fun _ h => h

def iteratorTag : Tag := Tag.ofName "Zoo::AnimalIterator"

theorem iteratorTag_known : iteratorTag.value ≠ 0 ∧
    (Host.Class.ofTag? .zoo iteratorTag).all Host.Class.animalIterator.accepts.contains = true := by
  decide +kernel

theorem tag_iterator (hs : List Handle) (k : Nat) :
    Resource.tag (Object.iterator hs k) = iteratorTag := rfl

/-- The new iterator is at the first of the animals, and holds a reference to each. -/
theorem insert_tours (hlive : Listing hs roll s.zoo) (hroom : φ → Spare hs s.zoo.refs)
    (hnull : s.shared.nextHandle.isNull = false) (hnew : s.zoo.get? s.shared.nextHandle = none)
    (h : Taken s.zoo s.shared.issued hs u) :
    Touring s.shared.nextHandle hs roll 0 φ (part.insert (.iterator hs 0) u).2 := by
  have hhandle : u.shared.nextHandle = s.shared.nextHandle := by
    rw [Shared.nextHandle, Shared.nextHandle, h.issued]
  have hget (y : Handle) : (part.insert (.iterator hs 0) u).2.zoo.get? y =
      if s.shared.nextHandle = y then some (.iterator hs 0) else s.zoo.get? y := by
    refine (u.zoo.get?_insert u.shared.nextHandle (u.shared.issued + 1) _ y).trans ?_
    rw [hhandle, h.objects]
  have hrefs {y : Handle} (hy : s.shared.nextHandle ≠ y) :
      (part.insert (.iterator hs 0) u).2.zoo.refs y = s.zoo.refs y + hs.count y := by
    refine (u.zoo.refs_insert_ne (x := u.shared.nextHandle) (hhandle ▸ hy) _ _).trans ?_
    exact h.refs y
  have hold {y : Handle} {species : Species} {name : String}
      (hy : s.zoo.get y = .ok (.animal species name)) : s.shared.nextHandle ≠ y := by
    rintro rfl
    simp [Table.get_ok hy] at hnew
  refine ⟨⟨Table.get_some hnull ((hget _).trans (if_pos rfl)), hlive.imp fun y a hy => ?_⟩,
    fun x hx => ?_⟩
  · exact (Table.get_congr ((hget y).trans (if_neg (hold hy)))).trans hy
  · obtain ⟨species, name, ho⟩ := hlive.mem hx
    have hcount := List.count_pos_iff.mpr hx
    rw [hrefs (hold ho)]
    exact ⟨by omega, fun hφ => hroom hφ x hx⟩

/-- An iterator is made if there is room for its references. -/
theorem iterator_tours (hz : Stocked zoo hs roll s.zoo) (hroom : φ → Spare hs s.zoo.refs)
    (hnull : s.shared.nextHandle.isNull = false) (hnew : s.zoo.get? s.shared.nextHandle = none)
    (cell : FatHandle) :
    Ends (fun s' => s' = s) (iterator zoo (some cell)) fun r s' =>
      if r.1 = Status.ok then r.2 = some ⟨s.shared.nextHandle, iteratorTag.value⟩ ∧
        Touring s.shared.nextHandle hs roll 0 φ s'
      else ¬ φ := by
  refine Part.guard_told (E := fun _ => ¬ φ) (Q := fun (cell : Cell FatHandle) s' =>
    cell = some ⟨s.shared.nextHandle, iteratorTag.value⟩ ∧
      Touring s.shared.nextHandle hs roll 0 φ s') ?_ fun _ _ h => h
  refine .bind (Q := fun _ s' => s' = s) (fun _ h => h) fun _ => ?_
  have hanimals : Does (fun s' => s' = s) (animalsOf (ω := ω) zoo)
      (fun hs' s' => hs' = hs ∧ Taken s.zoo s.shared.issued [] s')
      fun why _ => why.code ≠ Status.ok ∧ ¬ φ := by
    refine .of_run ?_
    rintro s rfl
    exact .inl ⟨hs, s, animalsOf_run hz.zoo, rfl, fun _ => rfl, fun _ => rfl, rfl⟩
  refine .bind hanimals fun hs' => .assume fun hhs => ?_
  subst hhs
  refine .bind (acquireAll_takes hz.animals hroom [] hs' rfl) fun _ => ?_
  refine .bind (Q := fun x s' => x = s.shared.nextHandle ∧
    Touring s.shared.nextHandle hs' roll 0 φ s') (fun u hu => ⟨?_, ?_⟩) fun x => .assume fun hx => ?_
  · exact congrArg (fun n => (⟨UInt64.ofNat (n + 1)⟩ : Handle)) hu.issued
  · exact insert_tours hz.animals hroom hnull hnew hu
  · subst hx
    refine .of_run fun u hu => .inl ⟨_, u, run_bind_ok (fat_run hu.1.iterator), ?_, hu⟩
    rw [tag_iterator]

end Zoo

namespace Host.Zoo

variable {i : Instance}

/-- An iteration that comes to its end has seen the animals of the roll, and with room for its
    references it does. -/
theorem identifyAll_reads (hi : i.Home) (hc : i.library.component = .zoo)
    (hz : Boundary.Zoo.Stocked i.handle hs roll s.zoo)
    (hroom : φ → Boundary.Zoo.Spare hs s.zoo.refs)
    (hnull : s.shared.nextHandle.isNull = false) (hnew : s.zoo.get? s.shared.nextHandle = none)
    (hnames : ∀ a ∈ roll, Servable a.2 ∧ a.2.toList.getLast? ≠ some '\x00') (limit : Nat) :
    Does (fun s' => s' = s) (identifyAll out i limit)
      (fun seen _ => seen = (roll.map entry).take limit) fun _ _ => ¬ φ := by
  have hiterate : Does (fun s' => s' = s) (iterate out.invoker i)
      (fun it s' => (it.library = i.library ∧ it.handle = s.shared.nextHandle) ∧
        Boundary.Zoo.Touring s.shared.nextHandle hs roll 0 φ s') fun _ _ => ¬ φ := by
    refine .bind ((Instance.checked_live hz.zoo).failing fun _ _ h => h.elim) fun h =>
      .assume fun hh => ?_
    subst hh
    refine .bind (Instance.ask_told hi (fun _ _ _ h => h) (Q := fun (cell : Cell FatHandle) s' =>
      cell = some ⟨s.shared.nextHandle, Boundary.Zoo.iteratorTag.value⟩ ∧
        Boundary.Zoo.Touring s.shared.nextHandle hs roll 0 φ s')
      (Boundary.Zoo.iterator_tours hz hroom hnull hnew _)) fun cell => .assume fun hcell => ?_
    obtain ⟨hne, hfits⟩ := Boundary.Zoo.iteratorTag_known
    rw [hcell, Option.getD_some]
    refine ((resolve_fits (f := ⟨s.shared.nextHandle, Boundary.Zoo.iteratorTag.value⟩)
      (fun _ _ _ h => h) (if_neg hne) (hc ▸ hfits)).failing fun _ _ h => h.elim).post
      fun it s' h => ⟨?_, h.2⟩
    rw [h.1]
    exact ⟨rfl, rfl⟩
  refine .bind hiterate fun it => .assume fun ⟨hlibrary, hhandle⟩ => ?_
  rw [← hhandle]
  have home : it.Home := by
    rw [Instance.Home, hlibrary]
    exact hi
  have hzoo : it.library.component = .zoo := hlibrary ▸ hc
  refine .bind (outcome_does (identifyNext_reads out home hzoo hnames limit))
    fun seen => .bind (Q := fun _ _ =>
    Either (fun seen _ => seen = (roll.map entry).take limit) (fun _ _ => ¬ φ) seen s)
    (.monadLift fun s' h => ?_) fun _ => ?_
  · cases seen <;> exact h
  · cases seen with
    | ok seen => exact .pure fun _ h => h
    | error why => exact .throw fun _ h => h

end Host.Zoo

end Boundary
