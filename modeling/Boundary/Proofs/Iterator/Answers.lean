/-
  Boundary.Proofs.Iterator.Answers — what an iterator is made for, and what it hands out.

  An iterator holds a reference to every animal of its list, so as long as it is alive they
  are: a call that moves it on can fail only for want of room in a count, or of memory to
  answer in.

  Proved:
  - a new iterator over a zoo is at the first of the animals that the zoo has then
    (`iterator_snaps`);
  - an iterator that is alive hands out the animal at its position, with the tag of what that
    animal was from the start and with one reference, and moves on by one; at the end of its
    list it says so, and stays there; a call that fails moves nothing (`Snap.serves`).
-/
import Boundary.Proofs.Iterator.Snapshot

namespace Boundary

open Exchange (Cell)

variable {ω : Type} {s u : Process ω} {it zoo a : Handle} {animals : List Handle}
  {was : Handle → Option Zoo.Object} {k : Nat} {J : ω → Prop} {e : Ledger}

/-! ## Making iterators -/

structure Source (zoo : Handle) (animals : List Handle) (was : Handle → Option Zoo.Object)
    (s : Process ω) : Prop extends Listed animals was s where
  source : s.Pinned zoo (· = .zoo animals)

/-- A zoo's animals are live, as long as the books balance. -/
theorem source_of_books (h : Balanced J e s) (hz : s.zoo.get? zoo = some (.zoo animals)) :
    Source zoo animals s.zoo.get? s := by
  refine ⟨⟨h.1.reserved, h.1.injected, fun x hx hb => ?_⟩, fun hb => ?_⟩
  · have kept := (h.2 hb).1.zoo
    obtain ⟨o, ho, hleaf⟩ := kept.owned_leaf hz hx
    refine ⟨kept.raw_le ho, fun o' ho' => ⟨ho', ?_⟩⟩
    obtain rfl := Option.some.inj (ho.symm.trans ho')
    exact hleaf
  · refine ⟨(h.2 hb).1.zoo.raw_le hz, fun o ho => ?_⟩
    rw [hz] at ho
    exact (Option.some.inj ho).symm

structure Opened (animals : List Handle) (was : Handle → Option Zoo.Object) (J : ω → Prop)
    (read : List Handle) (s : Process ω) : Prop extends Listed animals was s where
  outer : J s.outer
  same : s.shared.issued < handleLimit → read = animals

theorem Opened.later {read : List Handle} {s' : Process ω} (h : Opened animals was J read s)
    (l : Later s s') : Opened animals was J read s' :=
  ⟨h.toListed.later l, l.outer ▸ h.outer, fun hb => h.same (Nat.lt_of_le_of_lt l.issued hb)⟩

theorem animalsOf_opens :
    Does (fun s : Process ω => J s.outer ∧ Source zoo animals was s) (Zoo.animalsOf zoo)
      (Opened animals was J) fun why _ => why.code ≠ Status.ok := by
  refine .bind ((Zoo.part.get_finds zoo).failing fun _ _ h => h.1) fun o => ?_
  cases o with
  | zoo read =>
    refine .pure fun s h => ⟨h.1.2.toListed, h.1.1, fun hb => ?_⟩
    exact Zoo.Object.zoo.inj ((h.1.2.source hb).2 _ h.2)
  | _ => exact .throw fun _ _ => by decide

/-- The new iterator is the only object under its handle. -/
theorem insert_snaps {read : List Handle} (h : Opened animals was J read s) :
    Placed s.shared.nextHandle animals was J 0 (Zoo.part.insert (.iterator read 0) s).2 := by
  have later : Opened animals was J read (Zoo.part.insert (.iterator read 0) s).2 :=
    (zooBerth.outlastsInserts Opened.later).insert _ s h
  refine ⟨later.outer, later.toListed, fun (hb : s.shared.issued + 1 < handleLimit) => ?_⟩
  rw [Nat.zero_min, ← h.same (Nat.lt_of_succ_lt hb)]
  exact Process.pinned_insert (.iterator read 0) s hb

theorem fat_names {P : Process ω → Prop} (h : Handle) :
    Does P (Zoo.fat h) (fun f s => f.handle = h ∧ P s) fun why _ => why.code ≠ Status.ok :=
  .bind ((Fares.get Zoo.part h).failing fun _ _ h => h.1) fun _ => .pure fun _ hs => ⟨rfl, hs⟩

/-- A new iterator is at the first animal of the zoo. -/
theorem iterator_snaps (cell : Cell FatHandle) :
    Ends (fun s : Process ω => J s.outer ∧ Source zoo animals was s) (Zoo.iterator zoo cell)
      fun r s => r.1 = Status.ok → Placed (r.2.getD FatHandle.null).handle animals was J 0 s := by
  refine Part.guard_succeeds (Q := fun (cell : Cell FatHandle) s =>
    Placed (cell.getD FatHandle.null).handle animals was J 0 s) ?_
  refine .bind ((Fixed.require_fares cell).failing fun _ _ h => h.1) fun _ => ?_
  refine .bind animalsOf_opens fun read => ?_
  refine .bind ((Zoo.acquireAll_fares (zooBerth.outlastsInserts Opened.later).toOutlastsRefs [] read)
    |>.failing fun _ _ h => h.1) fun _ => ?_
  refine .bind (Q := fun h s => Placed h animals was J 0 s) (fun s h => insert_snaps h) fun h => ?_
  refine .bind (fat_names h) fun f => .pure fun s hs => ?_
  obtain ⟨rfl, hs⟩ := hs
  exact hs

/-! ## Handing out animals -/

structure Fit (it : Handle) (animals : List Handle) (s : Process ω) : Prop where
  live : (s.zoo.count? it).isSome = true
  room : ∀ x ∈ animals, s.zoo.count? x ≠ some 4294967295
  new : s.shared.issued < handleLimit

/-- From `s` to `u` one reference to `a` was handed out and the iterator moved on to the
    position `k`; everything else is as it was. -/
structure Handed (it : Handle) (animals : List Handle) (k : Nat) (a : Handle)
    (s u : Process ω) : Prop where
  one : u.references .zoo a = s.references .zoo a + 1
  others : ∀ c x, c = .zoo ∧ x = a ∨ u.references c x = s.references c x
  moved : u.zoo.get? it = some (.iterator animals k)
  objects : ∀ x, x = it ∨ u.zoo.get? x = s.zoo.get? x
  rest : u = { s with zoo := u.zoo }

/-- What calls that move the iterator on answer after `k` of them. -/
structure Serves (it : Handle) (animals : List Handle) (was : Handle → Option Zoo.Object)
    (k : Nat) (s : Process ω) : Prop where
  /-- The animal at the position, with the tag of what it was and is. -/
  next : ∀ a, animals[k]? = some a → ∃ o u, was a = some o ∧ s.zoo.get? a = some o ∧
    Handed it animals (k + 1) a s u ∧
    (∀ animal hasAnimal, Zoo.nextAnimal it (some animal) (some hasAnimal) s
      = ((Status.ok, some ⟨a, (Resource.tag o).value⟩, some true), u)) ∧
    ∀ animal, Zoo.nextMandatoryAnimal it (some animal) s
      = ((Status.ok, some ⟨a, (Resource.tag o).value⟩), u)
  /-- No animal is left, and nothing changes but the error of the mandatory variant. -/
  ended : animals.length ≤ k →
    (∀ animal hasAnimal, Zoo.nextAnimal it (some animal) (some hasAnimal) s
      = ((Status.ok, some FatHandle.null, some false), s)) ∧
    ∀ animal, (Zoo.nextMandatoryAnimal it (some animal) s).1 = (Status.noResult, some animal)
  /-- A call that fails, whatever the reason, moves nothing. -/
  failed : ∀ animal hasAnimal,
    ((Zoo.nextAnimal it animal hasAnimal s).1.1 ≠ Status.ok →
      s.Intact (Zoo.nextAnimal it animal hasAnimal s).2) ∧
    ((Zoo.nextMandatoryAnimal it animal s).1.1 ≠ Status.ok →
      s.Intact (Zoo.nextMandatoryAnimal it animal s).2)

theorem Zoo.get_run {o : Zoo.Object} (h : s.zoo.get it = .ok o) :
    Zoo.part.get it s = (.ok o, s) := congrArg (·, s) h

/-- A handle is handed out with the tag of its object. -/
theorem Zoo.fat_run {o : Zoo.Object} (h : s.zoo.get a = .ok o) :
    Zoo.fat a s = (.ok ⟨a, (Resource.tag o).value⟩, s) := by
  rw [Zoo.fat, run_bind_ok (Zoo.get_run h)]
  rfl

/-- At the end of the list there is nothing to hand out. -/
theorem advance_ended (hit : s.zoo.get it = .ok (.iterator animals k))
    (hk : animals[k]? = none) : Zoo.advance it s = (.ok none, s) := by
  rw [Zoo.advance, run_bind_ok (Zoo.get_run hit)]
  dsimp only
  rw [hk]
  rfl

/-- The animal at the position is handed out with a reference of its own. -/
theorem advance_hands {o : Zoo.Object} {t : Table Zoo.Object}
    (hit : s.zoo.get it = .ok (.iterator animals k)) (hk : animals[k]? = some a)
    (ho : s.zoo.get a = .ok o) (ht : s.zoo.acquire a = .ok t) :
    Zoo.advance it s = (.ok (some ⟨a, (Resource.tag o).value⟩),
      { s with zoo := t.update it Zoo.stepOn }) := by
  rw [Zoo.advance, run_bind_ok (Zoo.get_run hit)]
  dsimp only
  rw [hk]
  dsimp only
  rw [run_bind_ok (Zoo.fat_run ho), run_bind_ok (Part.acquire_ok ht)]
  rfl

/-- Without room for its reference the animal is not handed out. -/
theorem advance_full {o : Zoo.Object} {why : Fault}
    (hit : s.zoo.get it = .ok (.iterator animals k)) (hk : animals[k]? = some a)
    (ho : s.zoo.get a = .ok o) (ht : s.zoo.acquire a = .error why) :
    Zoo.advance it s = (.error why, s) := by
  rw [Zoo.advance, run_bind_ok (Zoo.get_run hit)]
  dsimp only
  rw [hk]
  dsimp only
  rw [run_bind_ok (Zoo.fat_run ho)]
  exact run_bind_error (Part.acquire_error ht)

theorem require_run {α : Type} (x : α) (s : Process ω) :
    (liftM (Fixed.require (some x)) : Op (Process ω) PUnit) s = (.ok ⟨⟩, s) := rfl

theorem nextAnimal_run {next : Option FatHandle} (h : Zoo.advance it s = (.ok next, u))
    (animal : FatHandle) (hasAnimal : Bool) :
    Zoo.nextAnimal it (some animal) (some hasAnimal) s
      = ((Status.ok, some (next.getD FatHandle.null), some next.isSome), u) := by
  refine Part.guard_of_ok ?_
  rw [run_bind_ok (require_run animal s), run_bind_ok (require_run hasAnimal s), run_bind_ok h]
  cases next <;> rfl

theorem nextMandatoryAnimal_run {next : FatHandle} (h : Zoo.advance it s = (.ok (some next), u))
    (animal : FatHandle) :
    Zoo.nextMandatoryAnimal it (some animal) s = ((Status.ok, some next), u) := by
  refine Part.guard_of_ok ?_
  rw [run_bind_ok (require_run animal s), run_bind_ok h]
  rfl

theorem nextMandatoryAnimal_ended (h : Zoo.advance it s = (.ok none, u)) (animal : FatHandle) :
    (Zoo.nextMandatoryAnimal it (some animal) s).1 = (Status.noResult, some animal) := by
  rw [Zoo.nextMandatoryAnimal, Part.guard_answer, run_bind_ok (require_run animal s), run_bind_ok h]
  rfl

/-! ## What an iterator serves -/

namespace Table

variable {O : Type} {t t' : Table O} {x : Handle} {o : O}

/-- There is a live object, and room in its count. -/
theorem acquire_room (h : t.get? x = some o) (hroom : t.count? x ≠ some 4294967295) :
    ∃ t', t.acquire x = .ok t' := by
  obtain ⟨slot, hslot, rfl⟩ := Option.map_eq_some_iff.mp h
  rw [count?, hslot] at hroom
  rw [acquire, hslot]
  exact ⟨_, if_neg fun hc => hroom (congrArg some hc)⟩

theorem refs_acquire (h : t.acquire x = .ok t') (y : Handle) :
    t'.refs y = t.refs y + if x = y then 1 else 0 := by
  obtain ⟨slot, hslot, hroom, rfl⟩ := acquire_ok h
  rw [refs, count?, get?_setCount]
  split
  · next hxy =>
    subst hxy
    rw [hslot, refs_some hslot]
    exact toNat_add_one hroom
  · rfl

theorem refs_update (t : Table O) (x : Handle) (f : O → O) (y : Handle) :
    (t.update x f).refs y = t.refs y := by
  rw [refs, refs, count?_update]

end Table

theorem handed {t : Table Zoo.Object} (hit : s.zoo.get? it = some (.iterator animals k))
    (ht : s.zoo.acquire a = .ok t) :
    Handed it animals (k + 1) a s { s with zoo := t.update it Zoo.stepOn } := by
  have hobject : ∀ x, t.get? x = s.zoo.get? x := by
    obtain ⟨slot, -, -, rfl⟩ := Table.acquire_ok ht
    exact s.zoo.object_setCount a _
  have hcount : ∀ x, (t.update it Zoo.stepOn).refs x = s.zoo.refs x + if a = x then 1 else 0 :=
    fun x => by rw [Table.refs_update, Table.refs_acquire ht]
  refine ⟨?_, fun c x => ?_, ?_, fun x => ?_, rfl⟩
  · exact (hcount a).trans (by rw [if_pos rfl]; rfl)
  · cases c with
    | zoo =>
      by_cases hx : a = x
      · exact .inl ⟨rfl, hx.symm⟩
      · exact .inr ((hcount x).trans (by rw [if_neg hx]; rfl))
    | _ => exact .inr rfl
  · show (t.update it Zoo.stepOn).get? it = _
    rw [Table.object_update, if_pos rfl, hobject, hit]
    rfl
  · by_cases hx : it = x
    · exact .inl hx.symm
    · refine .inr ?_
      show (t.update it Zoo.stepOn).get? x = _
      rw [Table.object_update, if_neg hx, hobject]

section

variable (h : Snap it animals was k s) (hs : Sound e s) (fit : Fit it animals s)
include h hs fit

/-- The iterator is read at its position. -/
theorem Snap.position : s.zoo.get? it = some (.iterator animals (min k animals.length)) ∧
    s.zoo.get it = .ok (.iterator animals (min k animals.length)) := by
  obtain ⟨slot, hslot⟩ : ∃ slot, s.zoo.slots.get? it = some slot :=
    Option.isSome_iff_exists.mp (Option.isSome_map ▸ fit.live)
  have hget : s.zoo.get? it = some slot.object := by
    rw [Table.get?, hslot]
    rfl
  rw [← (h.iterator fit.new).2 _ hget]
  exact ⟨hget, hs.zoo.get hget⟩

/-- An animal of the list is live, and is what it was. -/
theorem Snap.animal (ha : a ∈ animals) :
    ∃ o, was a = some o ∧ s.zoo.get? a = some o ∧ s.zoo.get a = .ok o := by
  obtain ⟨o, ho, -⟩ := hs.zoo.owned_leaf (h.position hs fit).1 ha
  exact ⟨o, ((h.pinned a ha fit.new).2 _ ho).1, ho, hs.zoo.get ho⟩

/-- A call that moves the iterator on answers what it should. -/
theorem Snap.serves : Serves it animals was k s where
  next a ha := by
    have hlt : k < animals.length := (List.getElem?_eq_some_iff.mp ha).1
    have hmem : a ∈ animals := List.mem_of_getElem? ha
    obtain ⟨hit, hget⟩ := h.position hs fit
    rw [Nat.min_eq_left (Nat.le_of_lt hlt)] at hit hget
    obtain ⟨o, hwas, ho, hgeta⟩ := h.animal hs fit hmem
    obtain ⟨t, ht⟩ := Table.acquire_room ho (fit.room a hmem)
    have hadvance := advance_hands hget ha hgeta ht
    exact ⟨o, _, hwas, ho, handed hit ht, nextAnimal_run hadvance,
      nextMandatoryAnimal_run hadvance⟩
  ended hk := by
    obtain ⟨-, hget⟩ := h.position hs fit
    rw [Nat.min_eq_right hk] at hget
    have hadvance := advance_ended hget (List.getElem?_eq_none_iff.mpr le_rfl)
    exact ⟨nextAnimal_run hadvance, fun animal => nextMandatoryAnimal_ended hadvance animal⟩
  failed animal hasAnimal :=
    ⟨Zoo.nextAnimal_intact it animal hasAnimal s (.refl s),
      Zoo.nextMandatoryAnimal_intact it animal s (.refl s)⟩

end

end Boundary
