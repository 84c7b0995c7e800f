/-
  Boundary.Proofs.Zoo.Loans — animals that a zoo has lent.

  `animalAt` gives its caller no reference: the animal that it lends is kept alive by the
  zoo's own one. A zoo never gives that back as long as it lives, and an animal that is
  added comes last, so the animal stays where it was lent from (`Lends`).

  Proved: whatever a session does after an animal was lent, while the zoo lives the animal
  is alive with its tag and its name, and is lent again for the same index (`lent_stays`).
-/
import Boundary.Proofs.Iterator.Walk
import Boundary.Proofs.Zoo.Contents
import Boundary.Proofs.Zoo.Objects

namespace Boundary

open Exchange (Cell)

variable {ω ρ : Type} {J : ω → Prop} {out : Outside ω} {s s' : Process ω} {zoo x : Handle}
  {index : UInt32} {a : Zoo.Species × String}

/-! ## What is lent -/

/-- While the zoo lives it has the animal at the index. -/
structure Lends (zoo : Handle) (index : UInt32) (x : Handle) (a : Zoo.Species × String)
    (s : Process ω) : Prop where
  zoo : s.Pinned zoo fun o => ∃ hs, o = .zoo hs ∧ hs[index.toNat]? = some x
  animal : s.Bears x a

theorem Lends.thinned (h : Lends zoo index x a s) (l : Thinned s s') : Lends zoo index x a s' :=
  ⟨h.zoo.thinned l, h.animal.thinned l⟩

/-- New objects do not matter. -/
theorem Lends.insert (h : Lends zoo index x a s) (o : Zoo.Object) :
    Lends zoo index x a (Zoo.part.insert o s).2 :=
  have later : Later s (Zoo.part.insert o s).2 := zooBerth.insert o s
  ⟨h.zoo.later later, h.animal.later later⟩

/-- A change keeps it that leaves animals alone and adds to zoos at the end. -/
theorem Lends.update (h : Lends zoo index x a s) (y : Handle) {f : Zoo.Object → Zoo.Object}
    (hleaf : ∀ o, Layered.leaf o → f o = o) (hzoo : ∀ hs, ∃ more, f (.zoo hs) = .zoo (hs ++ more)) :
    Lends zoo index x a (Zoo.part.update y f s).2 := by
  refine ⟨h.zoo.update fun _ o ho => ?_, h.animal.update fun _ o ho => ?_⟩
  · obtain ⟨hs, rfl, hx⟩ := ho
    split
    · obtain ⟨more, hmore⟩ := hzoo hs
      refine ⟨hs ++ more, hmore, ?_⟩
      obtain ⟨hlt, -⟩ := List.getElem?_eq_some_iff.mp hx
      rw [List.getElem?_append_left hlt, hx]
    · exact ⟨hs, rfl, hx⟩
  · rw [ho, hleaf _ ⟨a.1, a.2, rfl⟩, ite_self]

theorem perform_lends (q : OutsideOnly J out) (c : Call ρ)
    (hover : ∀ a, c.handedOver = some a → a.Native) :
    Ends (Observed (Lends zoo index x a) J) (perform out (out.reach .none) c)
      fun _ => Observed (Lends zoo index x a) J := by
  refine perform_observed q Lends.thinned ⟨fun o _ s h => ?_, fun y _ b s h => ?_,
    fun y _ s h => ?_⟩ hover
  · exact ⟨h.1.same rfl rfl rfl, h.2.insert o⟩
  · refine ⟨h.1.same rfl rfl rfl, h.2.update y (fun _ ho => leaf_pushAnimal ho b) fun hs => ?_⟩
    exact ⟨[b], rfl⟩
  · refine ⟨h.1.same rfl rfl rfl, h.2.update y (fun _ ho => leaf_stays ho) fun hs => ?_⟩
    exact ⟨[], by rw [List.append_nil]; rfl⟩

/-- What a loan answers is the animal at the index, and nothing has changed. -/
theorem animalAt_tells (s : Process ω) (zoo : Handle) (index : UInt32) (cell : Cell FatHandle) :
    Ends (fun u => u = s) (Zoo.animalAt zoo index cell) fun r u => r.1 = Status.ok →
      u = s ∧ ∃ f hs o, r.2 = some f ∧ s.zoo.get? zoo = some (.zoo hs) ∧
        hs[index.toNat]? = some f.handle ∧ s.zoo.get? f.handle = some o ∧
        f.tagWord = (Resource.tag o).value := by
  refine Part.guard_succeeds (Q := fun (cell : Cell FatHandle) u => u = s ∧ ∃ f hs o,
    cell = some f ∧ s.zoo.get? zoo = some (.zoo hs) ∧ hs[index.toNat]? = some f.handle ∧
    s.zoo.get? f.handle = some o ∧ f.tagWord = (Resource.tag o).value) ?_
  refine .bind ((Fixed.require_fares cell).failing fun _ _ h => h.1) fun _ => ?_
  refine .bind ((animalsOf_enrolled _).failing fun _ _ h => h.1) fun hs => ?_
  split
  · next y hy =>
    refine .bind (Q := fun f u => u = s ∧ f.handle = y ∧ s.zoo.get? zoo = some (.zoo hs) ∧
      ∃ o, s.zoo.get? y = some o ∧ f.tagWord = (Resource.tag o).value) ?_ fun f =>
        .pure fun u h => ?_
    · refine .bind ((Zoo.part.get_finds y).failing fun _ _ h => h.1) fun o => .pure fun u h => ?_
      obtain ⟨⟨rfl, hz⟩, ho⟩ := h
      exact ⟨rfl, rfl, hz, o, ho, rfl⟩
    · obtain ⟨rfl, rfl, hz, o, ho, ht⟩ := h
      exact ⟨rfl, f, hs, o, rfl, hz, hy, ho, ht⟩
  · exact .throw fun _ _ => (by decide : Status.invalidParam ≠ Status.ok)

theorem animalAt_lent {cell : Cell FatHandle} {f : FatHandle}
    (h : Zoo.animalAt zoo index cell s = ((Status.ok, some f), s')) :
    s' = s ∧ ∃ hs o, s.zoo.get? zoo = some (.zoo hs) ∧ hs[index.toNat]? = some f.handle ∧
      s.zoo.get? f.handle = some o ∧ f.tagWord = (Resource.tag o).value := by
  have htells := animalAt_tells s zoo index cell s rfl
  rw [h] at htells
  obtain ⟨hs', f', hs, o, hf, found⟩ := htells rfl
  obtain rfl := Option.some.inj hf
  exact ⟨hs', hs, o, found⟩

namespace Session

variable {out : Outside World} {s s' u : Process World} {f : FatHandle}

theorem lends_staged (q : Harmless out) :
    Staged out .all fun J _ => Observed (Lends zoo index x a) J :=
  observed_staged Lends.thinned fun c ws ls hover => perform_lends (q ws ls) c hover

/-- The animal that was lent at `s` is alive at `u`, the same as then, and lent again. -/
structure Lent (zoo : Handle) (index : UInt32) (f : FatHandle) (out : Outside World)
    (s u : Process World) : Prop where
  counted : ∃ n, u.zoo.count? f.handle = some n ∧ 1 ≤ n.toNat
  same : ∃ species name, s.zoo.get? f.handle = some (.animal species name) ∧
    u.zoo.get? f.handle = some (.animal species name) ∧ f.tagWord = species.tag.value
  again : ∀ cell, native out (.animalAt zoo index (some cell)) u = ((Status.ok, some f), u)

/-- While the zoo lives, an animal that it lent stays alive and is what it was, whatever was
    made, given back and dropped since. -/
theorem lent_stays (q : Harmless out) (r : Run out { outer := {} } s) {cell : Cell FatHandle}
    (hlent : native out (.animalAt zoo index cell) s = ((Status.ok, some f), s'))
    (r' : Run out s' u) (hb : u.shared.issued < handleLimit) (live : u.zoo.live zoo = true) :
    Lent zoo index f out s u := by
  have hs : Ready s := r.ready q ready_start
  obtain ⟨rfl, animals, o, hzoo, hx, ho, htag⟩ := animalAt_lent hlent
  -- what the zoo owns is an animal, and both handles were issued
  have hbs : s'.shared.issued < handleLimit := Nat.lt_of_le_of_lt (r'.issued_le q hs) hb
  have kept := (hs.sound hbs).zoo
  obtain ⟨_, hanimal, species, name, rfl⟩ := kept.owned_leaf hzoo (List.mem_of_getElem? hx)
  obtain rfl := Option.some.inj (ho.symm.trans hanimal)
  have hlends : Lends zoo index f.handle (species, name) s' :=
    ⟨fun _ => ⟨kept.raw_le hzoo, fun o' ho' => ⟨animals, Option.some.inj (ho'.symm.trans hzoo), hx⟩⟩,
      fun _ => ⟨kept.raw_le ho, fun o' ho' => Option.some.inj (ho'.symm.trans ho)⟩⟩
  have hafter : Lends zoo index f.handle (species, name) u :=
    r'.observed Lends.thinned (lends_staged q) hs hlends
  -- the zoo is still there, so its animal is
  have kept' := ((r'.ready q hs).sound hb).zoo
  obtain ⟨_, hzoo'⟩ := Table.live_iff_get?.mp live
  obtain ⟨animals', rfl, hx'⟩ := (hafter.zoo hb).2 _ hzoo'
  obtain ⟨_, hanimal', -⟩ := kept'.owned_leaf hzoo' (List.mem_of_getElem? hx')
  obtain rfl := (hafter.animal hb).2 _ hanimal'
  refine ⟨kept'.counted hanimal', ⟨species, name, ho, hanimal', htag⟩, fun cell' => ?_⟩
  have hrun := Zoo.animalAt_run (kept'.get hzoo') hx' (kept'.get hanimal') cell'
  rw [show (Resource.tag (Zoo.Object.animal species name)).value = f.tagWord from htag.symm] at hrun
  exact hrun

def lending : List Step :=
  [.animalAt "zoo" 1 "lent", .acquire "lent" "own", .iterate "zoo" "walk",
   .nextAnimal "walk" "giraffe", .nextMandatoryAnimal "walk" "tiger", .drop "lent", .drop "walk",
   .addAnimal "zoo" .snake "Sid", .drop "own", .drop "tiger"]

def lentOut : Process World :=
  lending.foldl (fun s st => (st.run (outside depth) s).2) opened

theorem lentOut_evaluates :
    opened.zoo.get? ⟨5⟩ = some (.zoo [⟨1⟩, ⟨2⟩, ⟨3⟩, ⟨4⟩]) ∧
    opened.zoo.get? ⟨2⟩ = some (.animal .tiger "Tony Tiger") ∧
    lentOut.zoo.get? ⟨5⟩ = some (.zoo [⟨1⟩, ⟨2⟩, ⟨3⟩, ⟨4⟩, ⟨7⟩]) ∧
    lentOut.zoo.count? ⟨2⟩ = some 1 ∧ lentOut.zoo.live ⟨6⟩ = false ∧
    decide (lentOut.shared.issued < handleLimit) = true := by
  decide +kernel

def tiger : FatHandle := ⟨⟨2⟩, Zoo.Species.tiger.tag.value⟩

theorem tiger_lent :
    native (outside depth) (.animalAt ⟨5⟩ 1 (some FatHandle.null)) opened
      = ((Status.ok, some tiger), opened) :=
  Zoo.animalAt_run (Table.get_some (by decide) lentOut_evaluates.1) (by decide)
    (Table.get_some (by decide) lentOut_evaluates.2.1) FatHandle.null

/-- The iterator is gone and the zoo alone holds the tiger, which is lent again. -/
theorem tiger_stays :
    native (outside depth) (.animalAt ⟨5⟩ 1 (some FatHandle.null)) opened
        = ((Status.ok, some tiger), opened) ∧
      lentOut.zoo.count? ⟨2⟩ = some 1 ∧ lentOut.zoo.live ⟨6⟩ = false ∧
      Lent ⟨5⟩ 1 tiger (outside depth) opened lentOut := by
  obtain ⟨-, -, hzoo, hone, hgone, hb⟩ := lentOut_evaluates
  have live : lentOut.zoo.live ⟨5⟩ = true := Table.live_iff_get?.mpr ⟨_, hzoo⟩
  have r' : Run (outside depth) opened lentOut := Run.refl.steps (by simp [lending, Step.Safe])
  exact ⟨tiger_lent, hone, hgone, lent_stays (outside_harmless depth) opened_run tiger_lent r'
    (of_decide_eq_true hb) live⟩

end Session

end Boundary
