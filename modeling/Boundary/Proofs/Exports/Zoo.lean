/-
  Boundary.Proofs.Exports.Zoo — what zoo exports do to the ledger.

  A new zoo takes the references to its animals over, a new animal goes to its zoo, and an
  iterator takes references of its own, all of them or none. What a caller gets is a
  reference to what the output names.
-/
import Boundary.Proofs.Operations
import Boundary.Zoo.Functions

namespace Boundary.Zoo

open Exchange (Cell)

variable {ω : Type} {J : ω → Prop} {e : Ledger} {φ : Process ω → Prop}

/-! ## Handles and tags -/

def inCell (cell : Cell FatHandle) : Ledger := .of .zoo [(cell.getD FatHandle.null).handle]

/-- The tag of a new object is found. -/
theorem fat_new (h : Handle) (o : Object) {e' : Ledger} :
    Does (Books J (e + .of .zoo [h]) fun s => At part h o s ∧ φ s) (fat h)
      (fun f => Balanced J (e + inCell (some f))) fun _ => Balanced J e' :=
  .bind (zooSite.get_at h o) fun _ => .pure fun _ hs => hs.balanced

theorem fat_does (h : Handle) :
    Does (Balanced J e) (fat h : Op (Process ω) _) (fun f s => f.handle = h ∧ Balanced J e s)
      fun _ => Balanced J e :=
  .bind (Site.get h) fun _ => .pure fun _ hs => ⟨rfl, hs.balanced⟩

theorem animalsOf_does (zoo : Handle) :
    Does (Books J e φ) (animalsOf zoo)
      (fun animals => Books J e fun s => At part zoo (.zoo animals) s ∧ φ s)
      fun _ => Balanced J e := by
  refine .bind (Site.get zoo) fun o => ?_
  cases o with
  | zoo animals => exact .pure fun _ h => h
  | _ => exact .throw fun _ h => h.balanced

/-! ## Making zoos -/

theorem insertAll_does (animals : List (Species × String)) (hφ : Stays part φ) {e' : Ledger} :
    Does (Books J e φ) (insertAll animals)
      (fun hs => Books J (e + .of .zoo hs) fun s => (∀ y ∈ hs, Leaf part y s) ∧ φ s)
      fun _ => Balanced J e' := by
  induction animals generalizing e φ with
  | nil =>
    refine .pure fun s h => ?_
    rw [Ledger.of_nil, add_zero]
    exact h.mono fun _ hs => ⟨by simp, hs⟩
  | cons a rest ih =>
    refine .bind (zooSite.insert_bare (o := .animal a.1 a.2) rfl hφ) fun h => ?_
    refine .bind (ih ((stays_at h _).and hφ)) fun hs => .pure fun s hb => ?_
    rw [Ledger.of_cons, ← add_assoc]
    refine hb.mono fun _ hs' => ⟨fun y hy => ?_, hs'.2.2⟩
    rcases List.mem_cons.mp hy with rfl | hy
    · exact ⟨_, hs'.2.1, a.1, a.2, rfl⟩
    · exact hs'.1 y hy

theorem createZoo_gives {zoo : Cell FatHandle} (hz : inCell zoo = 0) :
    Gives J (createZoo zoo : Act ω _) inCell := by
  refine zooSite.gives _ zoo hz fun e => ?_
  refine .bind (.lift (fun _ _ _ h => h) fun _ _ _ h => h) fun _ => ?_
  refine .bind (insertAll_does defaults (stays_const True)) fun animals => ?_
  refine .bind ((zooSite.insert (.zoo animals) (stays_leaves animals)
    fun _ h => h).pre fun s h => h.mono fun _ hs => hs.1) fun h => ?_
  exact .bind (fat_new h _) fun f => .pure fun _ hs => hs

/-! ## Animals -/

theorem addAnimal_gives (zoo : Handle) (species : UInt32) (name : TextArg) :
    Gives J (addAnimal zoo species name : Act ω _) fun _ => 0 := by
  refine zooSite.gives zoo () rfl fun e => ?_
  refine .bind (animalsOf_does zoo) fun animals => ?_
  split
  · next species _ =>
    refine .bind (.lift (fun _ _ _ h => h) fun _ _ _ h => h.balanced) fun name => ?_
    refine .ite (fun _ => .throw_bind fun _ h => h.balanced) fun _ => ?_
    refine .bind (zooSite.insert_bare (o := .animal species name) rfl
      ((stays_at zoo _).and (stays_const True))) fun animal => ?_
    refine (zooSite.update (e := e) (o := .zoo animals) (f := pushAnimal animal) [animal] []
      (fun y => ?_) (fun hl => ?_)).mono (fun s h => ?_) (fun _ s h => ?_) fun _ _ h => h
    · exact List.count_append
    · obtain ⟨_, _, hl⟩ := hl
      cases hl
    · refine h.mono fun _ hs => ⟨hs.2.1, fun y hy => ?_⟩
      rw [List.mem_singleton] at hy
      subst hy
      exact ⟨_, hs.1, species, name, rfl⟩
    · rwa [Ledger.of_nil, add_zero] at h
  · exact .throw fun _ h => h.balanced

/-! ## Iterators -/

theorem acquireAll_does (taken rest : List Handle) (hφ : Stays part φ) :
    Does (Books J (e + .of .zoo taken) φ) (acquireAll taken rest)
      (fun _ => Books J (e + .of .zoo (taken ++ rest)) φ) fun _ => Balanced J e := by
  induction rest generalizing taken with
  | nil =>
    refine .pure fun s h => ?_
    rwa [List.append_nil]
  | cons x rest ih =>
    refine .bind (zooSite.acquire x hφ).outcome fun r => ?_
    cases r with
    | ok _ =>
      have := ih (taken ++ [x])
      rw [List.append_assoc] at this
      refine this.pre fun s h => ?_
      rw [Ledger.of_append, ← add_assoc]
      exact h
    | error why => exact .bind (zooSite.rollBack taken) fun _ => .throw fun _ h => h

theorem iterator_gives (zoo : Handle) {cell : Cell FatHandle} (hc : inCell cell = 0) :
    Gives J (iterator zoo cell : Act ω _) inCell := by
  refine zooSite.gives zoo cell hc fun e => ?_
  refine .bind (.lift (fun _ _ _ h => h) fun _ _ _ h => h) fun _ => ?_
  refine .bind (animalsOf_does zoo) fun animals => ?_
  have hall : Does (Books J e fun s => At part zoo (.zoo animals) s ∧ True) (acquireAll [] animals)
      (fun _ => Books J (e + .of .zoo animals) fun s => ∀ y ∈ animals, Leaf part y s)
      fun _ => Balanced J e := by
    refine (acquireAll_does [] animals (stays_leaves animals)).pre fun s h => ?_
    rw [Ledger.of_nil, add_zero]
    exact (zooSite.leaves h).mono fun _ hs => hs.1
  refine .bind hall fun _ => ?_
  refine .bind (zooSite.insert (.iterator animals 0) (stays_leaves animals) fun _ h => h)
    fun h => ?_
  exact .bind (fat_new h _) fun f => .pure fun _ hs => hs

theorem owned_stepOn (o : Object) : Resource.owned (stepOn o) = Resource.owned o := by
  cases o <;> rfl

theorem leaf_stepOn (o : Object) (h : Layered.leaf o) : Layered.leaf (stepOn o) := by
  obtain ⟨species, name, rfl⟩ := h
  exact ⟨species, name, rfl⟩

theorem advance_does (iterator : Handle) :
    Does (Balanced J e) (advance iterator : Op (Process ω) _)
      (fun next => Balanced J (e + inCell next)) fun _ => Balanced J e := by
  refine .bind (Site.get iterator) fun o => ?_
  cases o with
  | iterator animals position =>
    dsimp only
    split
    · refine .pure fun s h => ?_
      rw [inCell, Option.getD_none, FatHandle.null, Ledger.of_null, add_zero]
      exact h.balanced
    · next h _ =>
      refine .bind ((fat_does h).pre fun s h => h.balanced) fun animal => .assume fun ha => ?_
      refine .bind (zooSite.acquire h (stays_const True)) fun _ => ?_
      refine .bind (zooSite.update_same owned_stepOn leaf_stepOn iterator) fun _ => ?_
      refine .pure fun s hs => ?_
      rw [inCell, Option.getD_some, ha]
      exact hs
  | _ => exact .throw fun _ h => h.balanced

/-- At the end of the list the output names nothing. -/
theorem nextAnimal_gives (iterator : Handle) {animal : Cell FatHandle} {hasAnimal : Cell Bool}
    (ha : (if hasAnimal = some true then inCell animal else 0) = 0) :
    Gives J (nextAnimal iterator animal hasAnimal : Act ω _) fun cells =>
      if cells.2 = some true then inCell cells.1 else 0 := by
  refine zooSite.gives iterator (animal, hasAnimal) ha fun e => ?_
  refine .bind (.lift (fun _ _ _ h => h) fun _ _ _ h => h) fun _ => ?_
  refine .bind (.lift (fun _ _ _ h => h) fun _ _ _ h => h) fun _ => ?_
  refine .bind (advance_does iterator) fun next => ?_
  cases next with
  | some next => exact .pure fun _ h => h
  | none =>
    refine .pure fun s h => ?_
    rwa [inCell, Option.getD_none, FatHandle.null, Ledger.of_null] at h

theorem nextMandatoryAnimal_gives (iterator : Handle) {animal : Cell FatHandle}
    (ha : inCell animal = 0) :
    Gives J (nextMandatoryAnimal iterator animal : Act ω _) inCell := by
  refine zooSite.gives iterator animal ha fun e => ?_
  refine .bind (.lift (fun _ _ _ h => h) fun _ _ _ h => h) fun _ => ?_
  refine .bind (advance_does iterator) fun next => ?_
  cases next with
  | some next => exact .pure fun _ h => h
  | none =>
    refine .throw fun s h => ?_
    rwa [inCell, Option.getD_none, FatHandle.null, Ledger.of_null, add_zero] at h

end Boundary.Zoo
