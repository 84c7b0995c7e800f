/-
  Boundary.Proofs.Zoo.Roll — a zoo and the roll of its animals.

  A zoo holds handles; its roll says what animals they stand for, by species and name and in
  order (`Enrolled`). A zoo that is still to be made has the roll of the default animals.

  Proved:
  - every call keeps the roll of a zoo but one that adds an animal to it (`roll_upheld`);
  - that one puts the animal at the end of the roll if it succeeds, and leaves the roll as it
    was if it fails (`addAnimal_enrolls`).
-/
import Boundary.Proofs.Iterator.Snapshot

namespace Boundary

open Exchange (Cell)

variable {ω ρ : Type} {s s' : Process ω} {zoo x : Handle} {a : Zoo.Species × String}
  {J : ω → Prop} {out : Outside ω}

abbrev Zoo.Roll := List (Zoo.Species × String)

variable {roll : Zoo.Roll}

/-- Under the handle there is the animal, or there was. -/
abbrev Process.Bears (s : Process ω) (x : Handle) (a : Zoo.Species × String) : Prop :=
  s.Pinned x (· = .animal a.1 a.2)

structure Enrolled (zoo : Handle) (roll : Zoo.Roll) (s : Process ω) : Prop where
  guarded : s.registry.Guarded
  injected : ∀ a, s.injected = some a → a.Native
  /-- The zoo was made, or it will have the default animals. -/
  made : s.shared.issued < handleLimit →
    zoo.raw.toNat ≤ s.shared.issued ∨ s.zoo.get? zoo = none ∧ roll = Zoo.defaults
  animals : s.shared.issued < handleLimit → ∀ hs, s.zoo.get? zoo = some (.zoo hs) →
    List.Forall₂ s.Bears hs roll

theorem bears_later {hs : List Handle} (h : List.Forall₂ s.Bears hs roll) (l : Later s s') :
    List.Forall₂ s'.Bears hs roll :=
  h.imp fun _ _ hx => hx.later l

namespace Enrolled

variable (h : Enrolled zoo roll s)
include h

theorem thinned (l : Thinned s s') (hr : s'.registry.Guarded)
    (hi : ∀ a, s'.injected = some a → a.Native) : Enrolled zoo roll s' where
  guarded := hr
  injected := hi
  made hb := by
    rcases h.made (Nat.lt_of_le_of_lt l.issued hb) with hz | ⟨hnone, hroll⟩
    · exact .inl (hz.trans l.issued)
    · refine .inr ⟨Option.eq_none_iff_forall_ne_some.mpr fun o ho => ?_, hroll⟩
      have := l.objects zoo o ho
      simp [hnone] at this
  animals hb hs ho :=
    (h.animals (Nat.lt_of_le_of_lt l.issued hb) hs (l.objects zoo _ ho)).imp
      fun _ _ hx => hx.thinned l

theorem fewer (l : Fewer s s') : Enrolled zoo roll s' :=
  h.thinned l.thinned (l.registry ▸ h.guarded) (l.injected ▸ h.injected)

/-- A new object is no zoo, or it is one with the default animals. -/
theorem insert {o : Zoo.Object} (ho : ∀ hs, o = .zoo hs → List.Forall₂ s.Bears hs Zoo.defaults) :
    Enrolled zoo roll (Zoo.part.insert o s).2 := by
  have later : Later s (Zoo.part.insert o s).2 := zooBerth.insert o s
  have hget : (Zoo.part.insert o s).2.zoo.get? zoo =
      if s.shared.nextHandle = zoo then some o else s.zoo.get? zoo :=
    s.zoo.get?_insert s.shared.nextHandle (s.shared.issued + 1) o zoo
  refine ⟨h.guarded, h.injected, fun (hb : s.shared.issued + 1 < handleLimit) => ?_,
    fun (hb : s.shared.issued + 1 < handleLimit) hs hzoo => bears_later ?_ later⟩
  all_goals
    have hraw := Shared.nextHandle_raw (s := s.shared) (Nat.lt_of_succ_lt hb)
    have hmade := h.made (Nat.lt_of_succ_lt hb)
  · show zoo.raw.toNat ≤ s.shared.issued + 1 ∨ _
    by_cases hz : s.shared.nextHandle = zoo
    · subst hz
      exact .inl hraw.le
    · rw [hget, if_neg hz]
      exact hmade.imp_left fun hle => Nat.le_succ_of_le hle
  · rw [hget] at hzoo
    split at hzoo
    · next hz =>
      subst hz
      -- the handle is new, so nothing was added yet
      rcases hmade with hle | ⟨-, rfl⟩
      · omega
      · exact ho hs (Option.some.inj hzoo)
    · exact h.animals (Nat.lt_of_succ_lt hb) hs hzoo

/-- A change that neither animals nor the zoo notice. -/
theorem update {y : Handle} {f : Zoo.Object → Zoo.Object}
    (hzoo : y = zoo → ∀ o hs, f o = .zoo hs → o = .zoo hs)
    (hleaf : ∀ species name, f (.animal species name) = .animal species name) :
    Enrolled zoo roll (Process.zooPart.update y f s).2 := by
  have hget : (Process.zooPart.update y f s).2.zoo.get? zoo =
      if y = zoo then (s.zoo.get? zoo).map f else s.zoo.get? zoo := s.zoo.object_update y f zoo
  refine ⟨h.guarded, h.injected, fun hb => ?_, fun hb hs hafter => ?_⟩
  · rcases h.made hb with hz | ⟨hnone, hroll⟩
    · exact .inl hz
    · refine .inr ⟨?_, hroll⟩
      rw [hget, hnone]
      split <;> rfl
  · rw [hget] at hafter
    have hbefore : s.zoo.get? zoo = some (.zoo hs) := by
      split at hafter
      · next e =>
        obtain ⟨o, ho, hf⟩ := Option.map_eq_some_iff.mp hafter
        rw [ho, hzoo e o hs hf]
      · exact hafter
    refine (h.animals hb hs hbefore).imp fun x a hx => hx.update fun _ o ho => ?_
    rw [ho, hleaf, ite_self]

/-- An animal that is added comes last. -/
theorem push {hs : List Handle}
    (hz : s.shared.issued < handleLimit → s.zoo.get? zoo = some (.zoo hs)) (ha : s.Bears x a) :
    Enrolled zoo (roll ++ [a]) (Process.zooPart.update zoo (Zoo.pushAnimal x) s).2 := by
  refine ⟨h.guarded, h.injected, fun (hb : s.shared.issued < handleLimit) => .inl ?_,
    fun (hb : s.shared.issued < handleLimit) hs' hafter => ?_⟩
  · exact (h.made hb).resolve_right fun ⟨hnone, _⟩ => by simp [hz hb] at hnone
  · have hget : (Process.zooPart.update zoo (Zoo.pushAnimal x) s).2.zoo.get? zoo =
        some (.zoo (hs ++ [x])) := by
      refine (s.zoo.object_update zoo (Zoo.pushAnimal x) zoo).trans ?_
      rw [if_pos rfl, hz hb]
      rfl
    obtain rfl : hs ++ [x] = hs' := Zoo.Object.zoo.inj (Option.some.inj (hget.symm.trans hafter))
    have hall : List.Forall₂ s.Bears (hs ++ [x]) (roll ++ [a]) :=
      List.rel_append (h.animals hb hs (hz hb)) (.cons ha .nil)
    refine hall.imp fun y b hy => hy.update fun _ o ho => ?_
    rw [ho]
    exact ite_self _

end Enrolled

/-! ## Calls -/

abbrev Rolling (zoo : Handle) (roll : Zoo.Roll) (J : ω → Prop) (s : Process ω) : Prop :=
  J s.outer ∧ Enrolled zoo roll s

theorem Rolling.fewer (h : Rolling zoo roll J s) (l : Fewer s s') : Rolling zoo roll J s' :=
  ⟨l.outer ▸ h.1, h.2.fewer l⟩

theorem Rolling.note (h : Rolling zoo roll J s) (n : Note) : Rolling zoo roll J (Journal.note n s) :=
  h.fewer ⟨le_rfl, fun _ _ h => h, rfl, rfl, rfl⟩

theorem rolling_guardedWith (h : Rolling zoo roll J s) : GuardedWith J s :=
  ⟨h.1, h.2.guarded, h.2.injected⟩

theorem Rolling.thinned (h : Rolling zoo roll J s) (l : Thinned s s') (g : GuardedWith J s') :
    Rolling zoo roll J s' :=
  ⟨g.outer, h.2.thinned l g.reserved g.injected⟩

/-! ### New zoos -/

/-- New animals are there, and no zoo has changed. -/
theorem insertAll_enrolls {E : Fault → Process ω → Prop} (animals : Zoo.Roll)
    {φ : Process ω → Prop} (hφ : ∀ {s s'}, φ s → Later s s' → φ s') :
    Does (fun s => Rolling zoo roll J s ∧ φ s) (Zoo.insertAll animals)
      (fun hs s => (Rolling zoo roll J s ∧ φ s) ∧ List.Forall₂ s.Bears hs animals) E := by
  induction animals generalizing φ with
  | nil => exact .pure fun _ h => ⟨h, .nil⟩
  | cons a rest ih =>
    refine .bind (Q := fun x s => Rolling zoo roll J s ∧ s.Bears x a ∧ φ s) (fun s h => ?_)
      fun x => ?_
    · exact ⟨⟨h.1.1, h.1.2.insert fun _ ho => by cases ho⟩, Process.pinned_insert _ s,
        hφ h.2 (zooBerth.insert _ s)⟩
    · refine .bind (ih fun h l => ⟨h.1.later l, hφ h.2 l⟩) fun hs => .pure fun s h => ?_
      exact ⟨⟨h.1.1, h.1.2.2⟩, .cons h.1.2.1 h.2⟩

/-- A new zoo has the default animals. -/
theorem createZoo_enrolls (cell : Cell FatHandle) :
    Ends (Rolling zoo roll J) (Zoo.createZoo cell) fun _ => Rolling zoo roll J := by
  refine Part.guard_leaves ?_ fun why s h => h.fewer (zooBerth.fail _ why s)
  refine .bind ((Fixed.require_fares cell).failing fun _ _ h => h.2) fun _ => ?_
  refine .bind ((insertAll_enrolls Zoo.defaults (φ := fun _ => True) fun h _ => h).pre
    fun _ h => ⟨h, trivial⟩) fun hs => ?_
  refine .bind (Q := fun _ => Rolling zoo roll J) (fun s h => ⟨h.1.1.1, h.1.1.2.insert ?_⟩)
    fun x => ?_
  · rintro hs' ⟨⟩
    exact h.2
  · exact .bind ((Zoo.fat_fares x).failing fun _ _ h => h.2) fun _ => .pure fun _ h => h

/-! ### Animals that are added -/

/-- The handles of the zoo were read, and its roll is the same since. -/
theorem animalsOf_enrolled (P : Process ω → Prop) :
    Does P (Zoo.animalsOf zoo) (fun hs s => P s ∧ s.zoo.get? zoo = some (.zoo hs))
      fun why s => why.code ≠ Status.ok ∧ P s := by
  refine .bind (Zoo.part.get_finds zoo) fun o => ?_
  cases o with
  | zoo hs => exact .pure fun _ h => h
  | _ => exact .throw fun _ h => ⟨by decide, h.1⟩

theorem Zoo.Species.ofCode?_code (species : Zoo.Species) :
    Zoo.Species.ofCode? species.code = some species := by
  cases species <;> rfl

/-- The animal is on the roll if the call succeeds, and only then. -/
theorem addAnimal_enrolls (species : Zoo.Species) (name : String) :
    Ends (Rolling zoo roll J) (Zoo.addAnimal zoo species.code (.text name)) fun r s =>
      if r.1 = Status.ok then Rolling zoo (roll ++ [(species, name)]) J s
      else Rolling zoo roll J s := by
  refine Part.guard_told (Q := fun _ => Rolling zoo (roll ++ [(species, name)]) J) ?_
    fun why s h => h.fewer (zooBerth.fail zoo why s)
  refine .bind (animalsOf_enrolled _) fun hs => ?_
  rw [Zoo.Species.ofCode?_code]
  dsimp only
  refine .bind (Q := fun t s => t = name ∧ Rolling zoo roll J s ∧ s.zoo.get? zoo = some (.zoo hs))
    (fun s h => ⟨rfl, h⟩) fun t => .assume fun ht => ?_
  subst ht
  refine .ite (fun _ => .throw_bind fun _ h => ⟨by decide, h.1⟩) fun _ => ?_
  refine .bind (Q := fun x s => Rolling zoo roll J s ∧ s.Bears x (species, t) ∧
    (s.shared.issued < handleLimit → s.zoo.get? zoo = some (.zoo hs))) (fun s h => ?_) fun x => ?_
  · obtain ⟨⟨hJ, h⟩, hz⟩ := h
    refine ⟨⟨hJ, h.insert fun _ ho => by cases ho⟩, Process.pinned_insert _ s,
      fun (hb : s.shared.issued + 1 < handleLimit) => ?_⟩
    have hne : s.shared.nextHandle ≠ zoo := by
      have hraw := Shared.nextHandle_raw (s := s.shared) (Nat.lt_of_succ_lt hb)
      rcases h.made (Nat.lt_of_succ_lt hb) with hle | ⟨hnone, -⟩
      · rintro rfl
        omega
      · simp [hz] at hnone
    exact (s.zoo.get?_insert_ne hne _ _).trans hz
  · exact fun s h => ⟨h.1.1, h.1.2.push h.2.2 h.2.1⟩

/-! ### All calls -/

/-- A call that makes no zoo and adds no animal to this one. -/
theorem perform_enrolled (q : OutsideOnly J out) {c : Call ρ} (hnew : ∀ hs, ¬ c.makes (.zoo hs))
    (hother : c.grows ≠ some zoo) (hover : ∀ a, c.handedOver = some a → a.Native) :
    Ends (Rolling zoo roll J) (perform out (out.reach .none) c) fun _ => Rolling zoo roll J := by
  refine q.performs rolling_guardedWith Rolling.thinned
    ⟨fun o ho s h => ?_, fun y hy a s h => ?_, fun y _ s h => ?_⟩ hover
  · refine ⟨h.1, h.2.insert fun hs e => ?_⟩
    subst e
    exact (hnew hs ho).elim
  · refine ⟨h.1, h.2.update (fun e => ?_) fun _ _ => rfl⟩
    subst e
    exact (hother hy).elim
  · refine ⟨h.1, h.2.update (fun _ o hs e => ?_) fun _ _ => rfl⟩
    cases o with
    | zoo _ => exact e
    | _ => cases e

abbrev Leave.sparing (zoo : Handle) : Leave := ⟨fun _ => True, (· ≠ zoo)⟩

/-- The roll is kept by all calls but those that add an animal to the zoo. -/
theorem roll_upheld (q : OutsideOnly J out) :
    Upheld out (.sparing zoo) fun _ => Rolling zoo roll J := by
  refine Host.upheld_const (fun n s h => h.note n) (fun _ h => h.2.guarded) fun c hover hmay => ?_
  cases c with
  | createZoo cell => exact createZoo_enrolls cell
  | addAnimal y species name =>
    exact perform_enrolled q (fun _ h => h) (fun e => hmay (Option.some.inj e)) hover
  | _ => exact perform_enrolled q (fun _ h => h) (fun e => by cases e) hover

end Boundary
