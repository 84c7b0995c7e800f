/-
  Boundary.Proofs.Zoo.Lists — the lists of zoos and of iterators.

  New handles are higher than all before them, so an animal that comes to a zoo is in no
  list yet. And an iterator moves on only where an animal is left. So through any session
  no animal stands twice in a zoo's list or in the lists of two zoos, and no iterator is
  beyond the end of its list (`Arranged`, `arranged_staged`).
-/
import Boundary.Proofs.Zoo.Objects

namespace Boundary

open Exchange (Cell)

variable {ω ρ : Type} {J : ω → Prop} {out : Outside ω} {s s' : Process ω} {x it zoo : Handle}

/-! ## Lists in order -/

structure Zoo.Arranged (issued : Nat) (t : Table Zoo.Object) : Prop where
  old : ∀ z hs, t.get? z = some (.zoo hs) → ∀ y ∈ hs, y.raw.toNat ≤ issued
  nodup : ∀ z hs, t.get? z = some (.zoo hs) → hs.Nodup
  apart : ∀ y z hs ks, t.get? y = some (.zoo hs) → t.get? z = some (.zoo ks) → y ≠ z →
    hs.Disjoint ks
  place : ∀ y hs k, t.get? y = some (.iterator hs k) → k ≤ hs.length

/-- Nothing is promised once handles have come round. -/
def Process.Arranged (s : Process ω) : Prop :=
  s.shared.issued < handleLimit → Zoo.Arranged s.shared.issued s.zoo

theorem arranged_lasts : Lasts (ω := ω) Process.Arranged := by
  intro s s' h l hb
  have ha := h (Nat.lt_of_le_of_lt l.issued hb)
  exact ⟨fun z hs hz y hy => (ha.old z hs (l.objects z _ hz) y hy).trans l.issued,
    fun z hs hz => ha.nodup z hs (l.objects z _ hz),
    fun y z hs ks hy hz => ha.apart y z hs ks (l.objects y _ hy) (l.objects z _ hz),
    fun y hs k hy => ha.place y hs k (l.objects y _ hy)⟩

/-- The handle stands in no zoo's list, and is higher than those that do. -/
def Process.Tops (s : Process ω) (x : Handle) : Prop :=
  s.shared.issued < handleLimit → x.raw.toNat ≤ s.shared.issued ∧
    ∀ z hs, s.zoo.get? z = some (.zoo hs) → ∀ y ∈ hs, y.raw.toNat < x.raw.toNat

namespace Process.Arranged

variable (h : s.Arranged)
include h

/-- A new object: if it is a zoo, its animals are in no other one. -/
theorem insert {o : Zoo.Object}
    (hzoo : s.shared.issued < handleLimit → ∀ hs, o = .zoo hs →
      hs.Nodup ∧ (∀ y ∈ hs, y.raw.toNat ≤ s.shared.issued) ∧
        ∀ z ks, s.zoo.get? z = some (.zoo ks) → hs.Disjoint ks)
    (hplace : ∀ hs k, o = .iterator hs k → k = 0) : (Zoo.part.insert o s).2.Arranged := by
  intro (hb : s.shared.issued + 1 < handleLimit)
  have hb' := Nat.lt_of_succ_lt hb
  have ha := h hb'
  have hget (z : Handle) : (Zoo.part.insert o s).2.zoo.get? z =
      if s.shared.nextHandle = z then some o else s.zoo.get? z :=
    s.zoo.get?_insert s.shared.nextHandle (s.shared.issued + 1) o z
  -- what is there under a handle is the new object, or it was there
  have hcases {z : Handle} {b : Zoo.Object}
      (hz : (Zoo.part.insert o s).2.zoo.get? z = some b) :
      s.shared.nextHandle = z ∧ o = b ∨ s.zoo.get? z = some b := by
    rw [hget] at hz
    split at hz
    · next e => exact .inl ⟨e, Option.some.inj hz⟩
    · exact .inr hz
  refine ⟨fun z hs hz y hy => Nat.le_succ_of_le ?_, fun z hs hz => ?_,
    fun y z hs ks hy hz hne => ?_, fun y hs k hy => ?_⟩
  · rcases hcases hz with ⟨-, ho⟩ | hz
    · exact (hzoo hb' hs ho).2.1 y hy
    · exact ha.old z hs hz y hy
  · rcases hcases hz with ⟨-, ho⟩ | hz
    · exact (hzoo hb' hs ho).1
    · exact ha.nodup z hs hz
  · rcases hcases hy with ⟨ey, hoy⟩ | hy <;> rcases hcases hz with ⟨ez, hoz⟩ | hz
    · exact absurd (ey.symm.trans ez) hne
    · exact (hzoo hb' hs hoy).2.2 z ks hz
    · exact ((hzoo hb' ks hoz).2.2 y hs hy).symm
    · exact ha.apart y z hs ks hy hz hne
  · rcases hcases hy with ⟨-, ho⟩ | hy
    · rw [hplace hs k ho]
      exact Nat.zero_le _
    · exact ha.place y hs k hy

/-- A handle that tops all comes to the list of a zoo. -/
theorem push (htop : s.Tops x) (zoo : Handle) :
    (Zoo.part.update zoo (Zoo.pushAnimal x) s).2.Arranged := by
  intro (hb : s.shared.issued < handleLimit)
  have ha := h hb
  obtain ⟨hx, htop⟩ := htop hb
  have hget (z : Handle) : (Zoo.part.update zoo (Zoo.pushAnimal x) s).2.zoo.get? z =
      if zoo = z then (s.zoo.get? z).map (Zoo.pushAnimal x) else s.zoo.get? z :=
    s.zoo.object_update zoo (Zoo.pushAnimal x) z
  have hzoo {z : Handle} {ks : List Handle}
      (hz : (Zoo.part.update zoo (Zoo.pushAnimal x) s).2.zoo.get? z = some (.zoo ks)) :
      ∃ ks₀, s.zoo.get? z = some (.zoo ks₀) ∧ (ks = ks₀ ∨ zoo = z ∧ ks = ks₀ ++ [x]) := by
    rw [hget] at hz
    split at hz
    · next e =>
      obtain ⟨o, ho, hpush⟩ := Option.map_eq_some_iff.mp hz
      cases o with
      | zoo ks₀ => exact ⟨ks₀, ho, .inr ⟨e, (Zoo.Object.zoo.inj hpush).symm⟩⟩
      | _ => cases hpush
    · exact ⟨ks, hz, .inl rfl⟩
  have hnew {z : Handle} {ks : List Handle} (hz : s.zoo.get? z = some (.zoo ks)) : x ∉ ks :=
    fun hm => Nat.lt_irrefl _ (htop z ks hz x hm)
  refine ⟨fun z hs hz y hy => ?_, fun z hs hz => ?_, fun y z hs ks hy hz hne => ?_,
    fun y hs k hy => ?_⟩
  · obtain ⟨ks₀, hz₀, rfl | ⟨-, rfl⟩⟩ := hzoo hz
    · exact ha.old z hs hz₀ y hy
    · rcases List.mem_append.mp hy with hy | hy
      · exact ha.old z ks₀ hz₀ y hy
      · rw [List.mem_singleton.mp hy]
        exact hx
  · obtain ⟨ks₀, hz₀, rfl | ⟨-, rfl⟩⟩ := hzoo hz
    · exact ha.nodup z hs hz₀
    · exact (ha.nodup z ks₀ hz₀).append (List.nodup_singleton x)
        (List.disjoint_singleton.mpr (hnew hz₀))
  · -- at most one of the two zoos got the animal
    obtain ⟨hs₀, hy₀, rfl | ⟨ey, rfl⟩⟩ := hzoo hy <;>
      obtain ⟨ks₀, hz₀, rfl | ⟨ez, rfl⟩⟩ := hzoo hz
    · exact ha.apart y z hs ks hy₀ hz₀ hne
    · exact List.disjoint_append_right.mpr ⟨ha.apart y z hs ks₀ hy₀ hz₀ hne,
        List.disjoint_singleton.mpr (hnew hy₀)⟩
    · exact List.disjoint_append_left.mpr ⟨ha.apart y z hs₀ ks hy₀ hz₀ hne,
        List.singleton_disjoint.mpr (hnew hz₀)⟩
    · exact absurd (ey.symm.trans ez) hne
  · rw [hget] at hy
    split at hy
    · obtain ⟨o, ho, hpush⟩ := Option.map_eq_some_iff.mp hy
      cases o with
      | iterator hs' k' =>
        obtain ⟨rfl, rfl⟩ := Zoo.Object.iterator.inj hpush
        exact ha.place y hs' k' ho
      | _ => cases hpush
    · exact ha.place y hs k hy

/-- An iterator with an animal left moves on. -/
theorem step (hleft : ∀ hs k, s.zoo.get? it = some (.iterator hs k) → k < hs.length) :
    (Zoo.part.update it Zoo.stepOn s).2.Arranged := by
  intro (hb : s.shared.issued < handleLimit)
  have ha := h hb
  have hget (z : Handle) : (Zoo.part.update it Zoo.stepOn s).2.zoo.get? z =
      if it = z then (s.zoo.get? z).map Zoo.stepOn else s.zoo.get? z :=
    s.zoo.object_update it Zoo.stepOn z
  have hzoo {z : Handle} {ks : List Handle}
      (hz : (Zoo.part.update it Zoo.stepOn s).2.zoo.get? z = some (.zoo ks)) :
      s.zoo.get? z = some (.zoo ks) := by
    rw [hget] at hz
    split at hz
    · obtain ⟨o, ho, hstep⟩ := Option.map_eq_some_iff.mp hz
      cases o with
      | zoo ks₀ => rw [ho, ← hstep]; rfl
      | _ => cases hstep
    · exact hz
  refine ⟨fun z hs hz => ha.old z hs (hzoo hz), fun z hs hz => ha.nodup z hs (hzoo hz),
    fun y z hs ks hy hz => ha.apart y z hs ks (hzoo hy) (hzoo hz), fun y hs k hy => ?_⟩
  rw [hget] at hy
  split at hy
  · next e =>
    obtain ⟨o, ho, hstep⟩ := Option.map_eq_some_iff.mp hy
    cases o with
    | iterator hs' k' =>
      obtain ⟨rfl, rfl⟩ := Zoo.Object.iterator.inj hstep
      exact hleft hs' k' (e ▸ ho)
    | _ => cases hstep
  · exact ha.place y hs k hy

end Process.Arranged

/-! ## New zoos -/

/-- A new object that is no zoo does not change the lists of zoos. -/
theorem zoo_of_insert {o : Zoo.Object} (ho : ∀ hs, o ≠ .zoo hs) {z : Handle} {hs : List Handle}
    (hz : (Zoo.part.insert o s).2.zoo.get? z = some (.zoo hs)) :
    s.zoo.get? z = some (.zoo hs) := by
  have hget : (Zoo.part.insert o s).2.zoo.get? z =
      if s.shared.nextHandle = z then some o else s.zoo.get? z :=
    s.zoo.get?_insert s.shared.nextHandle (s.shared.issued + 1) o z
  rw [hget] at hz
  split at hz
  · exact absurd (Option.some.inj hz) (ho hs)
  · exact hz

theorem nextHandle_le (s : Shared) : s.nextHandle.raw.toNat ≤ s.issued + 1 := by
  show (UInt64.ofNat (s.issued + 1)).toNat ≤ _
  rw [UInt64.toNat_ofNat']
  exact Nat.mod_le _ _

theorem Observed.insert (h : Observed Process.Arranged J s) {o : Zoo.Object}
    (ho : ∀ hs, o ≠ .zoo hs) (hplace : ∀ hs k, o = .iterator hs k → k = 0) :
    Observed Process.Arranged J (Zoo.part.insert o s).2 :=
  ⟨h.1.same rfl rfl rfl,
    h.2.insert (fun _ hs e => absurd e (ho hs)) hplace⟩

/-- New animals are higher than `n` and all different. -/
theorem insertAll_arranged {E : Fault → Process ω → Prop} (animals : Zoo.Roll)
    {φ : Process ω → Prop}
    (hφ : ∀ {s} species name, φ s → φ (Zoo.part.insert (.animal species name) s).2) (n : Nat) :
    Does (fun s => Observed Process.Arranged J s ∧ φ s ∧ n ≤ s.shared.issued)
      (Zoo.insertAll animals)
      (fun hs s => (Observed Process.Arranged J s ∧ φ s) ∧ (s.shared.issued < handleLimit →
        hs.Nodup ∧ ∀ y ∈ hs, n < y.raw.toNat ∧ y.raw.toNat ≤ s.shared.issued)) E := by
  induction animals generalizing φ n with
  | nil => exact .pure fun s h => ⟨⟨h.1, h.2.1⟩, fun _ => ⟨List.nodup_nil, by simp⟩⟩
  | cons a rest ih =>
    -- the others are higher than the first one
    refine .bind (Q := fun y s => Observed Process.Arranged J s ∧
      (φ s ∧ (s.shared.issued < handleLimit → n < y.raw.toNat) ∧
        y.raw.toNat ≤ s.shared.issued) ∧ y.raw.toNat ≤ s.shared.issued) (fun s h => ?_)
      fun y => ?_
    · have hle := nextHandle_le s.shared
      refine ⟨h.1.insert (by simp) (by simp), ⟨hφ _ _ h.2.1, ?_, hle⟩, hle⟩
      intro (hb : s.shared.issued + 1 < handleLimit)
      have hraw := Shared.nextHandle_raw (Nat.lt_of_succ_lt hb)
      exact hraw ▸ Nat.lt_succ_of_le h.2.2
    · refine .bind (ih (fun {s} species name h => ⟨hφ species name h.1, fun hb => h.2.1
        (Nat.lt_of_succ_lt hb), Nat.le_succ_of_le h.2.2⟩) y.raw.toNat) fun hs =>
        .pure fun s h => ?_
      obtain ⟨⟨hs₀, hφs, hn, hy⟩, hnew⟩ := h
      refine ⟨⟨hs₀, hφs⟩, fun hb => ?_⟩
      obtain ⟨hnodup, hhigh⟩ := hnew hb
      refine ⟨List.nodup_cons.mpr ⟨fun hm => Nat.lt_irrefl _ (hhigh y hm).1, hnodup⟩, ?_⟩
      rintro z (_ | ⟨_, hz⟩)
      · exact ⟨hn hb, hy⟩
      · exact ⟨(hn hb).trans (hhigh z hz).1, (hhigh z hz).2⟩

/-- The animals of a new zoo are new. -/
theorem createZoo_arranged (cell : Cell FatHandle) :
    Ends (Observed (ω := ω) Process.Arranged J) (Zoo.createZoo cell)
      fun _ => Observed Process.Arranged J := by
  intro s₀ h₀
  -- no zoo has any of the handles issued from here on
  let Before (s : Process ω) : Prop := s.shared.issued < handleLimit →
    ∀ z hs, s.zoo.get? z = some (.zoo hs) → ∀ y ∈ hs, y.raw.toNat ≤ s₀.shared.issued
  have hbefore : ∀ {s} species name, Before s →
      Before (Zoo.part.insert (.animal species name) s).2 := fun {s} species name h hb z hs hz =>
    h (Nat.lt_of_succ_lt hb) z hs (zoo_of_insert (by simp) hz)
  suffices h : Ends (fun s => Observed Process.Arranged J s ∧ Before s ∧
      s₀.shared.issued ≤ s.shared.issued) (Zoo.createZoo cell)
      fun _ => Observed Process.Arranged J from
    h s₀ ⟨h₀, fun hb => (h₀.2 hb).old, le_rfl⟩
  refine Part.guard_leaves ?_ fun why s h => h.fewer arranged_lasts (zooBerth.fail _ why s)
  refine .bind ((Fixed.require_fares cell).failing fun _ _ h => h.2.1) fun _ => ?_
  refine .bind (insertAll_arranged Zoo.defaults hbefore s₀.shared.issued) fun hs => ?_
  refine .bind (Q := fun _ => Observed Process.Arranged J) (fun s h => ?_) fun x =>
    .bind ((Zoo.fat_fares x).failing fun _ _ h => h.2) fun _ => .pure fun _ h => h
  obtain ⟨⟨hs₀, hold⟩, hnew⟩ := h
  refine ⟨hs₀.1.same rfl rfl rfl,
    hs₀.2.insert (fun hb ks e => ?_) (fun _ _ e => by cases e)⟩
  obtain rfl := Zoo.Object.zoo.inj e
  obtain ⟨hnodup, hhigh⟩ := hnew hb
  refine ⟨hnodup, fun y hy => (hhigh y hy).2, fun z ks hz y hy hk => ?_⟩
  exact absurd ((hhigh y hy).1) (Nat.not_lt.mpr (hold hb z ks hz y hk))

/-! ## Animals that are added -/

/-- The animal that is added is new. -/
theorem addAnimal_arranged (zoo : Handle) (species : UInt32) (name : TextArg) :
    Ends (Observed (ω := ω) Process.Arranged J) (Zoo.addAnimal zoo species name)
      fun _ => Observed Process.Arranged J := by
  refine Part.guard_leaves ?_ fun why s h => h.fewer arranged_lasts (zooBerth.fail _ why s)
  refine .bind ((Zoo.animalsOf_fares zoo).failing fun _ _ h => h.2) fun _ => ?_
  split
  · next species _ =>
    refine .bind (.lift (fun _ _ _ h => h) fun _ _ _ h => h) fun name => ?_
    refine .ite (fun _ => .throw_bind fun _ h => h) fun _ => ?_
    refine .bind (Q := fun x s => Observed Process.Arranged J s ∧ s.Tops x) (fun s h => ?_)
      fun x s h => ⟨h.1.1.same rfl rfl rfl, h.1.2.push h.2 zoo⟩
    refine ⟨h.insert (by simp) (by simp), fun (hb : s.shared.issued + 1 < handleLimit) => ?_⟩
    have hraw := Shared.nextHandle_raw (Nat.lt_of_succ_lt hb)
    refine ⟨hraw.le, fun z hs hz y hy => ?_⟩
    have := (h.2 (Nat.lt_of_succ_lt hb)).old z hs (zoo_of_insert (by simp) hz) y hy
    show y.raw.toNat < s.shared.nextHandle.raw.toNat
    omega
  · exact .throw fun _ h => h

/-! ## Iterators that move on -/

def Process.Left (it : Handle) (s : Process ω) : Prop :=
  ∀ hs k, s.zoo.get? it = some (.iterator hs k) → k < hs.length

theorem left_lasts : Lasts (ω := ω) (Process.Left it) :=
  fun h l hs k hk => h hs k (l.objects it _ hk)

theorem advance_arranged (it : Handle) :
    Does (Observed (ω := ω) Process.Arranged J) (Zoo.advance it)
      (fun _ => Observed Process.Arranged J)
      fun why s => why.code ≠ Status.ok ∧ Observed Process.Arranged J s := by
  refine .bind (Zoo.part.get_finds it) fun o => ?_
  cases o with
  | iterator hs k =>
    dsimp only
    split
    · exact .pure fun _ h => h.1
    · next x hx =>
      have hleft {s : Process ω} (h : s.zoo.get? it = some (.iterator hs k)) : s.Left it := by
        intro hs' k' h'
        obtain ⟨rfl, rfl⟩ := Zoo.Object.iterator.inj (Option.some.inj (h.symm.trans h'))
        exact (List.getElem?_eq_some_iff.mp hx).1
      refine .bind (Q := fun _ s => Observed Process.Arranged J s ∧ s.Left it)
        (((Zoo.fat_fares x).failing fun _ _ h => ⟨h.1, h.2.1⟩).post
          fun _ s h => ⟨h.1, hleft h.2⟩) fun animal => ?_
      refine .bind (Q := fun _ s => Observed Process.Arranged J s ∧ s.Left it)
        ((zooBerth.outlastsRefs (P := fun s => Observed Process.Arranged J s ∧ s.Left it) fun h l =>
          ⟨h.1.fewer arranged_lasts l, left_lasts h.2 l.thinned⟩).acquire_fares x |>.failing
          fun _ _ h => ⟨h.1, h.2.1⟩) fun _ => ?_
      refine .bind (Q := fun _ => Observed Process.Arranged J) (fun s h => ?_)
        fun _ => .pure fun _ h => h
      exact ⟨h.1.1.same rfl rfl rfl, h.1.2.step h.2⟩
  | _ => exact .throw fun _ h => ⟨by decide, h.1⟩

theorem next_arranged {c : Call ρ} (hc : c.advances = some it) (via : Invoker (Process ω)) :
    Ends (Observed Process.Arranged J) (perform out via c)
      fun _ => Observed Process.Arranged J := by
  refine (next_told (R := Observed Process.Arranged J) hc (fun _ h => h)
    (fun why s h => h.fewer arranged_lasts (zooBerth.fail _ why s))
    ((advance_arranged it).post fun _ _ h => ⟨h, fun _ => h⟩) via).post fun r s h => ?_
  rwa [ite_self] at h

/-! ## All calls -/

theorem perform_arranged (q : OutsideOnly J out) (c : Call ρ)
    (hover : ∀ a, c.handedOver = some a → a.Native) :
    Ends (Observed Process.Arranged J) (perform out (out.reach .none) c)
      fun _ => Observed Process.Arranged J := by
  cases c with
  | createZoo cell => exact createZoo_arranged cell
  | addAnimal zoo species name => exact addAnimal_arranged zoo species name
  | nextAnimal it animal has => exact next_arranged rfl _
  | nextMandatoryAnimal it animal => exact next_arranged rfl _
  | iterator zoo cell =>
    refine perform_observed q arranged_lasts ⟨fun o ho s h => ?_, fun _ h => ?_, fun _ h => ?_⟩
      hover
    · cases o with
      | iterator hs k => exact h.insert (by simp) fun _ _ e => (Zoo.Object.iterator.inj e).2 ▸ ho
      | _ => exact ho.elim
    · cases h
    · cases h
  | _ =>
    refine perform_observed q arranged_lasts ⟨fun o ho => ?_, fun _ h => ?_, fun _ h => ?_⟩ hover
    · exact ho.elim
    · cases h
    · cases h

namespace Session

theorem arranged_staged {out : Outside World} (q : Harmless out) :
    Staged out .all fun J _ => Observed Process.Arranged J :=
  observed_staged arranged_lasts fun c ws ls hover => perform_arranged (q ws ls) c hover

/-- In every session the lists of zoos and iterators are in order. -/
theorem Run.arranged {out : Outside World} {s : Process World} (q : Harmless out)
    (r : Run out { outer := {} } s) : s.Arranged := by
  refine r.observed arranged_lasts (arranged_staged q) ready_start fun _ => ?_
  have hnone (x : Handle) : ({ outer := {} } : Process World).zoo.get? x = none := by
    rw [Table.get?, Handle.Map.get?_empty, Option.map_none]
  refine ⟨fun z _ hz => ?_, fun z _ hz => ?_, fun y _ _ _ hy => ?_, fun y _ _ hy => ?_⟩
  · rw [hnone z] at hz
    cases hz
  · rw [hnone z] at hz
    cases hz
  · rw [hnone y] at hy
    cases hy
  · rw [hnone y] at hy
    cases hy

end Session

end Boundary
