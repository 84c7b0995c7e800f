/-
  Boundary.Proofs.Cascade — the recursion of releases, and that it ends.

  A release that takes the last reference removes the slot and then releases, one after the other,
  what the object owned; each of these calls may do the same. `Runs` writes the recursion down as it
  is, with no measure and no list of what is left to do: its derivations are the call trees that end.
  A count of zero, from which no reference could be taken, has no rule.

  The cascade works through a list instead. It comes to the same end as any call tree that ends
  (`Runs.run`), so there is at most one; and there is one, whatever owns what: a slot goes before the
  handles that it owned are released, so every nested call is paid for by an entry of a list that is
  no longer in the table (`Runs.weight`).

  Proved: on every table whose objects have a reference each, a release ends; no count falls below
  one on the way; every object that is gone was destroyed by one call; and the calls made are the
  first one and one for each entry that the destroyed objects owned (`release_ends`).
-/
import Boundary.Proofs.Balance
import Mathlib.Algebra.GroupWithZero.Nat

namespace Boundary

namespace Table

variable {O : Type}

def Referenced (t : Table O) : Prop := ∀ x s, t.slots.get? x = some s → 0 < s.count.toNat

noncomputable def roster (t : Table O) : Finset Handle := Finset.univ.filter (t.live · = true)

theorem mem_roster {t : Table O} {x : Handle} : x ∈ t.roster ↔ t.live x = true := by
  simp [roster]

def destroyedBy (made : List Release) : List Handle :=
  (made.filter fun r => r.fate == .destroyed).map (·.handle)

theorem destroyedBy_destroyed (h : Handle) (owner : Option Handle) (nested made : List Release) :
    destroyedBy (⟨h, owner, .destroyed⟩ :: (nested ++ made)) =
      h :: (destroyedBy nested ++ destroyedBy made) := by
  simp [destroyedBy]

theorem destroyedBy_spared {h : Handle} {owner : Option Handle} {fate : Fate}
    (hf : fate ≠ .destroyed) (made : List Release) :
    destroyedBy (⟨h, owner, fate⟩ :: made) = destroyedBy made := by
  simp [destroyedBy, hf]

/-! ## Call trees -/

variable [Resource O]

/-- The handles in the list are released one after the other, on behalf of `owner`: what is left of
    the table, and all calls that took, each before those nested in it. -/
inductive Runs : Table O → Option Handle → List Handle → Table O → List Release → Prop
  | done (t : Table O) (owner : Option Handle) : Runs t owner [] t []
  | null {t t' : Table O} {owner : Option Handle} {h : Handle} {rest : List Handle}
      {made : List Release} : h.isNull = true → Runs t owner rest t' made →
      Runs t owner (h :: rest) t' (⟨h, owner, .null⟩ :: made)
  /-- A call that fails does not stop the others. -/
  | unknown {t t' : Table O} {owner : Option Handle} {h : Handle} {rest : List Handle}
      {made : List Release} : h.isNull = false → t.slots.get? h = none → Runs t owner rest t' made →
      Runs t owner (h :: rest) t' (⟨h, owner, .unknown⟩ :: made)
  | kept {t t' : Table O} {owner : Option Handle} {h : Handle} {rest : List Handle} {s : Slot O}
      {made : List Release} : h.isNull = false → t.slots.get? h = some s → 1 < s.count.toNat →
      Runs (t.setCount h (s.count - 1)) owner rest t' made →
      Runs t owner (h :: rest) t' (⟨h, owner, .kept⟩ :: made)
  /-- The slot is removed first; then what the object owned is released on its behalf. -/
  | destroyed {t between t' : Table O} {owner : Option Handle} {h : Handle} {rest : List Handle}
      {s : Slot O} {nested made : List Release} : h.isNull = false → t.slots.get? h = some s →
      s.count.toNat = 1 → Runs (t.destroy h s) (some h) (Resource.owned s.object) between nested →
      Runs between owner rest t' made →
      Runs t owner (h :: rest) t' (⟨h, owner, .destroyed⟩ :: (nested ++ made))

/-! ## The cascade -/

section

variable {t t' : Table O} {owner : Option Handle} {hs : List Handle} {made : List Release}

theorem count_le_one {n : UInt32} : n ≤ 1 ↔ n.toNat ≤ 1 := UInt32.le_iff_toNat_le

/-- Work that a call tree begins with comes to the end of the tree. -/
theorem Runs.cascade (r : Runs t owner hs t' made) (calls : List Release)
    (work : List (Handle × Option Handle)) :
    t.cascade calls (hs.map (·, owner) ++ work) = t'.cascade (made.reverse ++ calls) work := by
  induction r generalizing calls work with
  | done => rfl
  | null hn _ ih =>
    rw [List.map_cons, List.cons_append, Table.cascade, releaseOnce_null _ hn]
    simpa using ih _ work
  | unknown hn hx _ ih =>
    rw [List.map_cons, List.cons_append, Table.cascade, releaseOnce_unknown hn hx]
    simpa using ih _ work
  | kept hn hx h1 _ ih =>
    have h1 := mt count_le_one.mp (Nat.not_le.mpr h1)
    rw [List.map_cons, List.cons_append, Table.cascade, releaseOnce_kept hn hx h1]
    simpa using ih _ work
  | destroyed hn hx h1 _ _ ihn ih =>
    have h1 := count_le_one.mpr (Nat.le_of_eq h1)
    rw [List.map_cons, List.cons_append, Table.cascade, releaseOnce_last hn hx h1]
    dsimp only
    rw [ihn, ih]
    simp

/-- The cascade comes to the end of the call tree. -/
theorem Runs.run (r : Runs t owner hs t' made) : t.cascade [] (hs.map (·, owner)) = (t', made) := by
  have h := r.cascade [] []
  rw [List.append_nil, List.append_nil, Table.cascade, List.reverse_reverse] at h
  exact h

/-! ## It ends -/

/-- Every call was in the list, or is paid for by an entry that is gone from the table. -/
theorem Runs.weight (r : Runs t owner hs t' made) :
    t'.weight + made.length = t.weight + hs.length := by
  induction r with
  | done => rfl
  | null _ _ ih | unknown _ _ _ ih =>
    simp only [List.length_cons]
    omega
  | kept _ _ _ _ ih =>
    rw [weight_setCount] at ih
    simp only [List.length_cons]
    omega
  | destroyed _ hx _ _ _ ihn ih =>
    have := weight_destroy hx
    simp only [List.length_cons, List.length_append]
    omega

omit [Resource O] in
theorem Referenced.setCount (ht : t.Referenced) {h : Handle} {s : Slot O} (h1 : 1 < s.count.toNat) :
    (t.setCount h (s.count - 1)).Referenced := by
  intro x a hx
  rw [get?_setCount] at hx
  split at hx
  · obtain ⟨b, -, rfl⟩ := Option.map_eq_some_iff.mp hx
    have := toNat_sub_one (mt count_le_one.mp (Nat.not_le.mpr h1))
    show 0 < (s.count - 1).toNat
    omega
  · exact ht x a hx

omit [Resource O] in
theorem Referenced.destroy (ht : t.Referenced) (h : Handle) (s : Slot O) :
    (t.destroy h s).Referenced := by
  intro x a hx
  rw [get?_destroy] at hx
  split at hx
  · cases hx
  · exact ht x a hx

theorem Runs.referenced (r : Runs t owner hs t' made) (ht : t.Referenced) : t'.Referenced := by
  induction r with
  | done => exact ht
  | null _ _ ih | unknown _ _ _ ih => exact ih ht
  | kept _ _ h1 _ ih => exact ih (ht.setCount h1)
  | destroyed _ _ _ _ _ ihn ih => exact ih (ihn (ht.destroy _ _))

/-- Handles that are released come to an end. The recursion goes by what the table and the list
    hold together: a nested call comes from a slot that is gone. -/
theorem Referenced.runs {t : Table O} (ht : t.Referenced) (owner : Option Handle)
    (hs : List Handle) : ∃ t' made, Runs t owner hs t' made := by
  match hs with
  | [] => exact ⟨t, [], .done t owner⟩
  | h :: rest =>
    cases hn : h.isNull with
    | true =>
      obtain ⟨t', made, r⟩ := Referenced.runs ht owner rest
      exact ⟨t', _, .null hn r⟩
    | false =>
    cases hx : t.slots.get? h with
    | none =>
      obtain ⟨t', made, r⟩ := Referenced.runs ht owner rest
      exact ⟨t', _, .unknown hn hx r⟩
    | some s =>
      have hpos := ht h s hx
      by_cases h1 : s.count.toNat = 1
      · have hweight := weight_destroy hx
        obtain ⟨between, nested, rn⟩ :=
          Referenced.runs (ht.destroy h s) (some h) (Resource.owned s.object)
        have hbetween := rn.weight
        obtain ⟨t', made, r⟩ := Referenced.runs (rn.referenced (ht.destroy h s)) owner rest
        exact ⟨t', _, .destroyed hn hx h1 rn r⟩
      · have h1 : 1 < s.count.toNat := by omega
        have hweight := weight_setCount t h (s.count - 1)
        obtain ⟨t', made, r⟩ := Referenced.runs (ht.setCount (h := h) h1) owner rest
        exact ⟨t', _, .kept hn hx h1 r⟩
  termination_by t.weight + hs.length
  decreasing_by all_goals simp only [List.length_cons]; omega

/-! ## What is destroyed -/

/-- Slots that are left were there before, with the same object. -/
theorem Runs.slots (r : Runs t owner hs t' made) {x : Handle} {a' : Slot O}
    (hx : t'.slots.get? x = some a') : ∃ a, t.slots.get? x = some a ∧ a'.object = a.object := by
  have hrun : (t.cascade [] (hs.map (·, owner))).1.slots.get? x = some a' := by rwa [r.run]
  obtain ⟨a, ha, -, hobject⟩ := cascade_slots t [] (hs.map (·, owner)) hrun
  exact ⟨a, ha, hobject⟩

theorem Runs.live (r : Runs t owner hs t' made) {x : Handle} (hx : t'.live x = true) :
    t.live x = true := by
  obtain ⟨a', ha'⟩ := live_iff.mp hx
  obtain ⟨a, ha, -⟩ := r.slots ha'
  exact live_iff.mpr ⟨a, ha⟩

theorem Runs.ownedBy (r : Runs t owner hs t' made) {x : Handle} (hx : t'.live x = true) :
    t'.ownedBy x = t.ownedBy x := by
  obtain ⟨a', ha'⟩ := live_iff.mp hx
  obtain ⟨a, ha, hobject⟩ := r.slots ha'
  rw [ownedBy_some ha', ownedBy_some ha, hobject]

omit [Resource O] in
theorem live_setCount (t : Table O) (h x : Handle) (n : UInt32) :
    (t.setCount h n).live x = t.live x := by
  simp only [Table.live, Handle.Map.contains, get?_setCount]
  split <;> simp

omit [Resource O] in
theorem live_destroy (t : Table O) (h x : Handle) (s : Slot O) :
    (t.destroy h s).live x = true ↔ h ≠ x ∧ t.live x = true := by
  simp only [Table.live, Handle.Map.contains, get?_destroy]
  split <;> simp [*]

theorem ownedBy_setCount (t : Table O) (h x : Handle) (n : UInt32) :
    (t.setCount h n).ownedBy x = t.ownedBy x := by
  simp only [Table.ownedBy, get?, get?_setCount]
  split
  · cases t.slots.get? x <;> rfl
  · rfl

theorem ownedBy_destroy (t : Table O) {h x : Handle} (s : Slot O) (hne : h ≠ x) :
    (t.destroy h s).ownedBy x = t.ownedBy x := by
  simp only [Table.ownedBy, get?, get?_destroy, if_neg hne]

/-- The objects that are gone were destroyed, by one call each. -/
theorem Runs.gone (r : Runs t owner hs t' made) :
    (destroyedBy made).Nodup ∧ ∀ x, x ∈ destroyedBy made ↔ t.live x = true ∧ t'.live x = false := by
  induction r with
  | done => simp [destroyedBy]
  | null _ _ ih | unknown _ _ _ ih => simpa [destroyedBy_spared] using ih
  | kept _ _ _ _ ih => simpa [destroyedBy_spared, live_setCount] using ih
  | @destroyed t between t' owner h rest s nested made hn hx h1 rn r ihn ih =>
    obtain ⟨hnodupn, hmemn⟩ := ihn
    obtain ⟨hnodup, hmem⟩ := ih
    have hgone : between.live h = false := by
      by_contra hlive
      exact ((live_destroy t h h s).mp (rn.live (by simpa using hlive))).1 rfl
    rw [destroyedBy_destroyed]
    constructor
    · refine List.nodup_cons.mpr ⟨fun hin => ?_, List.nodup_append.mpr ⟨hnodupn, hnodup, ?_⟩⟩
      · rcases List.mem_append.mp hin with hin | hin
        · exact ((live_destroy t h h s).mp ((hmemn h).mp hin).1).1 rfl
        · simpa [hgone] using ((hmem h).mp hin).1
      · -- what the nested calls destroyed is not there for the later ones
        rintro x hxn _ hxm rfl
        have := ((hmemn x).mp hxn).2
        simp [((hmem x).mp hxm).1] at this
    · intro x
      rw [List.mem_cons, List.mem_append, hmemn, hmem, live_destroy]
      have hback : between.live x = true → h ≠ x ∧ t.live x = true := fun hb =>
        (live_destroy t h x s).mp (rn.live hb)
      have hafter : t'.live x = true → between.live x = true := r.live
      have hlive : t.live h = true := live_iff.mpr ⟨s, hx⟩
      constructor
      · rintro (rfl | ⟨⟨-, ht⟩, hb⟩ | ⟨hb, ht'⟩)
        · exact ⟨hlive, by simpa [hgone] using mt hafter⟩
        · exact ⟨ht, by simpa [hb] using mt hafter⟩
        · exact ⟨(hback hb).2, ht'⟩
      · rintro ⟨ht, ht'⟩
        by_cases hxh : x = h
        · exact .inl hxh
        cases hb : between.live x with
        | true => exact .inr (.inr ⟨rfl, ht'⟩)
        | false => exact .inr (.inl ⟨⟨Ne.symm hxh, ht⟩, rfl⟩)

/-- The calls made are those asked for, and one for each entry that a destroyed object owned. -/
theorem Runs.calls (r : Runs t owner hs t' made) :
    made.length = hs.length + ((destroyedBy made).map fun x => (t.ownedBy x).length).sum := by
  induction r with
  | done => rfl
  | null _ _ ih | unknown _ _ _ ih =>
    simp only [destroyedBy_spared, List.length_cons, ne_eq, reduceCtorEq, not_false_eq_true, ih]
    omega
  | kept _ _ _ _ ih =>
    simp only [ownedBy_setCount] at ih
    simp only [destroyedBy_spared, List.length_cons, ne_eq, reduceCtorEq, not_false_eq_true, ih]
    omega
  | @destroyed t between t' owner h rest s nested made hn hx h1 rn r ihn ih =>
    have hnested : (destroyedBy nested).map (fun x => ((t.destroy h s).ownedBy x).length) =
        (destroyedBy nested).map fun x => (t.ownedBy x).length := by
      refine List.map_congr_left fun x hin => ?_
      have hne := ((live_destroy t h x s).mp ((rn.gone.2 x).mp hin).1).1
      rw [ownedBy_destroy t s hne]
    have hmade : (destroyedBy made).map (fun x => (between.ownedBy x).length) =
        (destroyedBy made).map fun x => (t.ownedBy x).length := by
      refine List.map_congr_left fun x hin => ?_
      have hlive := ((r.gone.2 x).mp hin).1
      rw [rn.ownedBy hlive, ownedBy_destroy t s ((live_destroy t h x s).mp (rn.live hlive)).1]
    rw [destroyedBy_destroyed, List.map_cons, List.map_append, List.sum_cons, List.sum_append,
      ownedBy_some hx, List.length_cons, List.length_append, List.length_cons, ihn, ih, hnested, hmade]
    omega

/-- Of the entries in the table, no more are released than there are. -/
theorem Runs.bounded (r : Runs t owner hs t' made) :
    made.length ≤ hs.length + ∑ x ∈ t.roster, (t.ownedBy x).length := by
  obtain ⟨hnodup, hmem⟩ := r.gone
  have hsub : (destroyedBy made).toFinset ⊆ t.roster := fun x hx =>
    mem_roster.mpr ((hmem x).mp (List.mem_toFinset.mp hx)).1
  rw [r.calls, ← List.sum_toFinset _ hnodup]
  exact Nat.add_le_add_left (Finset.sum_le_sum_of_subset hsub) _

end

/-! ## Releases -/

/-- A release of any handle ends, and comes to one end alone, on every table whose objects have a
    reference each. They still do afterwards; an object is gone exactly if a call destroyed it, and
    then one call did; and besides the first call there is one for each entry in the lists of the
    objects destroyed, so no more than the lists of all live objects have. -/
theorem release_ends {t : Table O} (ht : t.Referenced) (h : Handle) :
    ∃ t' made, Runs t none [h] t' made ∧ t.release h = (t', made) ∧
      (∀ u others, Runs t none [h] u others → u = t' ∧ others = made) ∧ t'.Referenced ∧
      (destroyedBy made).Nodup ∧
      (∀ x, x ∈ destroyedBy made ↔ t.live x = true ∧ t'.live x = false) ∧
      made.length = 1 + ((destroyedBy made).map fun x => (t.ownedBy x).length).sum ∧
      made.length ≤ 1 + ∑ x ∈ t.roster, (t.ownedBy x).length := by
  obtain ⟨t', made, r⟩ := ht.runs none [h]
  refine ⟨t', made, r, r.run, fun u others r' => ?_, r.referenced ht, r.gone.1, r.gone.2, r.calls,
    r.bounded⟩
  exact Prod.mk.inj (r'.run.symm.trans r.run)

/-- Both nodes of the ring go, and all five entries of theirs are released. -/
theorem release_ring_ends : ring.Referenced ∧ ∃ t' made, ring.release ⟨1⟩ = (t', made) ∧
    Runs ring none [⟨1⟩] t' made ∧ destroyedBy made = [⟨1⟩, ⟨2⟩] ∧ made.length = 6 ∧
    made.length = 1 + ((destroyedBy made).map fun x => (ring.ownedBy x).length).sum := by
  have hr : ring.Referenced := counted_ring.pos
  obtain ⟨t', made, r, hrun, -, -, -, -, hcalls, -⟩ := release_ends hr ⟨1⟩
  have hmade : made = (ring.release ⟨1⟩).2 := by rw [hrun]
  have hdestroyed : destroyedBy (ring.release ⟨1⟩).2 = [⟨1⟩, ⟨2⟩] := by decide +kernel
  have hlength : (ring.release ⟨1⟩).2.length = 6 := by decide +kernel
  exact ⟨hr, t', made, hrun, r, hmade ▸ hdestroyed, hmade ▸ hlength, hcalls⟩

end Table

end Boundary
