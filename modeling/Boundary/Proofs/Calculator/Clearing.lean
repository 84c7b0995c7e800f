/-
  Boundary.Proofs.Calculator.Clearing — what a calculator gives back when it is cleared.

  A destroyed calculator has its variables released one after the other, and one that is gone
  already does not matter (`Table.releaseEach`). A cleared calculator has them released in the
  same order, but the first one that is gone ends the call. Its list is empty by then, so the
  references behind that entry are held by nobody and never come back.

  Proved:
  - the cascade of a destruction is releases one after the other (`Table.cascade_each`), and it is
    of no matter to them whether a cleared calculator is still there (`Table.Beside.cascade`);
  - clearing gives back the references up to the first entry that is gone, and all of them exactly
    if no entry from there on is live (`clearVariables_gives_back`).
-/
import Boundary.Proofs.Intact.Tables
import Boundary.Proofs.Reached.Classes

namespace Boundary

variable {O : Type}

def Slot.fewer (a : Slot O) : Option (Slot O) :=
  if a.count ≤ 1 then none else some { a with count := a.count - 1 }

namespace Table

variable [Resource O] {t t' u : Table O} {c v x : Handle} {due vs ws : List Handle}

/-! ## One call -/

/-- A call changes the slot that it is for. -/
theorem get?_releaseOnce (t : Table O) (hx : x.isNull = false) (y : Handle) :
    (t.releaseOnce x).1.slots.get? y =
      if x = y then (t.slots.get? y).bind Slot.fewer else t.slots.get? y := by
  by_cases e : x = y
  · subst e
    rw [if_pos rfl]
    cases hs : t.slots.get? x with
    | none => rw [(releaseOnce_none hs).1, hs, Option.bind_none]
    | some a =>
      rw [Option.bind_some, Slot.fewer]
      split
      · next h1 => rw [releaseOnce_last hx hs h1, get?_destroy, if_pos rfl]
      · next h1 => rw [releaseOnce_kept hx hs h1, get?_setCount, if_pos rfl, hs, Option.map_some]
  · rw [if_neg e]
    cases hs : t.slots.get? x with
    | none => rw [(releaseOnce_none hs).1]
    | some a =>
      by_cases h1 : a.count ≤ 1
      · rw [releaseOnce_last hx hs h1, get?_destroy, if_neg e]
      · rw [releaseOnce_kept hx hs h1, get?_setCount, if_neg e]

theorem get?_releaseOnce_ne {y : Handle} (t : Table O) (h : x ≠ y) :
    (t.releaseOnce x).1.slots.get? y = t.slots.get? y := by
  cases hx : x.isNull with
  | true => rw [releaseOnce_null t hx]
  | false => rw [get?_releaseOnce t hx, if_neg h]

/-- What it frees was owned by the object of that slot. -/
theorem freed_releaseOnce (t : Table O) (hx : x.isNull = false) :
    (t.releaseOnce x).2.2 = (t.slots.get? x).elim [] fun a =>
      if a.count ≤ 1 then Resource.owned a.object else [] := by
  cases hs : t.slots.get? x with
  | none => exact (releaseOnce_none hs).2
  | some a =>
    rw [Option.elim_some]
    split
    · next h1 => rw [releaseOnce_last hx hs h1]
    · next h1 => rw [releaseOnce_kept hx hs h1]

theorem mem_ownedBy_freed (h : v ∈ (t.releaseOnce x).2.2) : v ∈ t.ownedBy x := by
  cases hx : x.isNull with
  | true =>
    rw [releaseOnce_null t hx] at h
    cases h
  | false =>
    rw [freed_releaseOnce t hx] at h
    cases hs : t.slots.get? x with
    | none =>
      rw [hs] at h
      cases h
    | some a =>
      rw [hs, Option.elim_some] at h
      rw [ownedBy_some hs]
      split at h
      · exact h
      · cases h

/-- What an object owns does not change with its count. -/
theorem mem_ownedBy_releaseOnce {y : Handle} (h : v ∈ (t.releaseOnce x).1.ownedBy y) :
    v ∈ t.ownedBy y := by
  cases hx : x.isNull with
  | true => rwa [releaseOnce_null t hx] at h
  | false =>
    rw [ownedBy, get?, get?_releaseOnce t hx] at h
    split at h
    · cases hs : t.slots.get? y with
      | none =>
        rw [hs] at h
        cases h
      | some a =>
        rw [hs, Option.bind_some, Slot.fewer] at h
        rw [ownedBy_some hs]
        split at h
        · cases h
        · exact h
    · exact h

/-! ## One release after the other -/

/-- The handles are released in turn. Nothing comes of it where an object is gone. -/
def releaseEach (t : Table O) : List Handle → Table O
  | [] => t
  | v :: rest => (t.release v).1.releaseEach rest

theorem releaseEach_append (t : Table O) (vs ws : List Handle) :
    t.releaseEach (vs ++ ws) = (t.releaseEach vs).releaseEach ws := by
  induction vs generalizing t with
  | nil => rfl
  | cons v rest ih => exact ih _

/-- A cascade that has more to do does it afterwards. By induction on what is owned and due
    together, for a cascade goes on with what a call has freed. -/
theorem cascade_each (t : Table O) (calls : List Release) (work : List (Handle × Option Handle)) :
    (t.cascade calls work).1 = t.releaseEach (work.map Prod.fst) := by
  induction hm : t.weight + work.length using Nat.strong_induction_on
    generalizing t calls work with
  | _ m ih =>
    subst hm
    cases work with
    | nil =>
      rw [cascade]
      rfl
    | cons w rest =>
      obtain ⟨x, owner⟩ := w
      have hweight := weight_releaseOnce t x
      have hrelease : (t.release x).1 =
          (t.releaseOnce x).1.releaseEach (t.releaseOnce x).2.2 := by
        rw [release, cascade, ih _ ?_ _ _ _ rfl]
        · simp [Function.comp_def]
        · simp only [List.length_append, List.length_map, List.length_nil, List.length_cons]
          omega
      rw [cascade, ih _ ?_ _ _ _ rfl]
      · rw [List.map_append, List.map_map, releaseEach_append, List.map_cons, releaseEach, hrelease]
        simp [Function.comp_def]
      · simp only [List.length_append, List.length_map, List.length_cons]
        omega

/-- What is due together is released in turn, whoever owned it. -/
theorem cascade_map (t : Table O) (calls : List Release) (owner : Option Handle)
    (vs : List Handle) : (t.cascade calls (vs.map (·, owner))).1 = t.releaseEach vs := by
  rw [cascade_each, List.map_map]
  exact congrArg t.releaseEach (List.map_id' vs)

/-- The release of the last reference destroys an object, and then releases what it owned. -/
theorem release_last {a : Slot O} (hx : x.isNull = false) (hs : t.slots.get? x = some a)
    (h1 : a.count ≤ 1) :
    (t.release x).1 = (t.destroy x a).releaseEach (Resource.owned a.object) := by
  rw [release, cascade, releaseOnce_last hx hs h1, List.append_nil]
  exact cascade_map _ _ _ _

theorem releaseEach_drained (t : Table O) (vs : List Handle) : Drained t vs (t.releaseEach vs) := by
  have d := cascade_drained t [] (vs.map (·, none))
  rw [cascade_map, List.map_map] at d
  rwa [show vs.map (Prod.fst ∘ (·, none)) = vs from List.map_id' vs] at d

/-- Objects stay as they are until they are gone. -/
theorem releaseEach_slots {a : Slot O} (h : (t.releaseEach vs).slots.get? x = some a) :
    ∃ b, t.slots.get? x = some b ∧ a.object = b.object := by
  rw [← cascade_map t [] none vs] at h
  obtain ⟨b, hb, -, hobject⟩ := cascade_slots t [] (vs.map (·, none)) h
  exact ⟨b, hb, hobject⟩

/-- Nothing comes of releasing what is not there. -/
theorem releaseEach_gone (h : ∀ v ∈ vs, v.isNull = false → t.live v = false) :
    t.releaseEach vs = t := by
  induction vs with
  | nil => rfl
  | cons v rest ih =>
    have hv : (t.release v).1 = t := by
      cases hn : v.isNull with
      | true => rw [release_single (releaseOnce_null t hn)]
      | false =>
        have hlive := h v List.mem_cons_self hn
        cases hs : t.slots.get? v with
        | none => rw [release_single (releaseOnce_unknown hn hs)]
        | some a => exact absurd (live_iff.mpr ⟨a, hs⟩) (by simp [hlive])
    rw [releaseEach, hv]
    exact ih fun w hw => h w (List.mem_cons_of_mem v hw)

/-! ### Counts -/

/-- One more than the count of an object; nothing if it is gone. -/
def remains (t : Table O) (x : Handle) : Nat := (t.count? x).elim 0 fun n => n.toNat + 1

omit [Resource O] in
theorem remains_of_slot {o : Option (Slot O)} (h : t.slots.get? x = o) :
    t.remains x = o.elim 0 fun a => a.count.toNat + 1 := by
  rw [remains, count?, h]
  cases o <;> rfl

omit [Resource O] in
/-- A reference fewer is less. -/
theorem remains_fewer (a : Slot O) :
    (a.fewer.elim 0 fun b => b.count.toNat + 1) < a.count.toNat + 1 := by
  rw [Slot.fewer]
  split
  · exact Nat.succ_pos _
  · next h1 =>
    show (a.count - 1).toNat + 1 < _
    rw [toNat_sub_one h1]
    exact Nat.lt_succ_self _

theorem remains_releaseOnce_lt (hx : x.isNull = false) (hlive : t.live x = true) :
    (t.releaseOnce x).1.remains x < t.remains x := by
  obtain ⟨a, ha⟩ := live_iff.mp hlive
  rw [remains_of_slot ha, remains_of_slot ((get?_releaseOnce t hx x).trans (if_pos rfl)), ha]
  exact remains_fewer a

theorem remains_releaseOnce_le (t : Table O) (x y : Handle) :
    (t.releaseOnce x).1.remains y ≤ t.remains y := by
  by_cases e : x = y
  · subst e
    cases hx : x.isNull with
    | true => rw [releaseOnce_null t hx]
    | false =>
      cases hs : t.slots.get? x with
      | none => rw [(releaseOnce_none hs).1]
      | some a => exact (remains_releaseOnce_lt hx (live_iff.mpr ⟨a, hs⟩)).le
  · rw [remains_of_slot (get?_releaseOnce_ne t e), remains_of_slot rfl]

namespace Drained

/-- No order of calls gives references to an object. -/
theorem remains_le (d : Drained t due t') (x : Handle) : t'.remains x ≤ t.remains x := by
  induction d with
  | done t => exact le_rfl
  | call _ _ ih => exact ih.trans (remains_releaseOnce_le _ _ x)

/-- A call that is due takes one from a live object. -/
theorem remains_lt (d : Drained t due t') (hv : v ∈ due) (hn : v.isNull = false)
    (hlive : t.live v = true) : t'.remains v < t.remains v := by
  induction d with
  | done t => cases hv
  | @call t t' due rest x hd d ih =>
    by_cases e : x = v
    · subst e
      exact (d.remains_le x).trans_lt (remains_releaseOnce_lt hn hlive)
    · have hslot := get?_releaseOnce_ne t e
      have hrest : v ∈ rest := (List.mem_cons.mp (hd.mem_iff.mp hv)).resolve_left (Ne.symm e)
      have hstill : (t.releaseOnce x).1.live v = true := by
        obtain ⟨a, ha⟩ := live_iff.mp hlive
        exact live_iff.mpr ⟨a, hslot.trans ha⟩
      refine (ih (List.mem_append_right _ hrest) hstill).trans_eq ?_
      rw [remains_of_slot hslot, remains_of_slot rfl]

/-- Calls concern what they are for, and what is owned. -/
theorem spares (d : Drained t due t') (hdue : c ∉ due) (howned : ∀ x, c ∉ t.ownedBy x) :
    t'.slots.get? c = t.slots.get? c := by
  induction d with
  | done t => rfl
  | @call t t' due rest x hd d ih =>
    have hx : x ≠ c := fun e => hdue (hd.mem_iff.mpr (e ▸ List.mem_cons_self))
    refine (ih (fun h => ?_) fun y h => howned y (mem_ownedBy_releaseOnce h)).trans
      (get?_releaseOnce_ne t hx)
    rcases List.mem_append.mp h with h | h
    · exact howned x (mem_ownedBy_freed h)
    · exact hdue (hd.mem_iff.mpr (List.mem_cons_of_mem x h))

end Drained

/-! ### Beside an object that owns nothing -/

structure Beside (c : Handle) (t u : Table O) : Prop where
  others : ∀ x, x ≠ c → u.slots.get? x = t.slots.get? x
  left : ∀ v, v ∉ t.ownedBy c
  right : ∀ v, v ∉ u.ownedBy c

namespace Beside

theorem releaseOnce (h : Beside c t u) (x : Handle) :
    Beside c (t.releaseOnce x).1 (u.releaseOnce x).1 ∧
      (u.releaseOnce x).2.2 = (t.releaseOnce x).2.2 := by
  constructor
  · refine ⟨fun y hy => ?_, fun v hv => h.left v (mem_ownedBy_releaseOnce hv),
      fun v hv => h.right v (mem_ownedBy_releaseOnce hv)⟩
    cases hx : x.isNull with
    | true =>
      rw [releaseOnce_null t hx, releaseOnce_null u hx]
      exact h.others y hy
    | false => rw [get?_releaseOnce t hx, get?_releaseOnce u hx, h.others y hy]
  · by_cases e : x = c
    · subst e
      rw [List.eq_nil_iff_forall_not_mem.mpr fun v hv => h.left v (mem_ownedBy_freed hv),
        List.eq_nil_iff_forall_not_mem.mpr fun v hv => h.right v (mem_ownedBy_freed hv)]
    · cases hx : x.isNull with
      | true => rw [releaseOnce_null t hx, releaseOnce_null u hx]
      | false => rw [freed_releaseOnce t hx, freed_releaseOnce u hx, h.others x e]

/-- Both cascades make the same calls. -/
theorem cascade (t : Table O) (calls : List Release) (work : List (Handle × Option Handle)) :
    ∀ (u : Table O) (calls' : List Release), Beside c t u →
      Beside c (t.cascade calls work).1 (u.cascade calls' work).1 := by
  fun_induction Table.cascade t calls work with
  | case1 t calls =>
    intro u calls' h
    rw [Table.cascade]
    exact h
  | case2 t calls x owner rest after ih =>
    intro u calls' h
    obtain ⟨hafter, hfreed⟩ := h.releaseOnce x
    rw [Table.cascade, hfreed]
    exact ih _ _ hafter

theorem releaseEach (h : Beside c t u) (vs : List Handle) :
    Beside c (t.releaseEach vs) (u.releaseEach vs) := by
  have hcascade := cascade t [] (vs.map (·, none)) u [] h
  rwa [cascade_map, cascade_map] at hcascade

end Beside

end Table

/-! ## Clearing -/

namespace Calculator

variable {ω : Type} {s : Process ω} {c : Handle} {vs : List Handle}

/-- The releases end with the first entry that is gone, and what they did stays. -/
theorem releaseAll_run (vs : List Handle) (s : Process ω) : ∃ released kept u,
    vs = released ++ kept ∧ u.calculator = s.calculator.releaseEach released ∧
      (kept = [] ∧ releaseAll vs s = (.ok (), u) ∨
        ∃ v rest, kept = v :: rest ∧ v.isNull = false ∧ u.calculator.live v = false ∧
          releaseAll vs s = (.error (.unknownHandle v), u)) := by
  induction vs generalizing s with
  | nil => exact ⟨[], [], s, rfl, rfl, .inl ⟨rfl, rfl⟩⟩
  | cons v rest ih =>
    have hrelease : part.release v s =
        (Release.answer (s.calculator.release v).2, (part.release v s).2) := rfl
    cases ha : Release.answer (s.calculator.release v).2 with
    | ok _ =>
      rw [ha] at hrelease
      obtain ⟨released, kept, u, hvs, htable, hrun⟩ := ih (part.release v s).2
      refine ⟨v :: released, kept, u, congrArg (v :: ·) hvs, htable, ?_⟩
      rcases hrun with ⟨hkept, hrun⟩ | ⟨w, after, hkept, hn, hgone, hrun⟩
      · exact .inl ⟨hkept, (run_bind_ok hrelease).trans hrun⟩
      · exact .inr ⟨w, after, hkept, hn, hgone, (run_bind_ok hrelease).trans hrun⟩
    | error why =>
      obtain ⟨hn, hslot⟩ := Table.release_missing ha
      have hsame := Table.release_error ha
      have htable : (part.release v s).2.calculator = s.calculator := congrArg Prod.fst hsame
      have hgone : s.calculator.live v = false := Bool.eq_false_iff.mpr fun hlive => by
        obtain ⟨a, ha⟩ := Table.live_iff.mp hlive
        cases hslot.symm.trans ha
      have hwhy : Release.answer (s.calculator.release v).2 = .error (.unknownHandle v) := by
        rw [hsame]
        rfl
      rw [hwhy] at hrelease
      refine ⟨[], v :: rest, _, rfl, htable, .inr ⟨v, rest, rfl, hn, ?_, run_bind_error hrelease⟩⟩
      rwa [htable]

/-- What a cleared calculator leaves is what the releases leave, but for a last error. -/
theorem clearVariables_run (hn : c.isNull = false)
    (hc : s.calculator.get? c = some (.calculator vs)) :
    ∃ (released kept : List Handle) (u : Process ω), vs = released ++ kept ∧
      u.calculator = (s.calculator.update c clear).releaseEach released ∧
      u.Intact (clearVariables c s).2 ∧
      ((clearVariables c s).1.1 = Status.ok ∧ kept = [] ∨
        (clearVariables c s).1.1 = Status.invalidParam ∧
          ∃ v rest, kept = v :: rest ∧ v.isNull = false ∧ u.calculator.live v = false) := by
  have henlisted : enlistedIn c s = (.ok vs, s) := enlistedIn_run (Table.get_some hn hc)
  have hclear : part.update c clear s = (.ok (), (part.update c clear s).2) := rfl
  obtain ⟨released, kept, u, hvs, htable, hrun⟩ := releaseAll_run vs (part.update c clear s).2
  refine ⟨released, kept, u, hvs, htable, ?_⟩
  rcases hrun with ⟨hkept, hrun⟩ | ⟨v, rest, hkept, hv, hgone, hrun⟩
  · have hguard : clearVariables c s = ((Status.ok, ()), u) :=
      Part.guard_of_ok ((run_bind_ok henlisted).trans ((run_bind_ok hclear).trans hrun))
    rw [hguard]
    exact ⟨.refl u, .inl ⟨rfl, hkept⟩⟩
  · have hguard : clearVariables c s =
        (((Fault.unknownHandle v).code, ()), (part.fail c (.unknownHandle v) u).2) :=
      Part.guard_of_error ((run_bind_ok henlisted).trans ((run_bind_ok hclear).trans hrun))
    rw [hguard]
    exact ⟨calculatorSpot.fail c _ u (.refl u), .inr ⟨rfl, v, rest, hkept, hv, hgone⟩⟩

/-- A cleared calculator owns nothing, no more than one that is destroyed. -/
theorem beside_destroy {a : Slot Object} (ha : s.calculator.slots.get? c = some a)
    (hc : a.object = .calculator vs) (b : Slot Object) :
    Table.Beside c (s.calculator.update c clear) ((s.calculator.setCount c 1).destroy c b) where
  others x hx := by
    rw [Table.get?_destroy, if_neg (Ne.symm hx), Table.get?_setCount, if_neg (Ne.symm hx)]
    exact ((Handle.Map.get?_modify _ _ _ _).trans (if_neg (Ne.symm hx))).symm
  left v hv := by
    rw [Table.ownedBy, Table.object_update, if_pos rfl, Table.get?, ha, Option.map_some, hc] at hv
    cases hv
  right v hv := by
    rw [Table.ownedBy, Table.get?, Table.get?_destroy, if_pos rfl] at hv
    cases hv

/-- Clearing a calculator empties its list, and gives back the references in front, `released`:
    all of them, or those before the first entry that is gone. With these, everything else has
    the count it would have if all entries were released in turn exactly if no live object is
    among the entries `kept`; those counts are the ones that destroying the calculator leaves. -/
theorem clearVariables_gives_back (hn : c.isNull = false)
    (hc : s.calculator.get? c = some (.calculator vs)) : ∃ released kept,
    vs = released ++ kept ∧
      ((clearVariables c s).1.1 = Status.ok ∧ kept = [] ∨
        (clearVariables c s).1.1 = Status.invalidParam ∧
          ∃ v rest, kept = v :: rest ∧ v.isNull = false ∧
            ((s.calculator.update c clear).releaseEach released).live v = false) ∧
      (∀ o, (clearVariables c s).2.calculator.get? c = some o → o = .calculator []) ∧
      ((∀ x, c ∉ s.calculator.ownedBy x) →
        (clearVariables c s).2.calculator.get? c = some (.calculator [])) ∧
      (∀ x, (clearVariables c s).2.calculator.count? x =
        ((s.calculator.update c clear).releaseEach released).count? x) ∧
      ((∀ x, (clearVariables c s).2.calculator.count? x =
          ((s.calculator.update c clear).releaseEach vs).count? x) ↔
        ∀ v ∈ kept, v.isNull = false →
          ((s.calculator.update c clear).releaseEach released).live v = false) ∧
      ∀ x, x ≠ c → ((s.calculator.setCount c 1).release c).1.count? x =
        ((s.calculator.update c clear).releaseEach vs).count? x := by
  obtain ⟨a, ha, hobject⟩ := Option.map_eq_some_iff.mp hc
  obtain ⟨released, kept, u, rfl, htable, hintact, hstatus⟩ := clearVariables_run hn hc
  have hcleared : (s.calculator.update c clear).get? c = some (.calculator []) := by
    rw [Table.object_update, if_pos rfl, hc]
    rfl
  have hcount (x : Handle) : (clearVariables c s).2.calculator.count? x =
      ((s.calculator.update c clear).releaseEach released).count? x := by
    rw [← htable]
    exact hintact.calculator.count? x
  have hobjects (x : Handle) : (clearVariables c s).2.calculator.get? x =
      ((s.calculator.update c clear).releaseEach released).get? x := by
    rw [← htable]
    exact hintact.calculator.get? x
  refine ⟨released, kept, rfl, htable ▸ hstatus, fun o ho => ?_, fun hunlisted => ?_, hcount,
    ⟨fun h v hv hvn => ?_, fun h x => ?_⟩, fun x hx => ?_⟩
  · rw [hobjects] at ho
    obtain ⟨b, hb, rfl⟩ := Option.map_eq_some_iff.mp ho
    obtain ⟨b', hb', hbo⟩ := Table.releaseEach_slots hb
    rw [Table.get?, hb'] at hcleared
    exact hbo.trans (Option.some.inj hcleared)
  · rw [hobjects, Table.get?, (Table.releaseEach_drained _ released).spares]
    · exact hcleared
    · intro hmem
      refine hunlisted c ?_
      rw [Table.ownedBy_some ha, hobject]
      exact List.mem_append_left kept hmem
    · intro x hmem
      refine hunlisted x ?_
      rw [Table.ownedBy, Table.object_update] at hmem
      split at hmem
      · next hx =>
        rw [← hx, hc] at hmem
        cases hmem
      · exact hmem
  · refine Bool.eq_false_iff.mpr fun hlive => ?_
    have hless := (Table.releaseEach_drained _ kept).remains_lt hv hvn hlive
    have hsame := (hcount v).symm.trans (h v)
    rw [Table.releaseEach_append] at hsame
    exact absurd (congrArg (fun n => n.elim 0 fun n => n.toNat + 1) hsame) (Nat.ne_of_gt hless)
  · rw [Table.releaseEach_append, Table.releaseEach_gone h]
    exact hcount x
  · have hlast : (s.calculator.setCount c 1).slots.get? c = some { a with count := 1 } := by
      rw [Table.get?_setCount, if_pos rfl, ha]
      rfl
    have howned : Resource.owned a.object = released ++ kept := by
      rw [hobject]
      rfl
    rw [Table.release_last hn hlast (UInt32.le_refl 1), howned]
    exact congrArg (Option.map Slot.count)
      (((beside_destroy ha hobject { a with count := 1 }).releaseEach _).others x hx)

/-- No calculator is in the list of another one. -/
theorem unlisted {w : ω} (r : Reaches { outer := w } s) (hb : s.shared.issued < handleLimit)
    (hc : s.calculator.get? c = some (.calculator vs)) (x : Handle) :
    c ∉ s.calculator.ownedBy x := by
  intro hmem
  rw [Table.ownedBy] at hmem
  cases hx : s.calculator.get? x with
  | none =>
    rw [hx] at hmem
    cases hmem
  | some o =>
    rw [hx] at hmem
    cases o with
    | var _ => cases hmem
    | calculator ws =>
      have hclass : s.className? .calculator c = some "Calculator::Calculator" :=
        congrArg (Option.map Object.className) hc
      have hvar := ((r.kindred (.refl s) hb).enlisted c ⟨x, ws, hx, hmem⟩).2 _ hclass
      exact absurd hvar (by decide)

/-- A calculator that lists a variable, another one whose last reference the host has given away,
    and the first one again. -/
def strewn : Process Unit :=
  idle.after { outer := () }
    [⟨_, .createVariable 1 (some Handle.null)⟩,
     ⟨_, .createVariable 2 (some Handle.null)⟩,
     ⟨_, .createCalculator (some Handle.null)⟩,
     ⟨_, .enlistVariable ⟨3⟩ ⟨1⟩⟩,
     ⟨_, .enlistVariable ⟨3⟩ ⟨2⟩⟩,
     ⟨_, .enlistVariable ⟨3⟩ ⟨1⟩⟩,
     ⟨_, .releaseInstance .calculator ⟨2⟩⟩,
     ⟨_, .releaseInstance .calculator ⟨2⟩⟩]

theorem strewn_reached : Reaches { outer := () } strewn := idle_calling.after (.refl _) _

theorem strewn_evaluates :
    strewn.calculator.get? ⟨3⟩ = some (.calculator [⟨1⟩, ⟨2⟩, ⟨1⟩]) ∧
      strewn.shared.issued < handleLimit := by
  decide +kernel

/-- The list is empty, and the entries from one that is gone on are as if nobody had released
    them. -/
theorem clearVariables_strewn :
    strewn.calculator.get? ⟨3⟩ = some (.calculator [⟨1⟩, ⟨2⟩, ⟨1⟩]) ∧
      (clearVariables ⟨3⟩ strewn).2.calculator.get? ⟨3⟩ = some (.calculator []) ∧
      ∃ released v rest, [⟨1⟩, ⟨2⟩, ⟨1⟩] = released ++ v :: rest ∧
        ((strewn.calculator.update ⟨3⟩ clear).releaseEach released).live v = false ∧
        (clearVariables ⟨3⟩ strewn).2.calculator.count? ⟨1⟩ =
          ((strewn.calculator.update ⟨3⟩ clear).releaseEach released).count? ⟨1⟩ := by
  obtain ⟨hc, hb⟩ := strewn_evaluates
  obtain ⟨released, kept, hvs, hstatus, -, hlist, hcount, -⟩ :=
    clearVariables_gives_back (by decide) hc
  have hrefused : (clearVariables ⟨3⟩ strewn).1.1 = Status.invalidParam := by decide +kernel
  refine ⟨hc, hlist (unlisted strewn_reached hb hc), ?_⟩
  rcases hstatus with ⟨hok, -⟩ | ⟨-, v, rest, rfl, -, hgone⟩
  · exact absurd (hrefused.symm.trans hok) (by decide)
  · exact ⟨released, v, rest, hvs, hgone, hcount ⟨1⟩⟩

/-- Releasing its entries in turn, or destroying the calculator, takes that reference too. -/
theorem cleared_reference_stays : Reaches { outer := () } strewn ∧
    strewn.calculator.get? ⟨3⟩ = some (.calculator [⟨1⟩, ⟨2⟩, ⟨1⟩]) ∧
    (clearVariables ⟨3⟩ strewn).2.calculator.count? ⟨1⟩ = some 2 ∧
    ((strewn.calculator.update ⟨3⟩ clear).releaseEach [⟨1⟩, ⟨2⟩, ⟨1⟩]).count? ⟨1⟩ = some 1 ∧
    (strewn.calculator.release ⟨3⟩).1.count? ⟨1⟩ = some 1 := by
  refine ⟨strewn_reached, ?_⟩
  decide +kernel

end Calculator

end Boundary
