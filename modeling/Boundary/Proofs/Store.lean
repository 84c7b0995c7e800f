/-
  Boundary.Proofs.Store — what the operations on a store come to.
-/
import Boundary.Fixed
import Boundary.Proofs.Triple

namespace Boundary

variable {σ O ρ : Type}

/-! ## Objects -/

theorem Table.slots_insert (t : Table O) (x : Handle) (n : Nat) (o : O) :
    (t.insert x n o).slots = t.slots.insert x { serial := n, count := 1, object := o } := by
  unfold Table.insert
  cases t.slots.get? x <;> rfl

theorem Table.component_insert (t : Table O) (x : Handle) (n : Nat) (o : O) :
    (t.insert x n o).component = t.component := by
  unfold Table.insert
  cases t.slots.get? x <;> rfl

namespace Table

theorem get?_insert (t : Table O) (x : Handle) (n : Nat) (o : O) (y : Handle) :
    (t.insert x n o).get? y = if x = y then some o else t.get? y := by
  rw [get?, slots_insert, Handle.Map.get?_insert]
  split <;> rfl

theorem get?_insert_ne (t : Table O) {x y : Handle} (h : x ≠ y) (n : Nat) (o : O) :
    (t.insert x n o).get? y = t.get? y := by
  rw [get?_insert, if_neg h]

theorem object_modify (t : Table O) (x : Handle) {f : Slot O → Slot O}
    (hf : ∀ a, (f a).object = a.object) (y : Handle) :
    ({ t with slots := t.slots.modify x f } : Table O).get? y = t.get? y := by
  show ((t.slots.modify x f).get? y).map (·.object) = (t.slots.get? y).map (·.object)
  rw [Handle.Map.get?_modify]
  split
  · rw [Option.map_map]
    exact congrFun (congrArg Option.map (funext hf)) _
  · rfl

theorem object_setCount (t : Table O) (x : Handle) (n : UInt32) (y : Handle) :
    (t.setCount x n).get? y = t.get? y :=
  t.object_modify x (f := fun a => { a with count := n }) (fun _ => rfl) y

theorem object_update (t : Table O) (x : Handle) (f : O → O) (y : Handle) :
    (t.update x f).get? y = if x = y then (t.get? y).map f else t.get? y := by
  show ((t.slots.modify x _).get? y).map _ = if x = y then _ else _
  rw [Handle.Map.get?_modify]
  split
  · rw [get?, Option.map_map, Option.map_map]
    rfl
  · rfl

theorem count?_update (t : Table O) (x : Handle) (f : O → O) (y : Handle) :
    (t.update x f).count? y = t.count? y := by
  rw [count?, count?, update, Handle.Map.get?_modify]
  split
  · rw [Option.map_map]
    rfl
  · rfl

/-- Who holds a live object sees what is in its slot. -/
theorem held_of_slot {t : Table O} {x : Handle} {a : Slot O} (h : t.slots.get? x = some a) :
    t.held? x a.serial = some a.object := by
  simp [held?, slotOf?, h, Option.filter]

/-! ### What two changes come to -/

theorem update_update (t : Table O) (x : Handle) (f g : O → O) :
    (t.update x f).update x g = t.update x (g ∘ f) :=
  congrArg (fun slots => { t with slots := slots }) (Handle.Map.modify_modify _ _ _ _)

theorem update_same {t : Table O} {x : Handle} {o : O} (h : t.get? x = some o) {f : O → O}
    (hf : f o = o) : t.update x f = t := by
  obtain ⟨a, ha, rfl⟩ := Option.map_eq_some_iff.mp h
  have hslots : t.slots.modify x (fun a => { a with object := f a.object }) = t.slots :=
    Handle.Map.modify_same ha (congrArg (fun o => { a with object := o }) hf)
  exact congrArg (fun slots => { t with slots := slots }) hslots

/-- Only what a change makes of the object that is there counts. -/
theorem update_congr {t : Table O} {x : Handle} {o : O} (h : t.get? x = some o) {f g : O → O}
    (hfg : f o = g o) : t.update x f = t.update x g := by
  have hsame : (t.update x fun _ => o) = t := update_same h rfl
  have hconst (k : O → O) : t.update x k = t.update x fun _ => k o := by
    calc t.update x k = (t.update x fun _ => o).update x k := by rw [hsame]
      _ = t.update x fun _ => k o := update_update t x _ k
  rw [hconst f, hconst g, hfg]

theorem setCount_setCount (t : Table O) (x : Handle) (m n : UInt32) :
    (t.setCount x m).setCount x n = t.setCount x n :=
  congrArg (fun slots => { t with slots := slots }) (Handle.Map.modify_modify _ _ _ _)

theorem update_setCount (t : Table O) {x y : Handle} (h : x ≠ y) (n : UInt32) (f : O → O) :
    (t.setCount x n).update y f = (t.update y f).setCount x n :=
  congrArg (fun slots => { t with slots := slots }) (Handle.Map.modify_comm _ h _ _)

/-- A new object has a count of one. -/
theorem setCount_insert (t : Table O) (x : Handle) (n : Nat) (o : O) :
    (t.insert x n o).setCount x 1 = t.insert x n o := by
  have hslots : (t.insert x n o).slots.modify x (fun a => { a with count := 1 }) =
      (t.insert x n o).slots := by
    rw [slots_insert, Handle.Map.modify_insert]
  exact congrArg (fun slots => { t.insert x n o with slots := slots }) hslots

theorem insert_update (t : Table O) {x y : Handle} (h : x ≠ y) (n : Nat) (o : O) (f : O → O) :
    (t.update y f).insert x n o = (t.insert x n o).update y f := by
  have hx : (t.update y f).slots.get? x = t.slots.get? x := by
    rw [update, Handle.Map.get?_modify, if_neg h.symm]
  unfold insert
  rw [hx]
  cases t.slots.get? x <;>
    exact congrArg (Table.mk _ · _) (Handle.Map.modify_insert_comm _ h _ _).symm

/-! ### What objects are called -/

theorem name_insert {t : Table O} {name : O → String} {x y : Handle} {n : Nat} {o : O} {m : String}
    (h : ((t.insert x n o).get? y).map name = some m) :
    x = y ∨ (t.get? y).map name = some m := by
  rw [get?_insert] at h
  split at h
  · next hx => exact .inl hx
  · exact .inr h

section

variable {name : O → String} {f : O → O} (hf : ∀ o, name (f o) = name o) (t : Table O) (x y : Handle)
include hf

theorem name_update : ((t.update x f).get? y).map name = (t.get? y).map name := by
  rw [object_update]
  split
  · rw [Option.map_map]
    exact congrFun (congrArg Option.map (funext hf)) _
  · rfl

theorem name_updateHeld (n : Nat) :
    ((t.updateHeld x n f).get? y).map name = (t.get? y).map name := by
  show (((t.slots.modify x _).get? y).map (·.object)).map name =
    ((t.slots.get? y).map (·.object)).map name
  rw [Handle.Map.get?_modify]
  split
  · cases t.slots.get? y with
    | none => rfl
    | some a =>
      show some (name (if a.serial = n then { a with object := f a.object } else a).object) = _
      split
      · exact congrArg some (hf a.object)
      · rfl
  · rfl

end

end Table

/-! ## Faults -/

structure Fault.Neutral (e : Fault) : Prop where
  failed : e.code ≠ Status.ok
  fits : e.code ≠ Status.invalidCast

theorem Fault.Neutral.unknownHandle (h : Handle) : (Fault.unknownHandle h).Neutral :=
  ⟨(by decide : Status.invalidParam ≠ Status.ok),
    (by decide : Status.invalidParam ≠ Status.invalidCast)⟩

/-! ## References -/

/-- One more reference was taken: there was room for it. -/
theorem Table.acquire_ok {t t' : Table O} {h : Handle} (ha : t.acquire h = .ok t') :
    ∃ s, t.slots.get? h = some s ∧ s.count ≠ 4294967295 ∧ t' = t.setCount h (s.count + 1) := by
  unfold Table.acquire at ha
  split at ha
  · cases ha
  · next s hs =>
    split at ha
    · cases ha
    · next hc =>
      cases ha
      exact ⟨s, hs, hc, rfl⟩

/-- No reference was taken: the object is not there, or its count is full. -/
theorem Table.acquire_neutral {t : Table O} {h : Handle} {e : Fault} (ha : t.acquire h = .error e) :
    e.Neutral := by
  unfold Table.acquire at ha
  split at ha
  · cases ha
    exact .unknownHandle h
  · split at ha
    · cases ha
      exact ⟨by decide, by decide⟩
    · cases ha

theorem Table.acquire_code {t : Table O} {h : Handle} {e : Fault} (ha : t.acquire h = .error e) :
    e.code ≠ Status.ok :=
  (acquire_neutral ha).failed

/-! ## Last errors -/

/-- A thread's slot of a component is changed, and no other. -/
theorem Shared.lookup_setGlobal (s : Shared) (c message : String) (t : Nat) (c' : String) :
    (s.setGlobal c message).globals.lookup (t, c')
      = if (t, c') = (s.thread, c) then some message else s.globals.lookup (t, c') := by
  have hrest (k : Nat × String) (hk : k ≠ (s.thread, c)) (l : List ((Nat × String) × String)) :
      (l.filter fun e => e.1 != (s.thread, c)).lookup k = l.lookup k := by
    induction l with
    | nil => rfl
    | cons e l ih =>
      obtain ⟨k', m⟩ := e
      by_cases e : k' = (s.thread, c)
      · subst e
        rw [List.filter_cons_of_neg (by simp), ih, List.lookup_cons, beq_false_of_ne hk]
      · rw [List.filter_cons_of_pos (by simpa using e), List.lookup_cons, List.lookup_cons, ih]
  show List.lookup (t, c') (((s.thread, c), message) :: _) = _
  rw [List.lookup_cons]
  by_cases e : (t, c') = (s.thread, c)
  · rw [if_pos e, e, beq_self_eq_true]
  · rw [if_neg e, beq_false_of_ne e]
    exact hrest _ e _

namespace Store

/-- The store with a message recorded: on the object if it is live, else with the running
    thread. -/
def record (st : Store O) (h : Handle) (message : String) : Store O :=
  if !h.isNull && st.table.live h then { st with table := st.table.setError h message }
  else { st with shared := st.shared.setGlobal st.table.component message }

def fail (st : Store O) (h : Handle) (why : Fault) : Store O :=
  record { st with shared := st.shared.note (.callFailed st.table.component why) } h why.message

variable {st : Store O} {h : Handle} (why : Fault)

theorem fail_live (hn : h.isNull = false) (hl : st.table.live h = true) :
    st.fail h why = ⟨st.shared.note (.callFailed st.table.component why),
      st.table.setError h why.message⟩ :=
  if_pos (by simp [hn, hl])

theorem fail_missed (hm : h.isNull = true ∨ st.table.live h = false) :
    st.fail h why = ⟨(st.shared.note (.callFailed st.table.component why)).setGlobal
      st.table.component why.message, st.table⟩ :=
  if_neg (by rcases hm with hm | hm <;> simp [hm])

end Store

namespace Part

variable {p : Part σ O} {h : Handle} {s : σ}

theorem recordError_run (p : Part σ O) (h : Handle) (message : String) (s : σ) :
    p.recordError h message s = ((), p.put ((p.view s).record h message) s) := by
  unfold recordError Store.record
  dsimp only
  split <;> rfl

/-- A failure is noted, and then recorded in the store with the note. -/
theorem fail_run (hview : ∀ st, p.view (p.put st s) = st) (why : Fault) :
    (p.fail h why s).2 = p.put ((p.view s).fail h why) (p.put { p.view s with
      shared := (p.view s).shared.note (.callFailed (p.view s).table.component why) } s) := by
  show (p.recordError h why.message (p.put _ s)).2 = _
  rw [recordError_run, hview]
  rfl

theorem acquire_error {e : Fault} (ha : (p.view s).table.acquire h = .error e) :
    p.acquire h s = (.error e, s) := by
  simp only [acquire, ha]

theorem acquire_ok {t : Table O} (ha : (p.view s).table.acquire h = .ok t) :
    p.acquire h s = (.ok (), p.put { p.view s with table := t } s) := by
  simp only [acquire, ha]

/-! ## Exported operations -/

theorem guard_run (p : Part σ O) (h : Handle) (cells : ρ) (op : Op σ ρ) (s : σ) :
    p.guard h cells op s = (match (op s).1 with
      | .ok after => (pure (Status.ok, after) : StateM σ (Status × ρ))
      | .error why => do
        p.fail h why
        return (why.code, cells)) (op s).2 := by
  show (match (op s).1 with
    | .ok after => _
    | .error why => _ : StateM σ (Status × ρ)) (op s).2 = _
  cases (op s).1 <;> rfl

/-- Only what the operation does from here counts. -/
theorem guard_congr {cells : ρ} {f g : Op σ ρ} (hfg : f s = g s) :
    p.guard h cells f s = p.guard h cells g s := by
  rw [guard_run, guard_run, hfg]

/-- A success answers what the operation did. -/
theorem guard_of_ok {cells after : ρ} {op : Op σ ρ} {s' : σ} (hop : op s = (.ok after, s')) :
    p.guard h cells op s = ((Status.ok, after), s') := by
  rw [guard_run, hop]
  rfl

/-- A failure is recorded, and leaves the outputs as the caller passed them. -/
theorem guard_of_error {cells : ρ} {op : Op σ ρ} {why : Fault} {s' : σ}
    (hop : op s = (.error why, s')) :
    p.guard h cells op s = ((why.code, cells), (p.fail h why s').2) := by
  rw [guard_run, hop]
  rfl

/-- What an exported operation answers. -/
theorem guard_answer (cells : ρ) (op : Op σ ρ) :
    (p.guard h cells op s).1 = match (op s).1 with
      | .ok after => (Status.ok, after)
      | .error why => (why.code, cells) := by
  rw [guard_run]
  cases (op s).1 <;> rfl

/-- Where all failures have a code of their own, success is the operation's answer. -/
theorem guard_ok {cells after : ρ} {op : Op σ ρ} {Q : ρ → Prop}
    (hop : Does (fun s' => s' = s) op (fun a _ => Q a) fun why _ => why.code ≠ Status.ok)
    (h : (p.guard h cells op s).1 = (Status.ok, after)) : Q after := by
  rw [guard_answer] at h
  have hs := hop s rfl
  change Either _ _ (op s).1 _ at hs
  revert h hs
  cases (op s).1 with
  | ok a =>
    intro h hs
    cases h
    exact hs
  | error why =>
    intro h hs
    exact absurd (congrArg Prod.fst h) hs

end Part

/-- Reading an object fails only if there is none. -/
theorem Table.get_neutral {t : Table O} {x : Handle} {e : Fault} (h : t.get x = .error e) :
    e.Neutral := by
  unfold Table.get Table.hold at h
  split at h
  · cases h
    exact ⟨by decide, by decide⟩
  · revert h
    cases t.slots.get? x with
    | none =>
      intro h
      cases h
      exact .unknownHandle x
    | some a =>
      intro h
      cases h

theorem Table.get_code {t : Table O} {x : Handle} {e : Fault} (h : t.get x = .error e) :
    e.code ≠ Status.ok :=
  (get_neutral h).failed

theorem Table.get_ok {t : Table O} {x : Handle} {o : O} (h : t.get x = .ok o) :
    t.get? x = some o := by
  unfold Table.get Table.hold at h
  split at h
  · cases h
  · revert h
    unfold Table.get?
    cases t.slots.get? x with
    | none =>
      intro h
      cases h
    | some a =>
      intro h
      cases h
      rfl

section

variable {t t' : Table O} {x : Handle} {o : O}

theorem Table.get_some (hn : x.isNull = false) (h : t.get? x = some o) : t.get x = .ok o := by
  obtain ⟨slot, hslot, rfl⟩ := Option.map_eq_some_iff.mp h
  rw [get, hold, if_neg (by simp [hn]), hslot]
  rfl

/-- What a read answers is told by what is there. -/
theorem Table.get_congr (h : t'.get? x = t.get? x) : t'.get x = t.get x := by
  have hget (t : Table O) : t.get x = if x.isNull = true then .error .nullHandle
      else (t.get? x).elim (.error (.unknownHandle x)) .ok := by
    rw [get, hold, get?]
    split
    · rfl
    · cases t.slots.get? x <;> rfl
  rw [hget, hget, h]

theorem Table.isNull_of_get (h : t.get x = .ok o) : x.isNull = false := by
  unfold get hold at h
  split at h
  · cases h
  · next hn => simpa using hn

end

theorem Part.get_run {p : Part σ O} {x : Handle} {s : σ} {o : O}
    (h : (p.view s).table.get x = .ok o) : p.get x s = (.ok o, s) :=
  congrArg (·, s) h

/-- Serving an array fails only if the caller's memory cannot be served. -/
theorem Exchange.serveArray_neutral {α : Type} {data : List α} {capacity : UInt64}
    {place : Exchange.Place UInt64 α} {e : Fault}
    (h : Exchange.serveArray data capacity place = .error e) : e.Neutral := by
  unfold Exchange.serveArray at h
  split at h
  · cases h
    exact ⟨by decide, by decide⟩
  · split at h
    · cases h
      exact ⟨by decide, by decide⟩
    · cases h

theorem Exchange.serveArray_code {α : Type} {data : List α} {capacity : UInt64}
    {place : Exchange.Place UInt64 α} {e : Fault}
    (h : Exchange.serveArray data capacity place = .error e) : e.code ≠ Status.ok :=
  (serveArray_neutral h).failed

end Boundary
