/-
  Boundary.Proofs.Operations — what the operations on a store do to the ledger.

  Each lemma starts from books that balance with what the operation takes from its caller
  and ends with books that balance with what it gives back. `At p x o` is that `x` names
  the live object `o`; what is known of live objects stays known while objects are made
  and references taken (`Stays`).
-/
import Boundary.Proofs.Books

namespace Boundary

variable {ω O α ρ : Type} {p : Part (Process ω) O} {c : Component} {J : ω → Prop}
  {e e' : Ledger} {φ φ' : Process ω → Prop} {x : Handle} {o : O}

def At (p : Part (Process ω) O) (x : Handle) (o : O) (s : Process ω) : Prop :=
  (p.view s).table.get? x = some o

/-- Knowledge that more objects and more references do not spoil. -/
def Stays (p : Part (Process ω) O) (φ : Process ω → Prop) : Prop :=
  ∀ s s', (∀ x o, At p x o s → At p x o s') → φ s → φ s'

theorem stays_const (ψ : Prop) : Stays p fun _ => ψ := fun _ _ _ h => h

theorem stays_at (x : Handle) (o : O) : Stays p (At p x o) := fun _ _ h => h x o

theorem Stays.and (h : Stays p φ) (h' : Stays p φ') : Stays p fun s => φ s ∧ φ' s :=
  fun s s' hs hφ => ⟨h s s' hs hφ.1, h' s s' hs hφ.2⟩

theorem at_iff {s : Process ω} : At p x o s ↔ ∃ a, (p.view s).table.slots.get? x = some a ∧
    a.object = o := Option.map_eq_some_iff

variable [Resource O] [Layered O]

def Leaf (p : Part (Process ω) O) (x : Handle) (s : Process ω) : Prop :=
  ∃ o, At p x o s ∧ Layered.leaf o

theorem stays_leaves (hs : List Handle) : Stays p fun s => ∀ y ∈ hs, Leaf p y s := by
  intro s s' h hl y hy
  obtain ⟨o, ho, hleaf⟩ := hl y hy
  exact ⟨o, h y o ho, hleaf⟩

/-- The notes of a cascade that did not fail. -/
theorem forward_release {name : String} {a : Shared} {calls : List Release}
    (hc : ∀ r ∈ calls, r.fate ≠ .unknown) :
    Forward name a (a.notes (calls.flatMap (Release.notes name))) := by
  have hmem : ∀ n ∈ calls.flatMap (Release.notes name), ∃ x, n = .destroyed name x := by
    intro n hn
    obtain ⟨r, hr, hn⟩ := List.mem_flatMap.mp hn
    have := hc r hr
    obtain ⟨x, owner, fate⟩ := r
    cases fate <;> simp [Release.notes] at hn this
    exact ⟨x, hn⟩
  refine ⟨(calls.flatMap (Release.notes name)).reverse, rfl, ?_, fun n hn => ?_⟩
  · rw [List.countP_eq_zero.mpr]
    · rfl
    · intro n hn
      obtain ⟨x, rfl⟩ := hmem n (List.mem_reverse.mp hn)
      simp [Note.isCreated]
  · obtain ⟨x, rfl⟩ := hmem n (List.mem_reverse.mp hn)
    exact ⟨rfl, fun _ h => (Option.some.inj h).symm⟩

theorem reverse_notes (name : String) (calls : List Release) :
    (calls.flatMap (Release.notes name)).reverse = calls.reverse.flatMap (Release.notes name) := by
  rw [List.reverse_flatMap]
  congr 1
  funext r
  obtain ⟨x, owner, fate⟩ := r
  cases fate <;> cases owner <;> rfl

/-- A release of what the ledger holds. Of the null handle it holds nothing. -/
theorem kept_release {name : String} {issued : Nat} {j : List Note} {t : Table O}
    (k : t.Kept name ((e + .of c [x]) c) issued j) :
    (t.release x).1.Kept name (e c) issued
        ((t.release x).2.reverse.flatMap (Release.notes name) ++ j) ∧
      (∀ r ∈ (t.release x).2, r.fate ≠ .unknown) ∧
      Release.answer (t.release x).2 = .ok () := by
  by_cases hn : x.isNull = true
  · have hcalls : t.release x = (t, [⟨x, none, .null⟩]) := by
      simp [Table.release, Table.cascade, Table.releaseOnce, hn]
    obtain rfl := Table.isNull_iff.mp hn
    rw [Ledger.of_null, add_zero] at k
    rw [hcalls]
    exact ⟨k, by simp, rfl⟩
  · have hx : x.isNull = false := by simpa using hn
    have hf : (e + .of c [x]) c = fun y => e c y + if y = x then 1 else 0 := by
      funext y
      rw [Pi.add_apply, Pi.add_apply, Ledger.of_single hx]
    rw [hf] at k
    exact k.release

namespace Site

variable (site : Site p c)
include site

/-! ## One change -/

/-- A change of the store keeps the books when it keeps those of the table. -/
theorem step {s : Process ω} {st : Store O} (h : Books J e φ s)
    (hle : s.shared.issued ≤ st.shared.issued) (he : ∀ c', c' ≠ c → e' c' = e c')
    (hk : st.shared.issued < handleLimit →
      (p.view s).table.Kept c.name (e c) s.shared.issued s.shared.journal → φ s →
        Forward c.name s.shared st.shared ∧
        st.table.Kept c.name (e' c) st.shared.issued st.shared.journal ∧ φ' (p.put st s)) :
    Books J e' φ' (p.put st s) := by
  obtain ⟨hc, hb⟩ := h
  refine ⟨⟨?_, ?_, ?_⟩, fun hlt => ?_⟩
  · rw [site.put_outer]
    exact hc.outer
  · rw [site.put_registry]
    exact hc.reserved
  · rw [site.put_injected]
    exact hc.injected
  · rw [site.put_shared] at hlt
    obtain ⟨hs, hφ⟩ := hb (by omega)
    obtain ⟨fwd, k, hφ'⟩ := hk hlt (site.kept hs) hφ
    exact ⟨site.sound hs fwd he k, hφ'⟩

/-- A change of the table alone. -/
theorem step_table {s : Process ω} {t : Table O} (h : Books J e φ s)
    (he : ∀ c', c' ≠ c → e' c' = e c')
    (hk : (p.view s).table.Kept c.name (e c) s.shared.issued s.shared.journal → φ s →
        t.Kept c.name (e' c) s.shared.issued s.shared.journal ∧
          φ' (p.put { p.view s with table := t } s)) :
    Books J e' φ' (p.put { p.view s with table := t } s) := by
  have hsh := site.view_shared s
  refine site.step h (Nat.le_of_eq (congrArg Shared.issued hsh.symm)) he fun _ k hφ => ?_
  rw [show ({ p.view s with table := t } : Store O).shared = s.shared from hsh]
  exact ⟨.refl rfl rfl, hk k hφ⟩

/-- Objects that own the same and stay what they are. -/
theorem revise {s : Process ω} (h : Books J e φ s) {u : Slot O → Slot O}
    (hu : ∀ a, (u a).serial = a.serial ∧ (u a).count = a.count ∧
      Resource.owned (u a).object = Resource.owned a.object ∧
      (Layered.leaf a.object → Layered.leaf (u a).object)) (x : Handle) :
    Balanced J e (p.put { p.view s with
      table := { (p.view s).table with slots := (p.view s).table.slots.modify x u } } s) :=
  site.step_table h (fun _ _ => rfl) fun k _ => ⟨k.revise hu x, trivial⟩

/-! ## Reading -/

omit site [Resource O] [Layered O] in
theorem get (x : Handle) :
    Does (Books J e φ) (p.get x) (fun o => Books J e fun s => At p x o s ∧ φ s)
      fun _ => Balanced J e := by
  refine .of_run fun s hs => ?_
  show (∃ o s', ((p.view s).table.get x, s) = _ ∧ _) ∨ _
  cases hg : (p.view s).table.get x with
  | ok o => exact .inl ⟨o, s, rfl, hs.mono fun _ hφ => ⟨Table.get_ok hg, hφ⟩⟩
  | error why => exact .inr ⟨why, s, by rw [← hg]; rfl, hs.balanced⟩

/-- An object that is there is found. -/
theorem get_at (x : Handle) (o : O) :
    Does (Books J e fun s => At p x o s ∧ φ s) (p.get x)
      (fun o' => Books J e fun s => o' = o ∧ At p x o s ∧ φ s) fun _ => Books J e' φ' := by
  refine .of_run fun s hs => ?_
  show (∃ o s', ((p.view s).table.get x, s) = _ ∧ _) ∨ _
  cases hg : (p.view s).table.get x with
  | ok o' =>
    refine .inl ⟨o', s, rfl, hs.mono fun _ hφ => ⟨?_, hφ⟩⟩
    have := Table.get_ok hg
    rw [show (p.view s).table.get? x = some o from hφ.1] at this
    exact (Option.some.inj this).symm
  | error why =>
    refine .inr ⟨why, s, by rw [← hg]; rfl, hs.absurd fun hsound hφ => ?_⟩
    obtain ⟨a, ha, -⟩ := at_iff.mp hφ.1
    have hn := (site.kept hsound).isNull ha
    simp [Table.get, Table.hold, hn, ha, Except.map] at hg

/-! ## Objects -/

/-- Whoever makes an object gives it the references it owns, and gets one to it. -/
theorem insert (o : O) (hφ : Stays p φ)
    (hown : ∀ s, φ s → ∀ y ∈ Resource.owned o, Leaf p y s) :
    Does (Books J (e + .of c (Resource.owned o)) φ) (p.insert o)
      (fun h => Books J (e + .of c [h]) fun s => At p h o s ∧ φ s) fun _ => Books J e' φ' := by
  refine .of_run fun s hs => .inl ⟨(p.view s).shared.nextHandle, _, rfl, ?_⟩
  have hsh := site.view_shared s
  rw [hsh]
  refine site.step hs (Nat.le_succ _) (fun c' hc' => ?_) fun hlt k hφs => ?_
  · simp only [Pi.add_apply, Ledger.of_ne hc', add_zero]
  have hnull : ∀ y ∈ Resource.owned o, y.isNull = false := by
    intro y hy
    obtain ⟨b, hb, -⟩ := hown s hφs y hy
    obtain ⟨a, ha, -⟩ := at_iff.mp hb
    exact k.isNull ha
  have hnew : s.shared.nextHandle.isNull = false :=
    Shared.nextHandle_isNull (Nat.lt_of_succ_lt hlt)
  have hraw : s.shared.nextHandle.raw.toNat = s.shared.issued + 1 :=
    Shared.nextHandle_raw (Nat.lt_of_succ_lt hlt)
  have hget : ∀ y b, At p y b s → y ≠ s.shared.nextHandle := by
    rintro y b hb rfl
    obtain ⟨a, ha, -⟩ := at_iff.mp hb
    have := (k.handle _ a ha).2.1
    omega
  refine ⟨⟨[.created c.name s.shared.nextHandle], ?_, rfl, ?_⟩, ?_, ?_, ?_⟩
  · rw [k.named]
    rfl
  · intro n hn
    rw [List.mem_singleton] at hn
    subst hn
    exact ⟨rfl, fun _ h => (Option.some.inj h).symm⟩
  · rw [k.named]
    refine k.insert hraw (fun y => ?_) fun y hy => ?_
    · simp only [Pi.add_apply, Ledger.of_same hnull, Ledger.of_single hnew]
      omega
    · obtain ⟨b, hb, hl⟩ := hown s hφs y hy
      obtain ⟨a, ha, rfl⟩ := at_iff.mp hb
      exact ⟨a, ha, hl⟩
  · rw [at_iff, site.view_put]
    refine ⟨{ serial := s.shared.issued + 1, count := 1, object := o }, ?_, rfl⟩
    rw [Table.slots_insert, Handle.Map.get?_insert, if_pos rfl]
    rfl
  · refine hφ s _ (fun y b hb => ?_) hφs
    rw [at_iff, site.view_put]
    obtain ⟨a, ha, hab⟩ := at_iff.mp hb
    refine ⟨a, ?_, hab⟩
    rw [Table.slots_insert, Handle.Map.get?_insert, if_neg (Ne.symm (hget y b hb))]
    exact ha

/-- An object that owns nothing is made of nothing. -/
theorem insert_bare {o : O} (ho : Resource.owned o = []) (hφ : Stays p φ) :
    Does (Books J e φ) (p.insert o) (fun h => Books J (e + .of c [h]) fun s => At p h o s ∧ φ s)
      fun _ => Books J e' φ' := by
  refine (site.insert o hφ fun s _ y hy => ?_).pre fun s h => ?_
  · rw [ho] at hy
    cases hy
  · rwa [ho, Ledger.of_nil, add_zero]

/-- What a live object owns are leaves. -/
theorem leaves {s : Process ω} (h : Books J e (fun s => At p x o s ∧ φ s) s) :
    Books J e (fun s => (∀ y ∈ Resource.owned o, Leaf p y s) ∧ At p x o s ∧ φ s) s := by
  refine h.mono fun hsound hφ => ⟨fun y hy => ?_, hφ⟩
  obtain ⟨a, ha, rfl⟩ := at_iff.mp hφ.1
  obtain ⟨b, hb, hl⟩ := (site.kept hsound).leaves x a ha y hy
  exact ⟨b.object, at_iff.mpr ⟨b, hb, rfl⟩, hl⟩

/-- Changing an object gives it what it owns in addition, and the caller what it owns no
    longer. -/
theorem update {f : O → O} (gained lost : List Handle)
    (hown : ∀ y, (Resource.owned (f o)).count y + lost.count y
      = (Resource.owned o).count y + gained.count y)
    (hleaf : Layered.leaf o → Layered.leaf (f o)) :
    Does (Books J (e + .of c gained) fun s => At p x o s ∧ ∀ y ∈ gained, Leaf p y s)
      (p.update x f) (fun _ => Balanced J (e + .of c lost))
      fun _ => Books J e' φ' := by
  refine .of_run fun s hs => .inl ⟨(), _, rfl, ?_⟩
  refine site.step_table hs (fun c' hc' => ?_) fun k hφ => ⟨?_, trivial⟩
  · simp only [Pi.add_apply, Ledger.of_ne hc', add_zero]
  obtain ⟨a, ha, hao⟩ := at_iff.mp hφ.1
  have hgained : ∀ y ∈ gained, ∃ b, (p.view s).table.slots.get? y = some b ∧
      Layered.leaf b.object := by
    intro y hy
    obtain ⟨b, hb, hl⟩ := hφ.2 y hy
    obtain ⟨a', ha', rfl⟩ := at_iff.mp hb
    exact ⟨a', ha', hl⟩
  have hafter : ∀ y, y ∈ Resource.owned (f o) ∨ y ∈ lost →
      ∃ b, (p.view s).table.slots.get? y = some b ∧ Layered.leaf b.object := by
    intro y hy
    have hpos : 0 < (Resource.owned o).count y + gained.count y := by
      rw [← hown y]
      rcases hy with hy | hy
      · exact Nat.add_pos_left (List.count_pos_iff.mpr hy) _
      · exact Nat.add_pos_right _ (List.count_pos_iff.mpr hy)
    by_cases hg : y ∈ gained
    · exact hgained y hg
    · rw [List.count_eq_zero_of_not_mem hg, Nat.add_zero] at hpos
      exact k.leaves x a ha y (hao.symm ▸ List.count_pos_iff.mp hpos)
  have hn1 : ∀ y ∈ gained, y.isNull = false := fun y hy => by
    obtain ⟨b, hb, -⟩ := hgained y hy
    exact k.isNull hb
  have hn2 : ∀ y ∈ lost, y.isNull = false := fun y hy => by
    obtain ⟨b, hb, -⟩ := hafter y (.inr hy)
    exact k.isNull hb
  refine k.modify (u := fun s => { s with object := f s.object }) ha rfl (k.pos x a ha)
    (fun y => ?_) ?_ fun y hy => ?_
  · have := hown y
    simp only [hao, Pi.add_apply, Ledger.of_same hn1, Ledger.of_same hn2]
    omega
  · rw [hao]
    exact hleaf
  · exact hafter y (.inl (hao ▸ hy))

/-- Changes that neither move references nor lift a leaf. -/
theorem update_same {f : O → O} (hown : ∀ o, Resource.owned (f o) = Resource.owned o)
    (hleaf : ∀ o, Layered.leaf o → Layered.leaf (f o)) (x : Handle) :
    Does (Books J e φ) (p.update x f) (fun _ => Balanced J e)
      fun _ => Books J e' φ' := by
  refine .of_run fun s hs => .inl ⟨(), _, rfl, ?_⟩
  exact site.revise hs (u := fun s => { s with object := f s.object })
    (fun a => ⟨rfl, rfl, hown a.object, hleaf a.object⟩) x

theorem updateHeld {f : O → O} (hown : ∀ o, Resource.owned (f o) = Resource.owned o)
    (hleaf : ∀ o, Layered.leaf o → Layered.leaf (f o)) (x : Handle) (serial : Nat) :
    Does (Books J e φ) (p.updateHeld x serial f) (fun _ => Balanced J e)
      fun _ => Books J e' φ' := by
  refine .of_run fun s hs => .inl ⟨(), _, rfl, ?_⟩
  refine site.revise hs
    (u := fun s => if s.serial = serial then { s with object := f s.object } else s) (fun a => ?_) x
  by_cases h : a.serial = serial
  · simp only [if_pos h]
    exact ⟨trivial, trivial, hown a.object, hleaf a.object⟩
  · simp only [if_neg h]
    exact ⟨trivial, trivial, trivial, id⟩

/-! ## References -/

/-- The caller gets a reference, if there is room for one. -/
theorem acquire (x : Handle) (hφ : Stays p φ) :
    Does (Books J e φ) (p.acquire x) (fun _ => Books J (e + .of c [x]) φ) fun _ => Balanced J e := by
  refine .of_run fun s hs => ?_
  cases ha : (p.view s).table.acquire x with
  | error why => exact .inr ⟨why, s, Part.acquire_error ha, hs.balanced⟩
  | ok t =>
    refine .inl ⟨(), _, Part.acquire_ok ha, ?_⟩
    refine site.step_table hs (fun c' hc' => ?_) fun k hφs => ⟨?_, ?_⟩
    · simp only [Pi.add_apply, Ledger.of_ne hc', add_zero]
    · obtain ⟨a, hx, -, -⟩ := Table.acquire_ok ha
      refine k.acquire ha fun y => ?_
      rw [Pi.add_apply, Pi.add_apply, Ledger.of_single (k.isNull hx)]
    · obtain ⟨a, -, -, rfl⟩ := Table.acquire_ok ha
      refine hφ s _ (fun y b hb => ?_) hφs
      obtain ⟨a', ha', rfl⟩ := at_iff.mp hb
      rw [at_iff, site.view_put]
      show ∃ b, ((p.view s).table.setCount x _).slots.get? y = some b ∧ _
      rw [Table.get?_setCount, ha']
      split
      · exact ⟨_, rfl, rfl⟩
      · exact ⟨_, rfl, rfl⟩

/-- A reference is given back. That can fail only when handles have come round. -/
theorem release (x : Handle) :
    Does (Books J (e + .of c [x]) φ) (p.release x) (fun _ => Balanced J e)
      fun _ => Books J e' φ' := by
  refine .of_run fun s hs => ?_
  have hsh := site.view_shared s
  have hbooks : Books J e (fun _ => Release.answer ((p.view s).table.release x).2 = .ok ())
      (p.release x s).2 := by
    refine site.step hs ?_ (fun c' hc' => ?_) fun _ k _ => ?_
    · show s.shared.issued ≤ (p.view s).shared.issued
      rw [hsh]
    · rw [Pi.add_apply, Ledger.of_ne hc', add_zero]
    · obtain ⟨k', hfate, hans⟩ := kept_release k
      refine ⟨?_, ?_, hans⟩
      · show Forward c.name s.shared ((p.view s).shared.notes _)
        rw [hsh, k.named]
        exact forward_release hfate
      · show Table.Kept c.name (e c) (p.view s).shared.issued
          ((List.flatMap _ ((p.view s).table.release x).2).reverse ++ (p.view s).shared.journal) _
        rw [hsh, k.named, reverse_notes]
        exact k'
  show (∃ a s', (Release.answer ((p.view s).table.release x).2, (p.release x s).2) = _ ∧ _) ∨ _
  cases hans : Release.answer ((p.view s).table.release x).2 with
  | ok a => exact .inl ⟨a, _, rfl, hbooks.balanced⟩
  | error why =>
    refine .inr ⟨why, (p.release x s).2, by rw [← hans]; rfl, hbooks.absurd fun _ h => ?_⟩
    rw [hans] at h
    cases h

/-- Notes that are not about objects leave the books alone, lost releases apart. -/
theorem note {n : String → Note} (hmaker : ∀ name, (n name).maker? = none)
    (hloss : ∀ s, φ s → ∀ name, (n name).isLoss = false) (hφ : Stays p φ) :
    Does (Books J e φ) (p.note n) (fun _ => Books J e φ) fun _ => Books J e' φ' := by
  refine .of_run fun s hs => .inl ⟨(), _, rfl, ?_⟩
  have hsh := site.view_shared s
  refine site.step hs ?_ (fun _ _ => rfl) fun _ k hφs => ⟨?_, ?_, ?_⟩
  · show s.shared.issued ≤ (p.view s).shared.issued
    rw [hsh]
  · show Forward c.name s.shared ((p.view s).shared.note _)
    rw [hsh]
    exact .note (hmaker _) (hloss s hφs _)
  · show Table.Kept c.name (e c) (p.view s).shared.issued ([_] ++ (p.view s).shared.journal) _
    rw [hsh]
    refine k.forward (Nat.le_refl _) fun m hm h => ?_
    rw [List.mem_singleton] at hm
    rw [hm, hmaker] at h
    cases h
  · refine hφ s _ (fun y b hb => ?_) hφs
    rw [At, site.view_put]
    exact hb

/-- Giving references back goes through to the end. -/
theorem rollBack (hs : List Handle) :
    Does (Books J (e + .of c hs) φ) (p.rollBack hs) (fun _ => Balanced J e)
      fun _ => Books J e' φ' := by
  induction hs generalizing φ with
  | nil =>
    refine .pure fun s h => ?_
    rw [Ledger.of_nil, add_zero] at h
    exact h.balanced
  | cons x rest ih =>
    have hrel : Does (Books J (e + .of c (x :: rest)) φ) (p.release x)
        (fun _ => Balanced J (e + .of c rest))
        fun _ => Books J (e + .of c rest) fun _ => False := by
      refine (site.release (φ := φ) x).pre fun s h => ?_
      rwa [Ledger.of_cons, add_comm (Ledger.of c [x]), ← add_assoc] at h
    refine .bind hrel.outcome fun r => ?_
    cases r with
    | ok _ => exact ih
    | error why =>
      refine .bind (site.note (fun _ => rfl) (fun _ h => h.elim) ?_) fun _ => ih
      exact fun _ _ _ h => h

/-! ## Exported operations -/

/-- Recording a failure moves no reference. -/
theorem fail {ψ : Prop} (x : Handle) (why : Fault) :
    Ends (Books J e fun _ => ψ) (p.fail x why) fun _ => Books J e fun _ => ψ := by
  have hnote : Does (Books J e fun _ => ψ) (p.note fun component => .callFailed component why)
      (fun _ => Books J e fun _ => ψ) fun _ => Books J e fun _ => ψ :=
    site.note (fun _ => rfl) (fun _ _ _ => rfl) (stays_const ψ)
  have hend : Ends (Books J e fun _ => ψ) (p.note fun component => .callFailed component why).run
      fun _ => Books J e fun _ => ψ :=
    Ends.post hnote fun r s h => by cases r <;> exact h
  refine .bind (Q := fun _ => Books J e fun _ => ψ) hend fun _ s hs => ?_
  have hsh := site.view_shared s
  show Books J e _ (p.recordError x why.message s).2
  unfold Part.recordError
  dsimp only
  split
  · refine site.step_table hs (fun _ _ => rfl) fun k h => ⟨?_, h⟩
    exact k.revise (u := fun s => { s with lastError := some why.message })
      (fun _ => ⟨rfl, rfl, rfl, id⟩) x
  · refine site.step hs ?_ (fun _ _ => rfl) fun _ k h => ⟨.refl ?_ ?_, ?_, h⟩
    · show s.shared.issued ≤ (p.view s).shared.issued
      rw [hsh]
    · show (p.view s).shared.journal = _
      rw [hsh]
    · show (p.view s).shared.issued = _
      rw [hsh]
    · show Table.Kept c.name (e c) (p.view s).shared.issued (p.view s).shared.journal _
      rw [hsh]
      exact k

/-- The failure is the last thing noted. -/
theorem fail_journal (x : Handle) (why : Fault) (s : Process ω) :
    (p.fail x why s).2.shared.journal =
      .callFailed (p.view s).table.component why :: s.shared.journal := by
  have hrecord (u : Process ω) :
      (p.recordError x why.message u).2.shared.journal = u.shared.journal := by
    unfold Part.recordError
    dsimp only
    split <;> rw [site.put_shared]
    · exact congrArg Shared.journal (site.view_shared u)
    · show (p.view u).shared.journal = _
      rw [site.view_shared]
  refine (hrecord _).trans ?_
  rw [site.put_shared]
  show _ :: (p.view s).shared.journal = _
  rw [site.view_shared]

/-- An exported operation answers what the operation did; where that failed, the outputs are
    as the caller passed them. -/
theorem guard (x : Handle) (cells : ρ) {op : Op (Process ω) ρ} {P : Process ω → Prop}
    {Q : ρ → Process ω → Prop} {F : Fault → Prop} {ψ : Prop}
    (hop : Does P op Q fun why s => F why ∧ Books J e (fun _ => ψ) s) :
    Ends P (p.guard x cells op) fun r s => r.1 = Status.ok ∧ Q r.2 s ∨
      (∃ why, F why ∧ r.1 = why.code) ∧ r.2 = cells ∧ Books J e (fun _ => ψ) s := by
  refine .bind hop fun r => ?_
  cases r with
  | ok after => exact .pure fun s h => .inl ⟨rfl, h⟩
  | error why =>
    refine .assume fun hF => .bind (site.fail x why) fun _ => ?_
    exact .pure fun s h => .inr ⟨⟨why, hF, rfl⟩, rfl, h⟩

end Site

/-! ## What calls give -/

/-- A call that succeeds gives its caller the references `g` finds in the outputs. -/
def Gives (J : ω → Prop) (x : Act ω (Status × ρ)) (g : ρ → Ledger) : Prop :=
  ∀ e, Ends (Balanced J e) x fun r => Balanced J (e + if r.1 = Status.ok then g r.2 else 0)

omit [Resource O] [Layered O] in
/-- A call that gives nothing keeps the books as they are. -/
theorem gives_zero {x : Act ω (Status × ρ)}
    (h : ∀ e, Ends (Balanced J e) x fun _ => Balanced J e) : Gives J x fun _ => 0 :=
  fun e => (h e).post fun r s hs => by rwa [ite_self, add_zero]

namespace Site

variable (site : Site p c)
include site

/-- An exported operation gives what the operation gives, where the outputs passed hold
    nothing. -/
theorem gives (x : Handle) (cells : ρ) {op : Op (Process ω) ρ} {g : ρ → Ledger}
    (hcells : g cells = 0)
    (hop : ∀ e, Does (Balanced J e) op (fun a => Balanced J (e + g a)) fun _ => Balanced J e) :
    Gives J (p.guard x cells op) g := by
  intro e
  have h : Does (Balanced J e) op (fun a => Balanced J (e + g a)) fun _ s => True ∧ Balanced J e s :=
    (hop e).failing fun _ _ h => ⟨trivial, h⟩
  refine (site.guard x cells h).post fun r s hr => ?_
  rcases hr with ⟨hok, h⟩ | ⟨-, hcell, h⟩
  · rwa [if_pos hok]
  · rwa [hcell, hcells, ite_self, add_zero]

end Site

end Boundary
