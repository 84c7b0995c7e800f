/-
  Boundary.Proofs.Balance — the books of one table.

  `Kept name f issued j t` is what is known of the table of a component when `f x`
  references to `x` are held outside of it, `issued` handles have been issued and the
  journal, newest note first, is `j`: the count of an object is the number of references
  held outside and by objects of the table; owned objects are leaves, which own nothing;
  and the journal tells when each object came and went.

  Proved: a new object, a change of one and a release keep the books (`Kept.insert`,
  `Kept.modify`, `Kept.release`). Each step changes one entry alone (`SameBut`), so that the
  references balance if those of that entry do (`SameBut.balance`). The release needs a
  reference to give back; then no call of its cascade fails, and every object goes before
  those it owned.
-/
import Boundary.Proofs.Release
import Boundary.Proofs.Store
import Mathlib.Data.Fintype.EquivFin

namespace Boundary

/-- Objects in two layers: those of the lower one own nothing. -/
class Layered (O : Type) [Resource O] where
  leaf : O → Prop
  owned_leaf : ∀ {o : O}, leaf o → Resource.owned o = []

/-! ## The journal -/

namespace Note

def maker? : Note → Option String
  | created c _ => some c
  | destroyed c _ => some c
  | _ => none

def isCreated : Note → Bool
  | created _ _ => true
  | _ => false

/-- A release that nobody answers for has failed. -/
def isLoss : Note → Bool
  | ownedReleaseFailed _ _ _ _ | rollbackFailed _ _ _ | dropFailed _ _ => true
  | _ => false

end Note

theorem count_created (name : String) (x y : Handle) (j : List Note) :
    (Note.created name x :: j).count (.created name y)
      = j.count (.created name y) + if y = x then 1 else 0 := by
  by_cases e : y = x
  · rw [e, List.count_cons_self, if_pos rfl]
  · rw [List.count_cons_of_ne (by simpa using Ne.symm e), if_neg e, Nat.add_zero]

theorem count_destroyed (name : String) (x y : Handle) (j : List Note) :
    (Note.destroyed name x :: j).count (.destroyed name y)
      = j.count (.destroyed name y) + if y = x then 1 else 0 := by
  by_cases e : y = x
  · rw [e, List.count_cons_self, if_pos rfl]
  · rw [List.count_cons_of_ne (by simpa using Ne.symm e), if_neg e, Nat.add_zero]

/-- Whenever `b` was noted, `a` had been noted before. The journal has the newest note first. -/
def After (j : List Note) (b a : Note) : Prop := ∀ later earlier, j = later ++ b :: earlier → a ∈ earlier

theorem After.append {j : List Note} {b a : Note} (h : After j b a) {new : List Note}
    (hb : b ∉ new) : After (new ++ j) b a := by
  intro later earlier he
  rcases List.append_eq_append_iff.mp he with ⟨m, rfl, hj⟩ | ⟨m, rfl, hm⟩
  · exact h m earlier hj
  · cases m with
    | nil => exact h [] earlier (by simpa using hm.symm)
    | cons c m =>
      rw [List.cons_append] at hm
      injection hm with hc _
      exact absurd (by simp [hc]) hb

theorem After.cons {j : List Note} {b a n : Note} (h : After j b a) (hn : n = b → a ∈ j) :
    After (n :: j) b a := by
  by_cases e : n = b
  · intro later earlier he
    cases later with
    | nil =>
      injection he with _ hj
      exact hj ▸ hn e
    | cons c later =>
      injection he with _ hj
      exact h later earlier hj
  · have hb : b ∉ [n] := by simpa using Ne.symm e
    exact h.append hb

theorem After.of_notMem {j : List Note} {b a : Note} (h : b ∉ j) : After j b a := by
  rintro later earlier rfl
  exact absurd (by simp) h

/-! ## Handles -/

def Handle.equiv : Fin UInt64.size ≃ Handle where
  toFun n := ⟨.ofFin n⟩
  invFun h := h.raw.toFin
  left_inv _ := rfl
  right_inv _ := rfl

instance : Finite Handle := .of_equiv _ Handle.equiv

noncomputable instance : Fintype Handle := .ofFinite _

namespace Table

variable {O : Type}

/-! ## One entry changed -/

def SameBut (x : Handle) (t u : Table O) : Prop := ∀ y, y ≠ x → u.slots.get? y = t.slots.get? y

section

variable {t u : Table O} {x y : Handle} {b c : Slot O}

theorem sameBut_modify (t : Table O) (x : Handle) (f : Slot O → Slot O) :
    SameBut x t { t with slots := t.slots.modify x f } := by
  intro y hy
  exact (Handle.Map.get?_modify t.slots x y f).trans (if_neg (Ne.symm hy))

theorem sameBut_insert (t : Table O) (x : Handle) (n : Nat) (o : O) :
    SameBut x t (t.insert x n o) := by
  intro y hy
  rw [slots_insert, Handle.Map.get?_insert, if_neg (Ne.symm hy)]

theorem sameBut_destroy (t : Table O) (x : Handle) (a : Slot O) : SameBut x t (t.destroy x a) := by
  intro y hy
  rw [get?_destroy, if_neg (Ne.symm hy)]

/-- An entry is the one that changed, or was there before. -/
theorem SameBut.cases (h : SameBut x t u) (hx : u.slots.get? x = some c)
    (hy : u.slots.get? y = some b) : y = x ∧ b = c ∨ t.slots.get? y = some b := by
  by_cases e : y = x
  · subst e
    exact .inl ⟨rfl, Option.some.inj (hy.symm.trans hx)⟩
  · exact .inr (h y e ▸ hy)

/-- Where the entry is gone, all that are left were there before. -/
theorem SameBut.gone (h : SameBut x t u) (hx : u.slots.get? x = none)
    (hy : u.slots.get? y = some b) : t.slots.get? y = some b := by
  have hne : y ≠ x := by
    intro e
    rw [e, hx] at hy
    cases hy
  exact h y hne ▸ hy

theorem SameBut.refs (h : SameBut x t u) (hy : y ≠ x) : u.refs y = t.refs y := by
  simp only [Table.refs, count?, h y hy]

end

/-! ## References from within -/

variable [Resource O]

noncomputable def coowned (t : Table O) (x : Handle) : Nat := ∑ y, (t.ownedBy y).count x

/-- Where one object alone changed, what it owned goes out of the sum, and what it owns now
    comes in. -/
theorem coowned_change {t u : Table O} {y : Handle} (h : ∀ z, z ≠ y → u.ownedBy z = t.ownedBy z)
    (x : Handle) :
    u.coowned x + (t.ownedBy y).count x = t.coowned x + (u.ownedBy y).count x := by
  have hrest : ∑ z ∈ Finset.univ.erase y, (u.ownedBy z).count x
      = ∑ z ∈ Finset.univ.erase y, (t.ownedBy z).count x :=
    Finset.sum_congr rfl fun z hz => by rw [h z (Finset.ne_of_mem_erase hz)]
  rw [coowned, coowned, ← Finset.add_sum_erase _ _ (Finset.mem_univ y),
    ← Finset.add_sum_erase _ _ (Finset.mem_univ y), hrest]
  omega

theorem coowned_congr {t t' : Table O} (h : ∀ z, t'.ownedBy z = t.ownedBy z) (x : Handle) :
    t'.coowned x = t.coowned x := by
  rw [coowned, coowned]
  exact Finset.sum_congr rfl fun z _ => by rw [h z]

theorem count_le_coowned (t : Table O) (y x : Handle) : (t.ownedBy y).count x ≤ t.coowned x := by
  rw [coowned]
  exact Finset.single_le_sum (f := fun y => (t.ownedBy y).count x) (fun _ _ => Nat.zero_le _)
    (Finset.mem_univ y)

theorem exists_owner {t : Table O} {x : Handle} (h : t.coowned x ≠ 0) :
    ∃ y a, t.slots.get? y = some a ∧ x ∈ Resource.owned a.object := by
  rw [coowned] at h
  obtain ⟨y, -, hy⟩ := Finset.exists_ne_zero_of_sum_ne_zero h
  cases ha : t.slots.get? y with
  | none => simp [ownedBy, get?, ha] at hy
  | some a =>
    rw [ownedBy_some ha] at hy
    exact ⟨y, a, ha, List.count_pos_iff.mp (Nat.pos_of_ne_zero hy)⟩

theorem ownedBy_none {t : Table O} {x : Handle} (h : t.slots.get? x = none) : t.ownedBy x = [] := by
  simp [ownedBy, get?, h]

theorem SameBut.ownedBy {t u : Table O} {x y : Handle} (h : SameBut x t u) (hy : y ≠ x) :
    u.ownedBy y = t.ownedBy y := by
  simp only [Table.ownedBy, get?, h y hy]

/-- The references balance if those of the entry that changed do: what its object owned is held
    outside now, and what it owns now was. -/
theorem SameBut.balance {t u : Table O} {x : Handle} (h : SameBut x t u) {f g : Handle → Nat}
    (hf : ∀ y, t.refs y = f y + t.coowned y)
    (hbal : ∀ y, g y + (u.ownedBy x).count y + (if y = x then t.refs x else 0)
      = f y + (t.ownedBy x).count y + if y = x then u.refs x else 0) (y : Handle) :
    u.refs y = g y + u.coowned y := by
  have hco := coowned_change (fun z hz => h.ownedBy hz) y
  have hy := hf y
  have hb := hbal y
  by_cases e : y = x
  · subst e
    rw [if_pos rfl, if_pos rfl] at hb
    omega
  · rw [if_neg e, if_neg e] at hb
    rw [h.refs e]
    omega

/-- Leaves stay, if the one that changed does. -/
theorem SameBut.leaf [Layered O] {t u : Table O} {x y : Handle} (h : SameBut x t u)
    (hx : ∀ a, t.slots.get? x = some a → Layered.leaf a.object →
      ∃ c, u.slots.get? x = some c ∧ Layered.leaf c.object)
    (hy : ∃ b, t.slots.get? y = some b ∧ Layered.leaf b.object) :
    ∃ c, u.slots.get? y = some c ∧ Layered.leaf c.object := by
  obtain ⟨b, hb, hl⟩ := hy
  by_cases e : y = x
  · subst e
    exact hx b hb hl
  · exact ⟨b, (h y e).trans hb, hl⟩

/-! ## The books -/

variable [Layered O]

structure Kept (name : String) (f : Handle → Nat) (issued : Nat) (j : List Note)
    (t : Table O) : Prop where
  named : t.component = name
  handle : ∀ x a, t.slots.get? x = some a →
    0 < x.raw.toNat ∧ x.raw.toNat ≤ issued ∧ a.serial = x.raw.toNat
  pos : ∀ x a, t.slots.get? x = some a → 0 < a.count.toNat
  balance : ∀ x, t.refs x = f x + t.coowned x
  leaves : ∀ x a, t.slots.get? x = some a → ∀ y ∈ Resource.owned a.object,
    ∃ b, t.slots.get? y = some b ∧ Layered.leaf b.object
  /-- No handle is given out twice. -/
  once : ∀ x, j.count (.created name x) ≤ 1
  fresh : ∀ x, issued < x.raw.toNat → j.count (.created name x) = 0
  /-- Who was made and is not there any more was destroyed, once. -/
  ended : ∀ x, j.count (.created name x)
    = j.count (.destroyed name x) + if (t.slots.get? x).isSome then 1 else 0
  /-- The last states are those of the objects destroyed. -/
  told : ∀ x, .destroyed name x ∈ j → ∃ o, (x.raw.toNat, o) ∈ t.retired
  /-- An owner goes before what it owns. -/
  order : ∀ n o, (n, o) ∈ t.retired → .destroyed name ⟨.ofNat n⟩ ∈ j ∧
    ∀ y ∈ Resource.owned o, After j (.destroyed name y) (.destroyed name ⟨.ofNat n⟩)

section

variable {name : String} {f g : Handle → Nat} {issued : Nat} {j : List Note} {t t' : Table O}
  {x : Handle} {a : Slot O}

theorem Kept.start (name : String) :
    Kept name (fun _ => 0) 0 [] ({ component := name } : Table O) where
  named := rfl
  handle x a h := by simp at h
  pos x a h := by simp at h
  balance x := by
    rw [coowned]
    simp [refs, count?, ownedBy, Table.get?]
  leaves x a h := by simp at h
  once x := by simp
  fresh x _ := rfl
  ended x := by simp
  told x h := by simp at h
  order n o h := by simp at h

theorem Kept.isNull (k : Kept name f issued j t) (h : t.slots.get? x = some a) :
    x.isNull = false := by
  apply Bool.eq_false_iff.mpr
  intro hn
  have := (k.handle x a h).1
  rw [isNull_iff.mp hn] at this
  exact absurd this (by decide)

/-- Who is referred to is there. -/
theorem Kept.live_of_pos (k : Kept name f issued j t) (h : 0 < f x) :
    ∃ a, t.slots.get? x = some a := by
  cases ha : t.slots.get? x with
  | some a => exact ⟨a, rfl⟩
  | none =>
    have := k.balance x
    rw [refs_none ha] at this
    omega

/-- A live object has not been destroyed yet. -/
theorem Kept.not_destroyed (k : Kept name f issued j t) (h : t.slots.get? x = some a) :
    .destroyed name x ∉ j := by
  have hend := k.ended x
  have honce := k.once x
  rw [h] at hend
  intro hmem
  have := List.count_pos_iff.mpr hmem
  simp at hend
  omega

/-! ## Changes -/

/-- Notes of other matters change nothing. -/
theorem Kept.forward (k : Kept name f issued j t) {issued' : Nat} {new : List Note}
    (hi : issued ≤ issued') (hnew : ∀ n ∈ new, n.maker? ≠ some name) :
    Kept name f issued' (new ++ j) t := by
  have hc : ∀ x, .created name x ∉ new := fun x h => hnew _ h rfl
  have hd : ∀ x, .destroyed name x ∉ new := fun x h => hnew _ h rfl
  constructor
  · exact k.named
  · intro x a h
    obtain ⟨h1, h2, h3⟩ := k.handle x a h
    exact ⟨h1, by omega, h3⟩
  · exact k.pos
  · exact k.balance
  · exact k.leaves
  · intro x
    rw [List.count_append, List.count_eq_zero_of_not_mem (hc x), Nat.zero_add]
    exact k.once x
  · intro x hx
    rw [List.count_append, List.count_eq_zero_of_not_mem (hc x), Nat.zero_add]
    exact k.fresh x (by omega)
  · intro x
    rw [List.count_append, List.count_append, List.count_eq_zero_of_not_mem (hc x),
      List.count_eq_zero_of_not_mem (hd x), Nat.zero_add, Nat.zero_add]
    exact k.ended x
  · intro x h
    exact k.told x ((List.mem_append.mp h).resolve_left (hd x))
  · intro n o h
    obtain ⟨hmem, ho⟩ := k.order n o h
    exact ⟨List.mem_append_right _ hmem, fun y hy => (ho y hy).append (hd y)⟩

/-- The entries of a table, not how they are stored, make its books. -/
theorem Kept.congr (k : Kept name f issued j t) (hg : ∀ y, t'.slots.get? y = t.slots.get? y)
    (hc : t'.component = t.component) (hr : t'.retired = t.retired) :
    Kept name f issued j t' where
  named := hc.trans k.named
  handle y b h := k.handle y b (hg y ▸ h)
  pos y b h := k.pos y b (hg y ▸ h)
  balance y := by
    have hrefs : t'.refs y = t.refs y := by simp only [refs, count?, hg]
    rw [hrefs, coowned_congr (t := t) fun z => by simp only [ownedBy, get?, hg]]
    exact k.balance y
  leaves y b h z hz := by
    obtain ⟨c, hc, hl⟩ := k.leaves y b (hg y ▸ h) z hz
    exact ⟨c, (hg z).trans hc, hl⟩
  once := k.once
  fresh := k.fresh
  ended y := by rw [hg]; exact k.ended y
  told y h := by rw [hr]; exact k.told y h
  order n o h := k.order n o (hr ▸ h)

/-- One slot changed: its count, and what its object owns. What the object no longer owns is
    held outside, and what it owns in addition was held there. -/
theorem Kept.modify (k : Kept name f issued j t) {u : Slot O → Slot O}
    (hx : t.slots.get? x = some a) (hserial : (u a).serial = a.serial)
    (hpos : 0 < (u a).count.toNat)
    (hbal : ∀ y, g y + (Resource.owned (u a).object).count y + (if y = x then a.count.toNat else 0)
      = f y + (Resource.owned a.object).count y + if y = x then (u a).count.toNat else 0)
    (hleaf : Layered.leaf a.object → Layered.leaf (u a).object)
    (hown : ∀ y ∈ Resource.owned (u a).object, ∃ b, t.slots.get? y = some b ∧ Layered.leaf b.object) :
    Kept name g issued j { t with slots := t.slots.modify x u } := by
  have hsame := sameBut_modify t x u
  have hat : (t.slots.modify x u).get? x = some (u a) := by
    rw [Handle.Map.get?_modify, if_pos rfl, hx]
    rfl
  have hkept : ∀ y, (∃ b, t.slots.get? y = some b ∧ Layered.leaf b.object) →
      ∃ c, (t.slots.modify x u).get? y = some c ∧ Layered.leaf c.object := by
    refine fun y hy => hsame.leaf (fun b hb hl => ⟨u a, hat, hleaf ?_⟩) hy
    rw [hx] at hb
    cases hb
    exact hl
  constructor
  · exact k.named
  · intro y b hb
    obtain ⟨rfl, rfl⟩ | hb := hsame.cases hat hb
    · rw [hserial]
      exact k.handle y a hx
    · exact k.handle y b hb
  · intro y b hb
    obtain ⟨rfl, rfl⟩ | hb := hsame.cases hat hb
    · exact hpos
    · exact k.pos y b hb
  · refine hsame.balance k.balance fun y => ?_
    rw [ownedBy_some hx, refs_some hx, ownedBy_some (s := u a) hat, refs_some (s := u a) hat]
    exact hbal y
  · intro y b hb z hz
    obtain ⟨rfl, rfl⟩ | hb := hsame.cases hat hb
    · exact hkept z (hown z hz)
    · exact hkept z (k.leaves y b hb z hz)
  · exact k.once
  · exact k.fresh
  · intro y
    rw [k.ended y]
    by_cases e : y = x
    · subst e
      rw [hat, hx]
      rfl
    · rw [hsame y e]
  · exact k.told
  · exact k.order

/-- Changes that neither move references nor lift a leaf. -/
theorem Kept.revise (k : Kept name f issued j t) {u : Slot O → Slot O}
    (hu : ∀ a, (u a).serial = a.serial ∧ (u a).count = a.count ∧
      Resource.owned (u a).object = Resource.owned a.object ∧
      (Layered.leaf a.object → Layered.leaf (u a).object)) (x : Handle) :
    Kept name f issued j { t with slots := t.slots.modify x u } := by
  cases hx : t.slots.get? x with
  | some a =>
    obtain ⟨hserial, hcount, hown, hleaf⟩ := hu a
    refine k.modify hx hserial (hcount ▸ k.pos x a hx) (fun y => ?_) hleaf fun y hy => ?_
    · rw [hown, hcount]
    · exact k.leaves x a hx y (hown ▸ hy)
  | none =>
    refine k.congr (fun y => ?_) rfl rfl
    rw [Handle.Map.get?_modify]
    split
    · next e =>
      subst e
      rw [hx]
      rfl
    · rfl

/-- No object has a handle that was not issued. -/
theorem Kept.unissued (k : Kept name f issued j t) (h : issued < x.raw.toNat) :
    t.slots.get? x = none := by
  cases hx : t.slots.get? x with
  | none => rfl
  | some a => exact absurd (k.handle x a hx).2.1 (Nat.not_le.mpr h)

/-- A new object has a handle of its own and one reference outside. Those it owns were held
    outside before. -/
theorem Kept.insert (k : Kept name f issued j t) {o : O} (hx : x.raw.toNat = issued + 1)
    (hbal : ∀ y, g y + (Resource.owned o).count y = f y + if y = x then 1 else 0)
    (hown : ∀ y ∈ Resource.owned o, ∃ b, t.slots.get? y = some b ∧ Layered.leaf b.object) :
    Kept name g (issued + 1) (.created name x :: j) (t.insert x (issued + 1) o) := by
  have hnone : t.slots.get? x = none := k.unissued (by omega)
  have hsame := sameBut_insert t x (issued + 1) o
  have hat : (t.insert x (issued + 1) o).slots.get? x = some ⟨issued + 1, 1, o, none⟩ := by
    rw [slots_insert, Handle.Map.get?_insert, if_pos rfl]
  have hret : (t.insert x (issued + 1) o).retired = t.retired := by rw [Table.insert, hnone]; rfl
  have hkept : ∀ y, (∃ b, t.slots.get? y = some b ∧ Layered.leaf b.object) →
      ∃ c, (t.insert x (issued + 1) o).slots.get? y = some c ∧ Layered.leaf c.object := by
    refine fun y hy => hsame.leaf (fun b hb _ => ?_) hy
    rw [hnone] at hb
    cases hb
  constructor
  · exact (component_insert ..).trans k.named
  · intro y b hb
    obtain ⟨rfl, rfl⟩ | hb := hsame.cases hat hb
    · exact ⟨by omega, by omega, hx.symm⟩
    · obtain ⟨h1, h2, h3⟩ := k.handle y b hb
      exact ⟨h1, by omega, h3⟩
  · intro y b hb
    obtain ⟨rfl, rfl⟩ | hb := hsame.cases hat hb
    · exact Nat.zero_lt_one
    · exact k.pos y b hb
  · refine hsame.balance k.balance fun y => ?_
    rw [ownedBy_none hnone, refs_none hnone, ownedBy_some hat, refs_some hat]
    simpa using hbal y
  · intro y b hb z hz
    obtain ⟨rfl, rfl⟩ | hb := hsame.cases hat hb
    · exact hkept z (hown z hz)
    · exact hkept z (k.leaves y b hb z hz)
  · intro y
    rw [count_created]
    split
    · next e => rw [e, k.fresh x (by omega)]
    · exact k.once y
  · intro y hy
    have e : y ≠ x := by
      rintro rfl
      omega
    rw [count_created, if_neg e]
    exact k.fresh y (by omega)
  · intro y
    rw [count_created, List.count_cons_of_ne (by simp), k.ended y]
    by_cases e : y = x
    · subst e
      rw [hnone, hat, if_pos rfl]
      rfl
    · rw [hsame y e, if_neg e]
      rfl
  · intro y hy
    rw [hret]
    exact k.told y (by simpa using hy)
  · intro n o' hn
    obtain ⟨hmem, ho⟩ := k.order n o' (hret ▸ hn)
    exact ⟨List.mem_cons_of_mem _ hmem, fun y hy => (ho y hy).cons fun e => by cases e⟩

/-- The last reference came back. What the object owned is owed to the outside now. -/
theorem Kept.destroy (k : Kept name f issued j t) (hx : t.slots.get? x = some a)
    (hcount : a.count.toNat = 1) (hf : 0 < f x)
    (hbal : ∀ y, (g y + if y = x then 1 else 0) = f y + (Resource.owned a.object).count y) :
    Kept name g issued (.destroyed name x :: j) (t.destroy x a) := by
  have hsame := sameBut_destroy t x a
  have hat : (t.destroy x a).slots.get? x = none := by rw [get?_destroy, if_pos rfl]
  have hserial : (⟨.ofNat a.serial⟩ : Handle) = x := by
    rw [(k.handle x a hx).2.2, UInt64.ofNat_toNat]
  constructor
  · exact k.named
  · intro y b hb
    exact k.handle y b (hsame.gone hat hb)
  · intro y b hb
    exact k.pos y b (hsame.gone hat hb)
  · refine hsame.balance k.balance fun y => ?_
    rw [ownedBy_none hat, refs_none hat, ownedBy_some hx, refs_some hx, hcount]
    simpa using hbal y
  · intro y b hb z hz
    have hy := hsame.gone hat hb
    obtain ⟨c, hc, hl⟩ := k.leaves y b hy z hz
    refine ⟨c, (hsame z ?_).trans hc, hl⟩
    -- a live owner of `x` would hold another reference
    intro e
    subst e
    have hbz := k.balance z
    rw [refs_some hx, hcount] at hbz
    have hle := count_le_coowned t y z
    rw [ownedBy_some hy] at hle
    have := List.count_pos_iff.mpr hz
    omega
  · intro y
    rw [List.count_cons_of_ne (by simp)]
    exact k.once y
  · intro y hy
    rw [List.count_cons_of_ne (by simp)]
    exact k.fresh y hy
  · intro y
    rw [count_destroyed, List.count_cons_of_ne (by simp), k.ended y]
    by_cases e : y = x
    · subst e
      rw [hx, hat, if_pos rfl]
      rfl
    · rw [hsame y e, if_neg e]
      rfl
  · intro y hy
    rcases List.mem_cons.mp hy with e | hy
    · cases e
      exact ⟨a.object, List.mem_cons.mpr (.inl (by rw [(k.handle x a hx).2.2]))⟩
    · obtain ⟨o, ho⟩ := k.told y hy
      exact ⟨o, List.mem_cons_of_mem _ ho⟩
  · intro n o hn
    rcases List.mem_cons.mp hn with e | hn
    · cases e
      rw [hserial]
      refine ⟨List.mem_cons_self, fun y hy => ?_⟩
      obtain ⟨b, hb, hl⟩ := k.leaves x a hx y hy
      refine (After.of_notMem (k.not_destroyed hb)).cons fun e => ?_
      -- an object that owns itself is no leaf
      cases e
      rw [hx] at hb
      cases hb
      rw [Layered.owned_leaf hl] at hy
      cases hy
    · obtain ⟨hmem, ho⟩ := k.order n o hn
      refine ⟨List.mem_cons_of_mem _ hmem, fun y hy => (ho y hy).cons fun _ => hmem⟩

/-! ## References that come and go -/

/-- One more reference, held outside. -/
theorem Kept.acquire (k : Kept name f issued j t) (ha : t.acquire x = .ok t')
    (hbal : ∀ y, g y = f y + if y = x then 1 else 0) : Kept name g issued j t' := by
  obtain ⟨a, hx, hmax, rfl⟩ := acquire_ok ha
  have hcount : (a.count + 1).toNat = a.count.toNat + 1 := toNat_add_one hmax
  refine k.modify (u := fun s => { s with count := a.count + 1 }) hx rfl ?_ (fun y => ?_) id
    (k.leaves x a hx)
  · simp only [hcount]
    omega
  · have := hbal y
    simp only [hcount]
    split
    · next e => rw [if_pos e] at this; omega
    · next e => rw [if_neg e] at this; omega

/-- One call of a cascade takes a reference that is held for it. It does not fail. -/
theorem Kept.releaseOnce {rest : List Handle} (owner : Option Handle)
    (k : Kept name (fun y => f y + (x :: rest).count y) issued j t) :
    Kept name (fun y => f y + ((t.releaseOnce x).2.2 ++ rest).count y) issued
        (Release.notes name ⟨x, owner, (t.releaseOnce x).2.1⟩ ++ j) (t.releaseOnce x).1 ∧
      (t.releaseOnce x).2.1 ≠ .unknown := by
  obtain ⟨a, hx⟩ := k.live_of_pos (x := x) (by simp)
  have hn := k.isNull hx
  have hcons : ∀ y, (x :: rest).count y = rest.count y + if y = x then 1 else 0 := fun y =>
    count_due (List.Perm.refl _) y
  by_cases h1 : a.count ≤ 1
  · have hcount : a.count.toNat = 1 := by
      have := k.pos x a hx
      have : a.count.toNat ≤ 1 := by simpa [UInt32.le_iff_toNat_le] using h1
      omega
    rw [releaseOnce_last hn hx h1]
    refine ⟨k.destroy hx hcount (by simp) fun y => ?_, by simp⟩
    have := hcons y
    simp only [List.count_append]
    omega
  · have hlt : 1 < a.count.toNat := by simpa [UInt32.le_iff_toNat_le] using h1
    have hcount : (a.count - 1).toNat = a.count.toNat - 1 := Nat.eq_sub_of_add_eq (toNat_sub_one h1)
    rw [releaseOnce_kept hn hx h1]
    refine ⟨?_, by simp⟩
    refine k.modify (u := fun s => { s with count := a.count - 1 }) hx rfl ?_ (fun y => ?_) id
      (k.leaves x a hx)
    · simp only [hcount]
      omega
    · have := hcons y
      simp only [hcount, List.nil_append]
      split
      · next e => rw [if_pos e] at this; omega
      · next e => rw [if_neg e] at this; omega

/-- The references due are those held for the calls that are left. -/
theorem Kept.cascade (calls : List Release) (work : List (Handle × Option Handle))
    (k : Kept name (fun y => f y + (work.map Prod.fst).count y) issued
      (calls.flatMap (Release.notes name) ++ j) t) (hc : ∀ r ∈ calls, r.fate ≠ .unknown) :
    Kept name f issued ((t.cascade calls work).2.reverse.flatMap (Release.notes name) ++ j)
        (t.cascade calls work).1 ∧
      ∀ r ∈ (t.cascade calls work).2, r.fate ≠ .unknown := by
  fun_induction Table.cascade t calls work with
  | case1 t calls =>
    rw [List.reverse_reverse]
    exact ⟨by simpa using k, fun r hr => hc r (List.mem_reverse.mp hr)⟩
  | case2 t calls h owner rest after ih =>
    obtain ⟨k', hfate⟩ := k.releaseOnce owner
    refine ih ?_ ?_
    · simpa [after, Function.comp_def, List.append_assoc] using k'
    · intro r hr
      rcases List.mem_cons.mp hr with rfl | hr
      · exact hfate
      · exact hc r hr

/-- A release gives a reference back that was held outside. It is answered with success, and
    nothing that it makes due fails. -/
theorem Kept.release (k : Kept name (fun y => f y + if y = x then 1 else 0) issued j t) :
    Kept name f issued ((t.release x).2.reverse.flatMap (Release.notes name) ++ j)
        (t.release x).1 ∧
      (∀ r ∈ (t.release x).2, r.fate ≠ .unknown) ∧
      Release.answer (t.release x).2 = .ok () := by
  have hf : (fun y => f y + if y = x then 1 else 0) = fun y => f y + [x].count y := by
    funext y
    simp [List.count_singleton', eq_comm]
  rw [hf] at k
  obtain ⟨h1, h2⟩ := Kept.cascade [] [(x, none)] k (by simp)
  refine ⟨h1, h2, ?_⟩
  obtain ⟨more, hm⟩ := release_calls t x
  have hfate : (t.releaseOnce x).2.1 ≠ .unknown :=
    h2 ⟨x, none, (t.releaseOnce x).2.1⟩ (by rw [← Table.release, hm]; simp)
  rw [hm]
  unfold Release.answer
  split
  · next heq =>
    injection heq with hhead _
    exact absurd (congrArg Release.fate hhead) hfate
  · rfl

/-! ## When nothing is held outside -/

/-- Then nothing is there: an owner of an object would be owned itself, and be no leaf. -/
theorem Kept.empty (k : Kept name f issued j t) (hf : ∀ y, f y = 0) (x : Handle) :
    t.slots.get? x = none := by
  have howner : ∀ y b, t.slots.get? y = some b →
      ∃ z c, t.slots.get? z = some c ∧ y ∈ Resource.owned c.object := by
    intro y b hb
    have hpos := k.pos y b hb
    have hbal := k.balance y
    rw [refs_some hb, hf y] at hbal
    exact exists_owner (by omega)
  cases hx : t.slots.get? x with
  | none => rfl
  | some a =>
    obtain ⟨y, b, hy, hxy⟩ := howner x a hx
    obtain ⟨z, c, hz, hyz⟩ := howner y b hy
    obtain ⟨b', hb', hl⟩ := k.leaves z c hz y hyz
    rw [hy] at hb'
    cases hb'
    rw [Layered.owned_leaf hl] at hxy
    cases hxy

end

end Table

end Boundary
