/-
  Boundary.Handle.Map — finite maps keyed by handles (the `slots` of `ObjectTable`).

  A map keeps its entries in a trie, each under the bits of its handle, so an operation
  takes no more steps than a handle has bits, however many entries there are. `get?` is
  its view: each operation is described by what it does to `get?`. `total` adds up a
  weight over all entries.
-/
import Boundary.Handle
import Boundary.Trie

namespace Boundary

namespace Handle

/-! ## The bits of a handle -/

/-- The bits of `n`, least first, up to its highest one; at most `places` of them. -/
def bitsFrom : (places : Nat) → (n : Nat) → List Bool
  | 0, _ => []
  | places + 1, n => if n = 0 then [] else (n % 2 == 1) :: bitsFrom places (n / 2)

/-- The number with the given bits. -/
def ofBits : List Bool → Nat
  | [] => 0
  | b :: bs => b.toNat + 2 * ofBits bs

theorem ofBits_bitsFrom {places n : Nat} (h : n < 1 <<< places) :
    ofBits (bitsFrom places n) = n := by
  induction places generalizing n with
  | zero =>
    simp only [Nat.shiftLeft_zero] at h
    simp only [bitsFrom, ofBits]
    omega
  | succ places ih =>
    by_cases h0 : n = 0
    · simp [bitsFrom, ofBits, h0]
    · have hlt : n / 2 < 1 <<< places := by
        rw [Nat.shiftLeft_succ] at h
        omega
      simp only [bitsFrom, if_neg h0, ofBits, ih hlt]
      rcases Nat.mod_two_eq_zero_or_one n with e | e <;> simp [e] <;> omega

def bits (h : Handle) : List Bool := bitsFrom 64 h.raw.toNat

/-- Different handles have different bits. -/
theorem bits_inj {a b : Handle} : a.bits = b.bits ↔ a = b := by
  refine ⟨fun e => ?_, fun e => by rw [e]⟩
  have hv := congrArg ofBits e
  have hlt (h : Handle) : h.raw.toNat < 1 <<< 64 := h.raw.toNat_lt
  rw [bits, bits, ofBits_bitsFrom (hlt a), ofBits_bitsFrom (hlt b)] at hv
  obtain ⟨a⟩ := a
  obtain ⟨b⟩ := b
  exact congrArg Handle.mk (UInt64.toNat_inj.mp hv)

end Handle

structure Handle.Map (α : Type) where
  entries : Trie α

namespace Handle.Map

variable {α : Type}

def empty : Map α := ⟨.leaf⟩

instance : Inhabited (Map α) := ⟨empty⟩

def get? (m : Map α) (h : Handle) : Option α := m.entries.get? h.bits

def contains (m : Map α) (h : Handle) : Bool := (m.get? h).isSome

/-- The sum of a weight over all entries. -/
def total (m : Map α) (weight : α → Nat) : Nat := m.entries.total weight

/-- Adds, changes or removes the entry of `h`. -/
def alter (m : Map α) (h : Handle) (f : Option α → Option α) : Map α :=
  ⟨m.entries.alter f h.bits⟩

/-- Adds an entry, in the place of the one `h` had if there was one. -/
def insert (m : Map α) (h : Handle) (v : α) : Map α := m.alter h fun _ => some v

def erase (m : Map α) (h : Handle) : Map α := m.alter h fun _ => none

/-- Changes the entry of `h`, if there is one. -/
def modify (m : Map α) (h : Handle) (f : α → α) : Map α := m.alter h (·.map f)

/-! ## What the operations do to the view -/

@[simp] theorem get?_empty (h : Handle) : (empty : Map α).get? h = none := Trie.get?_leaf _

theorem get?_alter (m : Map α) (h k : Handle) (f : Option α → Option α) :
    (m.alter h f).get? k = if h = k then f (m.get? k) else m.get? k := by
  simp only [get?, alter, Trie.get?_alter, Handle.bits_inj]

theorem get?_insert (m : Map α) (h k : Handle) (v : α) :
    (m.insert h v).get? k = if h = k then some v else m.get? k := get?_alter m h k _

theorem get?_erase (m : Map α) (h k : Handle) :
    (m.erase h).get? k = if h = k then none else m.get? k := get?_alter m h k _

theorem get?_modify (m : Map α) (h k : Handle) (f : α → α) :
    (m.modify h f).get? k = if h = k then (m.get? k).map f else m.get? k := get?_alter m h k _

/-! ## What two operations come to -/

theorem alter_alter (m : Map α) (h : Handle) (f g : Option α → Option α) :
    (m.alter h f).alter h g = m.alter h (g ∘ f) :=
  congrArg Map.mk (Trie.alter_alter f g h.bits m.entries)

theorem alter_comm (m : Map α) {h k : Handle} (hne : h ≠ k) (f g : Option α → Option α) :
    (m.alter h f).alter k g = (m.alter k g).alter h f :=
  congrArg Map.mk (Trie.alter_comm g f (fun e => hne (Handle.bits_inj.mp e).symm) m.entries)

theorem modify_modify (m : Map α) (h : Handle) (f g : α → α) :
    (m.modify h f).modify h g = m.modify h (g ∘ f) := by
  rw [modify, modify, modify, alter_alter]
  exact congrArg (m.alter h) (funext fun v => Option.map_map g f v)

theorem modify_same {m : Map α} {h : Handle} {v : α} (hm : m.get? h = some v) {f : α → α}
    (hf : f v = v) : m.modify h f = m :=
  congrArg Map.mk (Trie.alter_same hm (congrArg some hf))

theorem modify_comm (m : Map α) {h k : Handle} (hne : h ≠ k) (f g : α → α) :
    (m.modify h f).modify k g = (m.modify k g).modify h f :=
  m.alter_comm hne _ _

theorem modify_insert (m : Map α) (h : Handle) (v : α) (f : α → α) :
    (m.insert h v).modify h f = m.insert h (f v) :=
  m.alter_alter h _ _

theorem modify_insert_comm (m : Map α) {h k : Handle} (hne : h ≠ k) (v : α) (f : α → α) :
    (m.insert h v).modify k f = (m.modify k f).insert h v :=
  m.alter_comm hne _ _

/-! ## What the operations do to a total -/

@[simp] theorem total_empty (weight : α → Nat) : (empty : Map α).total weight = 0 := rfl

theorem total_alter (m : Map α) (h : Handle) (f : Option α → Option α) (weight : α → Nat) :
    (m.alter h f).total weight + (m.get? h).elim 0 weight
      = m.total weight + (f (m.get? h)).elim 0 weight :=
  Trie.total_alter weight f h.bits m.entries

theorem total_erase {m : Map α} {h : Handle} {v : α} (hm : m.get? h = some v)
    (weight : α → Nat) : (m.erase h).total weight + weight v = m.total weight := by
  have := total_alter m h (fun _ => none) weight
  rwa [hm] at this

/-- A change that keeps all weights keeps the total. -/
theorem total_modify (m : Map α) (h : Handle) {f : α → α} {weight : α → Nat}
    (hf : ∀ v, weight (f v) = weight v) : (m.modify h f).total weight = m.total weight := by
  have := total_alter m h (·.map f) weight
  cases hm : m.get? h with
  | none => rwa [hm] at this
  | some v =>
    rw [hm, Option.map_some, Option.elim_some, Option.elim_some, hf v] at this
    exact Nat.add_right_cancel this

end Handle.Map

end Boundary
