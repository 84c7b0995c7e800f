/-
  Boundary.Trie — finite maps keyed by bit strings.

  A node holds the entry of the empty string and one trie for each first bit of the
  others. A leaf has no entries: it reads like a node that holds nothing, so the
  operations follow the key alone. `alter` is the one change there is; it leaves no node
  behind that holds nothing. `get?` and `total` are the views: one entry, and a weight
  added up over all of them.
-/

namespace Boundary

inductive Trie (α : Type) where
  | leaf
  | node (here : Option α) (zero one : Trie α)

namespace Trie

variable {α : Type}

/-! ## Reading -/

/-- The entry of the empty string. -/
def here : Trie α → Option α
  | leaf => none
  | node v _ _ => v

/-- The entries whose first bit is `b`, by the rest of their strings. -/
def child (b : Bool) : Trie α → Trie α
  | leaf => leaf
  | node _ zero one => if b then one else zero

def get? : List Bool → Trie α → Option α
  | [], t => t.here
  | b :: bs, t => get? bs (t.child b)

/-- The sum of a weight over all entries. -/
def total (weight : α → Nat) : Trie α → Nat
  | leaf => 0
  | node v zero one => v.elim 0 weight + total weight zero + total weight one

/-! ## Changing -/

/-- A node, unless it would hold nothing. -/
def pruned : Option α → Trie α → Trie α → Trie α
  | none, leaf, leaf => leaf
  | v, zero, one => node v zero one

/-- The trie with other entries under the first bit `b`. -/
def setChild (b : Bool) (t sub : Trie α) : Trie α :=
  if b then pruned t.here (t.child false) sub else pruned t.here sub (t.child true)

/-- The trie with the entry of one string added, changed or removed. -/
def alter (f : Option α → Option α) : List Bool → Trie α → Trie α
  | [], t => pruned (f t.here) (t.child false) (t.child true)
  | b :: bs, t => t.setChild b (alter f bs (t.child b))

/-! ## What a change does to one entry -/

@[simp] theorem get?_leaf (bs : List Bool) : get? bs (leaf : Trie α) = none := by
  induction bs with
  | nil => rfl
  | cons _ _ ih => exact ih

@[simp] theorem here_pruned (v : Option α) (zero one : Trie α) :
    (pruned v zero one).here = v := by
  cases v <;> cases zero <;> cases one <;> rfl

@[simp] theorem child_pruned (b : Bool) (v : Option α) (zero one : Trie α) :
    (pruned v zero one).child b = if b then one else zero := by
  cases v <;> cases zero <;> cases one <;> cases b <;> rfl

@[simp] theorem here_setChild (b : Bool) (t sub : Trie α) : (t.setChild b sub).here = t.here := by
  cases b <;> simp [setChild]

theorem child_setChild (a b : Bool) (t sub : Trie α) :
    (t.setChild b sub).child a = if b = a then sub else t.child a := by
  cases a <;> cases b <;> simp [setChild]

theorem get?_alter (f : Option α → Option α) (k bs : List Bool) (t : Trie α) :
    get? k (alter f bs t) = if bs = k then f (get? k t) else get? k t := by
  induction bs generalizing k t with
  | nil =>
    cases k with
    | nil => simp [alter, get?]
    | cons a _ => cases a <;> simp [alter, get?]
  | cons b bs ih =>
    cases k with
    | nil => simp [alter, get?]
    | cons a k =>
      by_cases e : b = a
      · subst e
        simp [alter, get?, child_setChild, ih]
      · simp [alter, get?, child_setChild, e]

/-! ## What two changes come to -/

theorem setChild_setChild (b : Bool) (t sub sub' : Trie α) :
    (t.setChild b sub).setChild b sub' = t.setChild b sub' := by
  cases b <;> simp [setChild]

theorem setChild_comm {a b : Bool} (h : a ≠ b) (t sub sub' : Trie α) :
    (t.setChild a sub).setChild b sub' = (t.setChild b sub').setChild a sub := by
  cases a <;> cases b <;> simp [setChild] at h ⊢

/-- Changes of one entry are one change. -/
theorem alter_alter (f g : Option α → Option α) (bs : List Bool) (t : Trie α) :
    alter g bs (alter f bs t) = alter (g ∘ f) bs t := by
  induction bs generalizing t with
  | nil => simp [alter]
  | cons b bs ih => simp [alter, child_setChild, setChild_setChild, ih]

theorem setChild_child {b : Bool} {t : Trie α} (h : t.child b ≠ leaf) :
    t.setChild b (t.child b) = t := by
  cases t with
  | leaf => exact absurd rfl h
  | node v zero one => cases b <;> cases v <;> cases zero <;> cases one <;> first | rfl | exact absurd rfl h

/-- A change that leaves an entry as it is changes nothing. -/
theorem alter_same {f : Option α → Option α} {bs : List Bool} {t : Trie α} {v : α}
    (h : get? bs t = some v) (hf : f (some v) = some v) : alter f bs t = t := by
  induction bs generalizing t with
  | nil =>
    cases t with
    | leaf => cases h
    | node w zero one =>
      obtain rfl : w = some v := h
      rw [alter, here, hf]
      rfl
  | cons b bs ih =>
    have hchild : t.child b ≠ leaf := by
      intro e
      rw [get?, e, get?_leaf] at h
      cases h
    rw [alter, ih h, setChild_child hchild]

/-- Changes of two entries may be made in either order. -/
theorem alter_comm (f g : Option α → Option α) {bs cs : List Bool} (h : bs ≠ cs) (t : Trie α) :
    alter f bs (alter g cs t) = alter g cs (alter f bs t) := by
  induction bs generalizing cs t with
  | nil =>
    cases cs with
    | nil => exact absurd rfl h
    | cons c cs => cases c <;> simp [alter, setChild]
  | cons b bs ih =>
    cases cs with
    | nil => cases b <;> simp [alter, setChild]
    | cons c cs =>
      by_cases e : b = c
      · subst e
        have hrest : bs ≠ cs := fun e => h (e ▸ rfl)
        simp [alter, child_setChild, setChild_setChild, ih hrest]
      · simp [alter, child_setChild, e, Ne.symm e, setChild_comm e]

/-! ## What a change does to a total -/

theorem total_eq (weight : α → Nat) (t : Trie α) :
    t.total weight
      = t.here.elim 0 weight + (t.child false).total weight + (t.child true).total weight := by
  cases t <;> rfl

/-- The old entry goes out of the sum and the new one comes in. -/
theorem total_alter (weight : α → Nat) (f : Option α → Option α) (bs : List Bool) (t : Trie α) :
    (alter f bs t).total weight + (get? bs t).elim 0 weight
      = t.total weight + (f (get? bs t)).elim 0 weight := by
  induction bs generalizing t with
  | nil =>
    rw [total_eq weight (alter f [] t), total_eq weight t]
    simp only [alter, get?, here_pruned, child_pruned, if_true, Bool.false_eq_true, if_false]
    omega
  | cons b bs ih =>
    have := ih (t.child b)
    rw [total_eq weight (alter f (b :: bs) t), total_eq weight t]
    simp only [alter, get?, here_setChild, child_setChild]
    cases b <;> simp <;> omega

end Trie

end Boundary
