/-
  Boundary.Primes.Marks — marks on the numbers below a size (the table `composite` of
  `sieve`).

  One byte is kept per number. `has` is the view: `blank` marks nothing, `add` marks one
  number more, and a number past the end has no mark.
-/

namespace Boundary.Primes

structure Marks where
  bytes : ByteArray

namespace Marks

def size (t : Marks) : Nat := t.bytes.size

def has (t : Marks) (n : Nat) : Bool := if h : n < t.bytes.size then t.bytes[n] != 0 else false

/-- Room for `n` more numbers. -/
def extend : (n : Nat) → ByteArray → ByteArray
  | 0, bytes => bytes
  | n + 1, bytes => extend n (bytes.push 0)

def blank (size : Nat) : Marks := ⟨extend size .empty⟩

def add (t : Marks) (n : Nat) (h : n < t.size) : Marks := ⟨t.bytes.set n 1 h⟩

/-! ## Sizes -/

theorem size_extend (n : Nat) (bytes : ByteArray) : (extend n bytes).size = bytes.size + n := by
  induction n generalizing bytes with
  | zero => rfl
  | succ n ih =>
    rw [extend, ih, ByteArray.size_push]
    omega

@[simp] theorem size_blank (size : Nat) : (blank size).size = size := by
  simp [Marks.size, blank, size_extend]

@[simp] theorem size_add (t : Marks) (n : Nat) (h : n < t.size) : (t.add n h).size = t.size :=
  Array.size_set h

/-! ## Marks -/

/-- The view on the bytes as an array. -/
theorem has_eq (t : Marks) (n : Nat) : t.has n = (t.bytes.data[n]?.getD 0 != 0) := by
  by_cases h : n < t.bytes.size
  · simp [has, h, ByteArray.getElem_eq_getElem_data]
  · simp [has, h]

theorem data_extend (n : Nat) (bytes : ByteArray) :
    (extend n bytes).data = bytes.data ++ Array.replicate n 0 := by
  induction n generalizing bytes with
  | zero => simp [extend]
  | succ n ih => simp [extend, ih, ByteArray.data_push, Array.replicate_succ']

@[simp] theorem has_blank (size n : Nat) : (blank size).has n = false := by
  rw [has_eq, blank, data_extend]
  by_cases h : n < size <;> simp [h]

theorem has_add (t : Marks) (n k : Nat) (h : n < t.size) :
    (t.add n h).has k = (n == k || t.has k) := by
  have hn : n < t.bytes.data.size := h
  have hd : (t.add n h).bytes.data = t.bytes.data.set n 1 hn := rfl
  rw [has_eq, has_eq, hd, Array.getElem?_set]
  by_cases e : n = k <;> simp [e]

end Marks

end Boundary.Primes
