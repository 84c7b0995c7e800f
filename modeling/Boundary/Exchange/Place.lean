/-
  Boundary.Exchange.Place — the caller's memory, as a callee sees it (what
  `out_param`, `write_array` and `write_string` are handed).

  A cell is the place for one output, or nothing when the caller passed null. A buffer
  is a run of elements that all held `blank` until some were written; only the
  elements from its front that were written or handed in are kept one by one, so a
  buffer of any size costs no more than what it holds. `toList` is its contents.
-/

namespace Boundary.Exchange

/-- The place for one output; none when it is null. -/
abbrev Cell (α : Type) := Option α

/-- Stores `v`, if there is a place for it. -/
def Cell.write {α : Type} (c : Cell α) (v : α) : Cell α := c.map fun _ => v

structure Buffer (α : Type) where
  /-- The first elements, one by one. -/
  head : List α
  size : Nat
  /-- What every element after `head` holds. -/
  blank : α
  deriving Repr

namespace Buffer

variable {α : Type}

def fresh (size : Nat) (blank : α) : Buffer α := ⟨[], size, blank⟩

def ofList (xs : List α) (blank : α) : Buffer α := ⟨xs, xs.length, blank⟩

/-- The buffer of the first `n` elements, or of all if there are fewer. -/
def truncate (b : Buffer α) (n : Nat) : Buffer α :=
  { b with head := b.head.take n, size := min n b.size }

def toList (b : Buffer α) : List α :=
  b.head ++ List.replicate (b.size - b.head.length) b.blank

/-- The elements before the first blank one. -/
def beforeBlank [BEq α] (b : Buffer α) : List α := b.head.takeWhile (· != b.blank)

/-- Stores `data` from the front on. -/
def overwrite (b : Buffer α) (data : List α) : Buffer α :=
  { b with head := data ++ b.head.drop data.length }

end Buffer

/-- Where a variable-length output goes: a cell for the number of elements and a buffer,
    either of which may be null. -/
structure Place (κ α : Type) where
  needed : Cell κ
  buffer : Option (Buffer α)
  deriving Repr

/-- The kinds of element an array output holds. -/
class Element (α : Type) where
  /-- What a fresh buffer holds. -/
  blank : α
  /-- Bytes per element. -/
  width : Nat

instance : Element UInt8 := ⟨0, 1⟩
instance : Element UInt16 := ⟨0, 2⟩
instance : Element UInt32 := ⟨0, 4⟩
instance : Element UInt64 := ⟨0, 8⟩

/-- Whether an array of `count` elements can be addressed: its size in bytes is below
    half of the address space. -/
def addressable (α : Type) [Element α] (count : UInt64) : Bool :=
  decide (2 * (count.toNat * Element.width α) < UInt64.size)

end Boundary.Exchange
