/-
  Boundary.Exchange.Rehearsal — a callee that answers what it was told to (a `fill`
  for `fetch_array` and `fetch_string`).

  Each call takes the next answer, the last one for good, and remembers the room that
  was offered.
-/
import Boundary.Exchange.Fetch

namespace Boundary.Exchange

/-- What the callee does in one call. -/
structure Told (κ α : Type) where
  data : List α := []
  /-- The count it reports. -/
  needed : κ
  /-- It fails with this instead. -/
  failure : Option Failure := none

structure Rehearsal (κ α : Type) where
  told : List (Told κ α)
  /-- Newest first. -/
  offered : List (Room κ) := []
  journal : List Note := []

namespace Rehearsal

variable {κ α : Type}

instance : Journal (Rehearsal κ α) := ⟨fun n s => { s with journal := n :: s.journal }⟩

/-- The answer to the next call. -/
def next? (s : Rehearsal κ α) : Option (Told κ α) :=
  s.told[s.offered.length]?.orElse fun _ => s.told.getLast?

/-- One call. As many elements are written as there is room for. -/
def answer [OfNat κ 0] (capacity : κ → Nat) (room : Room κ) :
    Host (Rehearsal κ α) (Filled κ α) := fun s =>
  let r : Except Failure (Filled κ α) := match s.next? with
    | none => .ok ⟨0, []⟩
    | some t => match t.failure with
      | some why => .error why
      | none => .ok ⟨t.needed, t.data.take (capacity room.capacity)⟩
  (r, { s with offered := room :: s.offered })

/-- Fetches an array from the callee. -/
def array [Element α] (attempts : Nat) (told : List (Told UInt64 α)) :
    Except Failure (List α) × List (Room UInt64) :=
  let (r, s) := fetchArray attempts (answer UInt64.toNat) ({ told := told } : Rehearsal UInt64 α)
  (r, s.offered.reverse)

/-- Fetches a text from the callee. -/
def text (attempts : Nat) (told : List (Told UInt32 UInt8)) :
    Except Failure String × List (Room UInt32) :=
  let (r, s) := fetchText attempts (answer UInt32.toNat) ({ told := told } : Rehearsal UInt32 UInt8)
  (r, s.offered.reverse)

end Rehearsal

end Boundary.Exchange
