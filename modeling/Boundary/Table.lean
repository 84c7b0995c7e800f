/-
  Boundary.Table — the reference-counted objects of one component (`ObjectTable`:
  `insert`, `get`, `acquire`, `release`, `reference_count`).

  Each live object has a slot: its count, its state and the last error recorded on it.
  A release that takes the last reference destroys the object and releases, depth
  first and in order, what it owned. The cascade is a worklist: every item is one
  release call, and its record says what became of it. The list shrinks or the slots
  lose the entries that were added to it (`weight`), so the cascade ends on every
  table, cycles included.

  A call that is still running on an object goes on seeing it when it is gone from the
  table, so the last states are kept. They go by serial number: no two objects of a
  process have the same one, even when so many were made that handles come round again.
-/
import Boundary.Fault
import Boundary.Handle.Map

namespace Boundary

/-- Objects that components keep in tables. -/
class Resource (O : Type) where
  tag : O → Tag
  /-- The handles the object holds a reference to, one entry per reference. -/
  owned : O → List Handle

structure Slot (O : Type) where
  /-- How many objects the process had made when this one was there. -/
  serial : Nat
  count : UInt32
  object : O
  lastError : Option String := none

structure Table (O : Type) where
  component : String
  slots : Handle.Map (Slot O) := .empty
  /-- The last states of the objects that are gone, by serial number. Newest first. -/
  retired : List (Nat × O) := []

/-- What became of a release call. -/
inductive Fate where
  /-- It named the null handle. -/
  | null
  /-- It named no live object. -/
  | unknown
  /-- A reference is left. -/
  | kept
  | destroyed
  deriving DecidableEq, Repr

/-- One release call of a cascade. -/
structure Release where
  handle : Handle
  /-- The destroyed object it was made for; none for the call that began the cascade. -/
  owner : Option Handle
  fate : Fate
  deriving DecidableEq, Repr

namespace Table

variable {O : Type}

/-! ## Reading -/

def get? (t : Table O) (h : Handle) : Option O := (t.slots.get? h).map (·.object)

def count? (t : Table O) (h : Handle) : Option UInt32 := (t.slots.get? h).map (·.count)

def live (t : Table O) (h : Handle) : Bool := t.slots.contains h

/-- The slot of an object, while the handle names that very object. -/
def slotOf? (t : Table O) (h : Handle) (serial : Nat) : Option (Slot O) :=
  (t.slots.get? h).filter fun s => s.serial == serial

/-- The state of an object that a running call holds: its last one if it is gone. -/
def held? (t : Table O) (h : Handle) (serial : Nat) : Option O :=
  match t.slotOf? h serial with
  | some s => some s.object
  | none => t.retired.lookup serial

/-! ## Single changes -/

/-- Keeps the last state of the object that a slot held. -/
def retire (t : Table O) (s : Slot O) : Table O :=
  { t with retired := (s.serial, s.object) :: t.retired }

/-- A new object with one reference. One that had the handle is gone. -/
def insert (t : Table O) (h : Handle) (serial : Nat) (o : O) : Table O :=
  let t := (t.slots.get? h).elim t t.retire
  { t with slots := t.slots.insert h { serial := serial, count := 1, object := o } }

def setCount (t : Table O) (h : Handle) (n : UInt32) : Table O :=
  { t with slots := t.slots.modify h fun s => { s with count := n } }

def update (t : Table O) (h : Handle) (f : O → O) : Table O :=
  { t with slots := t.slots.modify h fun s => { s with object := f s.object } }

/-- Changes the object that a running call holds, if it is still there. -/
def updateHeld (t : Table O) (h : Handle) (serial : Nat) (f : O → O) : Table O :=
  { t with slots := t.slots.modify h fun s =>
      if s.serial = serial then { s with object := f s.object } else s }

def setError (t : Table O) (h : Handle) (message : String) : Table O :=
  { t with slots := t.slots.modify h fun s => { s with lastError := some message } }

def destroy (t : Table O) (h : Handle) (s : Slot O) : Table O :=
  { t.retire s with slots := t.slots.erase h }

/-- One more reference. -/
def acquire (t : Table O) (h : Handle) : Except Fault (Table O) :=
  match t.slots.get? h with
  | none => .error (.unknownHandle h)
  | some s =>
    if s.count = 4294967295 then .error .countOverflow else .ok (t.setCount h (s.count + 1))

/-! ## Release -/

variable [Resource O]

/-- How many handles an object of a slot owns. -/
def burden (s : Slot O) : Nat := (Resource.owned s.object).length

/-- How many handles the live objects own together. -/
def weight (t : Table O) : Nat := t.slots.total burden

theorem weight_destroy {t : Table O} {h : Handle} {s : Slot O} (hs : t.slots.get? h = some s) :
    (t.destroy h s).weight + (Resource.owned s.object).length = t.weight :=
  Handle.Map.total_erase hs burden

theorem weight_setCount (t : Table O) (h : Handle) (n : UInt32) :
    (t.setCount h n).weight = t.weight :=
  Handle.Map.total_modify t.slots h fun _ => rfl

/-- One release call: its fate, and the handles that a destroyed object owned. -/
def releaseOnce (t : Table O) (h : Handle) : Table O × Fate × List Handle :=
  if h.isNull then (t, .null, [])
  else match t.slots.get? h with
    | none => (t, .unknown, [])
    | some s =>
      if s.count ≤ 1 then (t.destroy h s, .destroyed, Resource.owned s.object)
      else (t.setCount h (s.count - 1), .kept, [])

/-- What a call frees was in the table before it. -/
theorem weight_releaseOnce (t : Table O) (h : Handle) :
    (t.releaseOnce h).1.weight + (t.releaseOnce h).2.2.length = t.weight := by
  unfold releaseOnce
  split
  · rfl
  · split
    · rfl
    · next s hs =>
      split
      · exact weight_destroy hs
      · exact weight_setCount t h _

/-- Works through release calls, each with the destroyed object it is made for, after those
    in `calls`, newest first. A call that destroys an object puts the handles it owned in
    front of the rest. -/
def cascade (t : Table O) (calls : List Release) :
    List (Handle × Option Handle) → Table O × List Release
  | [] => (t, calls.reverse)
  | (h, owner) :: rest =>
    let after := t.releaseOnce h
    cascade after.1 (⟨h, owner, after.2.1⟩ :: calls) (after.2.2.map (·, some h) ++ rest)
  termination_by work => t.weight + work.length
  decreasing_by
    have := weight_releaseOnce t h
    simp only [List.length_append, List.length_map, List.length_cons]
    omega

/-- One reference fewer, with the calls that took. -/
def release (t : Table O) (h : Handle) : Table O × List Release := t.cascade [] [(h, none)]

end Table

end Boundary
