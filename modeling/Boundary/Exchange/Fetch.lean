/-
  Boundary.Exchange.Fetch — the caller's side of a variable-length output
  (`fetch_array`, `fetch_string`).

  One attempt is two calls: a size query, which offers no buffer, and a fill, which
  offers a fresh buffer of exactly the size just reported. The count that the fill
  reports decides: a count that fits is the length of the result, a count that grew
  past the buffer discards the attempt.
-/
import Boundary.Exchange.Place
import Boundary.Journal

namespace Boundary.Exchange

/-- What the caller offers in one call. -/
inductive Room (κ : Type) where
  /-- A size query: capacity zero and no buffer. -/
  | query
  /-- A fresh buffer of `n` elements. -/
  | buffer (n : κ)
  deriving DecidableEq, Repr

/-- What the callee left after one call: the count it reported, zero if it reported none,
    and the elements it wrote from the front of the buffer on. -/
structure Filled (κ α : Type) where
  needed : κ
  written : List α
  deriving DecidableEq, Repr

namespace Room

variable {α : Type}

def capacity {κ : Type} [OfNat κ 0] : Room κ → κ
  | query => 0
  | buffer n => n

/-- The memory offered: the count starts at zero, the buffer holds blanks. -/
def wide [Element α] : Room UInt64 → Place UInt64 α
  | query => ⟨some 0, none⟩
  | buffer n => ⟨some 0, some (.fresh n.toNat Element.blank)⟩

def narrow [Element α] : Room UInt32 → Place UInt32 α
  | query => ⟨some 0, none⟩
  | buffer n => ⟨some 0, some (.fresh n.toNat Element.blank)⟩

end Room

/-- What was left in memory that a room offered. -/
def Place.filled {κ α : Type} [OfNat κ 0] (p : Place κ α) : Filled κ α :=
  ⟨p.needed.getD 0, (p.buffer.map (·.head)).getD []⟩

/-- Computations of the bindings: they note, change the state, and may fail. -/
abbrev Host (σ : Type) := ExceptT Failure (StateM σ)

/-- The outcome of a computation, as an answer of its own. -/
def Host.outcome {σ α : Type} (x : Host σ α) : Host σ (Except Failure α) := fun s =>
  let (r, s) := x s
  (.ok r, s)

variable {σ α : Type} [Journal σ]

/-- Up to `left` more attempts of `total`. -/
def fetchFrom [Element α] (fill : Room UInt64 → Host σ (Filled UInt64 α)) (total : Nat) :
    (left : Nat) → Host σ (Buffer α)
  | 0 => throw (.capacityRace total)
  | left + 1 => do
    let required := (← fill .query).needed
    if required = 0 then
      return .fresh 0 Element.blank
    if !addressable α required then
      throw .capacityOverflow
    let filled ← fill (.buffer required)
    if filled.needed ≤ required then
      note (.fetched filled.needed)
      let buffer := (Buffer.fresh required.toNat Element.blank).overwrite filled.written
      return buffer.truncate filled.needed.toNat
    note (.grew required filled.needed (total - left) total)
    fetchFrom fill total left

/-- The buffer with the callee's array, in at most `attempts` attempts; there is always one. -/
def fetchBuffer [Element α] (attempts : Nat) (fill : Room UInt64 → Host σ (Filled UInt64 α)) :
    Host σ (Buffer α) :=
  fetchFrom fill (max attempts 1) (max attempts 1)

/-- The elements of the callee's array. -/
def fetchArray [Element α] (attempts : Nat) (fill : Room UInt64 → Host σ (Filled UInt64 α)) :
    Host σ (List α) := do
  return (← fetchBuffer attempts fill).toList

/-- The bytes before the zeros at the end. -/
def trimZeros (bytes : List UInt8) : List UInt8 := (bytes.reverse.dropWhile (· == 0)).reverse

theorem trimZeros_append_replicate (bytes : List UInt8) (n : Nat) :
    trimZeros (bytes ++ List.replicate n 0) = trimZeros bytes := by
  simp only [trimZeros, List.reverse_append, List.reverse_replicate]
  congr 1
  induction n with
  | zero => rfl
  | succ n ih => simp [List.replicate_succ, ih]

/-- A fresh byte is a zero, so only what was written need be looked at. -/
theorem trimZeros_toList (b : Buffer UInt8) (h : b.blank = 0) :
    trimZeros b.toList = trimZeros b.head := by
  rw [Buffer.toList, h, trimZeros_append_replicate]

/-- Sizes of texts are 32-bit. -/
def Room.asText : Room UInt64 → Except Failure (Room UInt32)
  | .query => .ok .query
  | .buffer n =>
    if n.toNat < UInt32.size then .ok (.buffer n.toUInt32)
    else .error (.invalidArgument ("string of " ++ toString n.toNat ++ " bytes is too long"))

/-- The callee's text. Sizes are in bytes and count the zero byte the callee appends; zeros
    at the end are not part of the text. -/
def fetchText (attempts : Nat) (fill : Room UInt32 → Host σ (Filled UInt32 UInt8)) :
    Host σ String := do
  let bytes ← fetchBuffer attempts fun room => do
    let filled ← fill (← room.asText)
    return { needed := filled.needed.toUInt64, written := filled.written }
  match Text.Utf8.read (trimZeros bytes.head) with
  | .ok text => return text
  | .error fault => throw (.invalidString fault)

end Boundary.Exchange
