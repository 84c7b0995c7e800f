/-
  Boundary.Proofs.Exchange.Serving — what a callee writes that serves an array or a text.

  The caller passes a cell for the count and a buffer, either of which may be null, and announces how
  much room the buffer has. It is refused if it announces room that is not there, or could receive
  nothing at all (`Refused`). Otherwise the whole count is stored and the front of the buffer is
  overwritten, as far as the data and the room go (`Delivered`); the buffer may be larger than that.
  What it held before is anything, and so is what the cell held.

  Proved (`serving_exact`): one of the two happens to every caller, and a caller that is refused finds
  its memory as it was; to serve a text is to serve its bytes and a zero with 32-bit sizes; so what a
  caller reads of either is the front of what it would have read with more room.
-/
import Boundary.Bench
import Boundary.Proofs.Exchange.Widening
import Boundary.Proofs.Store

namespace Boundary.Exchange

open Text.Utf8 (write)

variable {α κ : Type}

/-! ## Buffers -/

/-- A buffer that is written from its front on keeps what comes after. -/
theorem Buffer.toList_overwrite {b : Buffer α} {written : List α}
    (h : written.length ≤ b.toList.length) :
    (b.overwrite written).toList = written ++ b.toList.drop written.length := by
  obtain ⟨head, size, blank⟩ := b
  simp only [Buffer.toList, List.length_append, List.length_replicate] at h
  simp only [Buffer.overwrite, Buffer.toList, List.append_assoc, List.length_append, List.length_drop,
    List.drop_append, List.drop_replicate]
  congr 3
  omega

/-! ## Callers -/

namespace Place

def Refused (place : Place UInt64 α) (capacity : UInt64) : Prop :=
  (0 < capacity ∧ place.buffer = none) ∨ (place.needed = none ∧ place.buffer = none)

def Holds (place : Place κ α) (n : Nat) : Prop := ∀ b, place.buffer = some b → n ≤ b.toList.length

structure Able (place : Place κ α) (room : Prop) : Prop where
  needed : place.needed.isSome = true
  buffer : room → place.buffer.isSome = true

/-- The caller is not refused. -/
theorem Able.not_refused {place : Place UInt64 α} {capacity : UInt64} (h : place.Able (0 < capacity)) :
    ¬ place.Refused capacity := by
  rintro (⟨hpos, hb⟩ | ⟨hn, -⟩)
  · simpa [hb] using h.buffer hpos
  · simpa [hn] using h.needed

def widen (place : Place UInt32 α) : Place UInt64 α :=
  ⟨place.needed.map UInt32.toUInt64, place.buffer⟩

/-- What a caller with room for `capacity` elements reads: as many as were reported, as far as its
    room goes. -/
def received (place : Place UInt64 α) (capacity : UInt64) : List α :=
  ((place.buffer.map Buffer.toList).getD []).take
    (min capacity.toNat ((place.needed.map UInt64.toNat).getD 0))

end Place

/-- The memory `before`, once `data` was served to a caller with room for `capacity` elements. -/
structure Delivered (data : List α) (capacity : UInt64) (before after : Place UInt64 α) : Prop where
  /-- The whole length is told. -/
  needed : after.needed.map UInt64.toNat = before.needed.map fun _ => data.length
  /-- The front is the data's, and what comes after is as it was. -/
  buffer : after.buffer.map Buffer.toList = before.buffer.map fun b =>
    data.take (min capacity.toNat data.length) ++ b.toList.drop (min capacity.toNat data.length)

/-- A guarded call that is refused answers with the code, and leaves the memory as it was. -/
theorem guard_refused {σ O : Type} (p : Part σ O) {h : Handle} {s : σ} {place : Place κ α}
    {r : Except Fault (Place κ α)} {why : Fault} (hr : r = .error why) :
    (p.guard h place (liftM r) s).1 = (why.code, place) := by
  rw [Part.guard_of_error (run_lift_error hr s)]

/-! ## Arrays -/

section

variable {data : List α} {capacity : UInt64} {place : Place UInt64 α}

theorem serveArray_fails {why : Fault} (h : serveArray data capacity place = .error why) :
    place.Refused capacity ∧ why.code = Status.invalidParam := by
  unfold serveArray at h
  split at h
  · next hb =>
    cases h
    exact ⟨.inl ⟨hb.1, Option.isNone_iff_eq_none.mp hb.2⟩, rfl⟩
  · split at h
    · next hb =>
      cases h
      exact ⟨.inr ⟨Option.isNone_iff_eq_none.mp hb.1, Option.isNone_iff_eq_none.mp hb.2⟩, rfl⟩
    · cases h

theorem serveArray_refused (data : List α) (h : place.Refused capacity) :
    ∃ why, serveArray data capacity place = .error why := by
  rcases h with ⟨hpos, hb⟩ | ⟨hn, hb⟩
  · exact ⟨.nullBuffer, by simp [serveArray, hpos, hb]⟩
  · by_cases hpos : 0 < capacity
    · exact ⟨.nullBuffer, by simp [serveArray, hpos, hb]⟩
    · exact ⟨.noDestination, by simp [serveArray, hpos, hn, hb]⟩

theorem serveArray_counts {after : Place UInt64 α} (h : serveArray data capacity place = .ok after) :
    after.needed = place.needed.map fun _ => UInt64.ofNat data.length := by
  unfold serveArray at h
  split at h
  · cases h
  · split at h <;> cases h
    rfl

/-- What the cell held does not matter. -/
theorem serveArray_cell {f g : κ → UInt64} (needed : Cell κ) (buffer : Option (Buffer α)) :
    serveArray data capacity ⟨needed.map f, buffer⟩ = serveArray data capacity ⟨needed.map g, buffer⟩ := by
  cases needed <;> rfl

/-- What is copied is as long as the data and the room allow. -/
theorem toNat_copied (hdata : data.length < UInt64.size) :
    (min capacity (UInt64.ofNat data.length)).toNat = min capacity.toNat data.length := by
  have hlength : (UInt64.ofNat data.length).toNat = data.length := UInt64.toNat_ofNat_of_lt' hdata
  show (if capacity ≤ UInt64.ofNat data.length then capacity else UInt64.ofNat data.length).toNat = _
  split
  · next h =>
    have := UInt64.le_iff_toNat_le.mp h
    omega
  · next h =>
    rw [UInt64.le_iff_toNat_le] at h
    omega

theorem serveArray_served (hdata : data.length < UInt64.size)
    (hholds : place.Holds (min capacity.toNat data.length)) (h : ¬ place.Refused capacity) :
    ∃ after, serveArray data capacity place = .ok after ∧ Delivered data capacity place after := by
  have hroom : ¬ (0 < capacity ∧ place.buffer.isNone = true) := fun hb =>
    h (.inl ⟨hb.1, Option.isNone_iff_eq_none.mp hb.2⟩)
  have hplace : ¬ (place.needed.isNone = true ∧ place.buffer.isNone = true) := fun hb =>
    h (.inr ⟨Option.isNone_iff_eq_none.mp hb.1, Option.isNone_iff_eq_none.mp hb.2⟩)
  refine ⟨_, by rw [serveArray, if_neg hroom, if_neg hplace], ?_, ?_⟩
  · have hlength : (UInt64.ofNat data.length).toNat = data.length := UInt64.toNat_ofNat_of_lt' hdata
    simp [Cell.write, Function.comp_def, hlength]
  · rw [Option.map_map]
    refine Option.map_congr fun b hb => ?_
    have htaken : (data.take (min capacity.toNat data.length)).length =
        min capacity.toNat data.length := by
      rw [List.length_take]
      omega
    rw [Function.comp_apply, toNat_copied hdata, Buffer.toList_overwrite, htaken]
    rw [htaken]
    exact hholds b hb

/-- A caller reads as much of the data as it has room for. -/
theorem Delivered.received {before after : Place UInt64 α} (d : Delivered data capacity before after)
    (h : before.Able (0 < capacity)) : after.received capacity = data.take capacity.toNat := by
  obtain ⟨count, hcount⟩ := Option.isSome_iff_exists.mp h.needed
  have hneeded : after.needed.map UInt64.toNat = some data.length := by
    rw [d.needed, hcount]
    rfl
  rw [Place.received, hneeded, d.buffer, Option.getD_some]
  cases hb : before.buffer with
  | none =>
    have hzero : capacity.toNat = 0 := by
      by_contra hne
      have hsome := h.buffer (UInt64.lt_iff_toNat_lt.mpr (Nat.pos_of_ne_zero hne))
      rw [hb] at hsome
      cases hsome
    simp [hzero]
  | some b =>
    have htaken : (data.take (min capacity.toNat data.length)).length =
        min capacity.toNat data.length := by
      rw [List.length_take]
      omega
    rw [Option.map_some, Option.getD_some, List.take_append_of_le_length (Nat.le_of_eq htaken.symm),
      List.take_take, Nat.min_self, ← List.take_eq_take_min]

end

/-! ## Texts -/

section

variable {text : String} {capacity : UInt32} {place : Place UInt32 UInt8}

theorem serveText_eq (text : String) (capacity : UInt32) (place : Place UInt32 UInt8) :
    serveText text capacity place =
      if UInt32.size ≤ (write text ++ [0]).length then .error .textTooLong
      else (serveArray (write text ++ [0]) capacity.toUInt64
        ⟨place.needed.map fun _ => 0, place.buffer⟩).map fun wide =>
          ⟨place.needed.write (UInt32.ofNat (write text ++ [0]).length), wide.buffer⟩ := by
  unfold serveText
  by_cases hlong : UInt32.size ≤ (write text ++ [0]).length
  · rw [if_pos hlong, if_pos hlong]
    rfl
  · rw [if_neg hlong, if_neg hlong]
    cases serveArray (write text ++ [0]) capacity.toUInt64 ⟨place.needed.map fun _ => 0, place.buffer⟩ <;>
      rfl

/-- To serve a text that can be counted is to serve its bytes and a zero. -/
theorem serveText_widen (ht : Servable text) (capacity : UInt32) (place : Place UInt32 UInt8) :
    (serveText text capacity place).map Place.widen =
      serveArray (write text ++ [0]) capacity.toUInt64 place.widen := by
  have hlength : ¬ UInt32.size ≤ (write text ++ [0]).length := by
    rw [length_bytes]
    exact Nat.not_le.mpr (Nat.succ_lt_succ ht)
  have hcount : (UInt32.ofNat (write text ++ [0]).length).toUInt64 =
      UInt64.ofNat (write text ++ [0]).length := by
    rw [length_bytes]
    exact (count_textContents ht).symm.trans (congrArg UInt64.ofNat (length_bytes text))
  rw [serveText_eq, if_neg hlength, show serveArray (write text ++ [0]) capacity.toUInt64 place.widen =
    serveArray (write text ++ [0]) capacity.toUInt64 ⟨place.needed.map fun _ => 0, place.buffer⟩ from
    serveArray_cell place.needed place.buffer]
  cases hserve : serveArray (write text ++ [0]) capacity.toUInt64
    ⟨place.needed.map fun _ => 0, place.buffer⟩ with
  | error why => rfl
  | ok wide =>
    obtain ⟨needed, buffer⟩ := wide
    have hneeded : needed = _ := serveArray_counts hserve
    refine congrArg Except.ok (congrArg (Place.mk · buffer) ?_)
    rw [hneeded, Cell.write, Option.map_map, Option.map_map]
    exact congrArg (fun count => place.needed.map fun _ => count) hcount

theorem serveText_fails {why : Fault} (h : serveText text capacity place = .error why) :
    why.code = Status.invalidParam := by
  rw [serveText_eq] at h
  split at h
  · cases h
    rfl
  · cases hserve : serveArray (write text ++ [0]) capacity.toUInt64
      ⟨place.needed.map fun _ => 0, place.buffer⟩ with
    | ok wide =>
      rw [hserve] at h
      cases h
    | error why' =>
      rw [hserve] at h
      cases h
      exact (serveArray_fails hserve).2

end

/-! ## Callers that read -/

/-- A caller that is able to is served, and reads as much of the data as it has room for. -/
theorem serveArray_read {data : List α} (hdata : data.length < UInt64.size) {capacity : UInt64}
    {place : Place UInt64 α} (h : place.Able (0 < capacity))
    (hholds : place.Holds (min capacity.toNat data.length)) :
    ∃ after, serveArray data capacity place = .ok after ∧
      after.received capacity = data.take capacity.toNat := by
  obtain ⟨after, hserve, hafter⟩ := serveArray_served hdata hholds h.not_refused
  exact ⟨after, hserve, hafter.received h⟩

theorem serveText_read {text : String} (ht : Servable text) {capacity : UInt32}
    {place : Place UInt32 UInt8} (h : place.Able (0 < capacity))
    (hholds : place.Holds (min capacity.toNat (text.utf8ByteSize + 1))) :
    ∃ after, serveText text capacity place = .ok after ∧
      after.widen.received capacity.toUInt64 = (write text ++ [0]).take capacity.toNat := by
  have hable : place.widen.Able (0 < capacity.toUInt64) := by
    refine ⟨by simpa [Place.widen] using h.needed, fun hpos => h.buffer ?_⟩
    rw [UInt64.lt_iff_toNat_lt, UInt32.toNat_toUInt64] at hpos
    exact UInt32.lt_iff_toNat_lt.mpr hpos
  have hdata : (write text ++ [0]).length < UInt64.size := (textContents text ht).counted
  have hroom : place.widen.Holds (min capacity.toUInt64.toNat (write text ++ [0]).length) := by
    rw [length_bytes, UInt32.toNat_toUInt64]
    exact hholds
  obtain ⟨wide, hwide, hread⟩ := serveArray_read hdata hable hroom
  have hserve := serveText_widen ht capacity place
  rw [hwide] at hserve
  cases hr : serveText text capacity place with
  | error why =>
    rw [hr] at hserve
    cases hserve
  | ok after =>
    rw [hr] at hserve
    cases hserve
    rw [UInt32.toNat_toUInt64] at hread
    exact ⟨after, rfl, hread⟩

/-- Every caller of an exported function that serves an array is refused and finds its memory as it
    was, if it announces room without a buffer or has no place at all; otherwise it is told the whole
    length, and the front of its buffer is overwritten as far as the array and the room go, whatever
    the memory held. A text is served as its bytes and a zero are, and if it is not, nothing is
    written. What is read of either with some room is the front of what is read with more. -/
theorem serving_exact {data : List α} (hdata : data.length < UInt64.size) {σ O : Type} (p : Part σ O)
    (h : Handle) (s : σ) :
    (∀ (capacity : UInt64) (place : Place UInt64 α), place.Holds (min capacity.toNat data.length) →
      (place.Refused capacity → ∃ why, serveArray data capacity place = .error why ∧
        why.code = Status.invalidParam ∧
        (p.guard h place (liftM (serveArray data capacity place)) s).1 = (Status.invalidParam, place)) ∧
      (¬ place.Refused capacity → ∃ after, serveArray data capacity place = .ok after ∧
        Delivered data capacity place after ∧
        (p.guard h place (liftM (serveArray data capacity place)) s).1 = (Status.ok, after))) ∧
    (∀ (text : String) (capacity : UInt32) (place : Place UInt32 UInt8),
      (text.utf8ByteSize < 4294967295 → (serveText text capacity place).map Place.widen =
        serveArray (write text ++ [0]) capacity.toUInt64 place.widen) ∧
      ∀ why, serveText text capacity place = .error why → why.code = Status.invalidParam ∧
        (p.guard h place (liftM (serveText text capacity place)) s).1 = (Status.invalidParam, place)) ∧
    (∀ (c c' : UInt64) (place place' : Place UInt64 α), c ≤ c' → place.Able (0 < c) →
      place'.Able (0 < c') → place.Holds (min c.toNat data.length) →
      place'.Holds (min c'.toNat data.length) →
      ∃ after after', serveArray data c place = .ok after ∧ serveArray data c' place' = .ok after' ∧
        after.received c <+: after'.received c') ∧
    ∀ (text : String) (c c' : UInt32) (place place' : Place UInt32 UInt8),
      text.utf8ByteSize < 4294967295 → c ≤ c' → place.Able (0 < c) → place'.Able (0 < c') →
      place.Holds (min c.toNat (text.utf8ByteSize + 1)) →
      place'.Holds (min c'.toNat (text.utf8ByteSize + 1)) →
      ∃ after after', serveText text c place = .ok after ∧ serveText text c' place' = .ok after' ∧
        after.widen.received c.toUInt64 <+: after'.widen.received c'.toUInt64 := by
  refine ⟨fun capacity place hholds => ⟨fun hr => ?_, fun hr => ?_⟩,
    fun text capacity place => ⟨fun ht => serveText_widen ht capacity place, fun why hwhy => ?_⟩, ?_, ?_⟩
  · obtain ⟨why, hserve⟩ := serveArray_refused data hr
    have hcode := (serveArray_fails hserve).2
    exact ⟨why, hserve, hcode, by rw [guard_refused p hserve, hcode]⟩
  · obtain ⟨after, hserve, hafter⟩ := serveArray_served hdata hholds hr
    exact ⟨after, hserve, hafter, by rw [Part.guard_of_ok (run_lift_ok hserve s)]⟩
  · have hcode := serveText_fails hwhy
    exact ⟨hcode, by rw [guard_refused p hwhy, hcode]⟩
  · intro c c' place place' hle hable hable' hholds hholds'
    obtain ⟨after, hserve, hread⟩ := serveArray_read hdata hable hholds
    obtain ⟨after', hserve', hread'⟩ := serveArray_read hdata hable' hholds'
    refine ⟨after, after', hserve, hserve', ?_⟩
    rw [hread, hread']
    exact List.take_prefix_take_left (UInt64.le_iff_toNat_le.mp hle)
  · intro text c c' place place' ht hle hable hable' hholds hholds'
    obtain ⟨after, hserve, hread⟩ := serveText_read ht hable hholds
    obtain ⟨after', hserve', hread'⟩ := serveText_read ht hable' hholds'
    refine ⟨after, after', hserve, hserve', ?_⟩
    rw [hread, hread']
    exact List.take_prefix_take_left (UInt32.le_iff_toNat_le.mp hle)

/-- Two elements fit, and the third stays; room is announced that is not there; and three bytes of a
    text are the front of all its five. -/
theorem serving_exact_short : [(1 : UInt64), 2, 3, 4].length < UInt64.size ∧
    (∃ after, serveArray [(1 : UInt64), 2, 3, 4] 2 ⟨some 85, some (.ofList [85, 86, 87] 0)⟩ = .ok after ∧
      after.needed.map UInt64.toNat = some 4 ∧ after.buffer.map Buffer.toList = some [1, 2, 87]) ∧
    ((Bench.part 0).guard Handle.null (⟨some 85, none⟩ : Place UInt64 UInt64)
      (liftM (serveArray [(1 : UInt64), 2, 3, 4] 2 ⟨some 85, none⟩)) { tables := [] }).1 =
        (Status.invalidParam, ⟨some 85, none⟩) ∧
    ∃ after after', serveText "Tony" 3 ⟨some 0, some (.ofList [85, 86, 87, 88] 0)⟩ = .ok after ∧
      serveText "Tony" 5 ⟨some 9, some (.fresh 5 0)⟩ = .ok after' ∧
      after.widen.received 3 <+: after'.widen.received 5 := by
  have hdata : [(1 : UInt64), 2, 3, 4].length < UInt64.size := by decide
  obtain ⟨harray, -, -, htext⟩ := serving_exact hdata (Bench.part 0) Handle.null { tables := [] }
  have hholds : Place.Holds ⟨some 85, some (.ofList [(85 : UInt64), 86, 87] 0)⟩
      (min (2 : UInt64).toNat [(1 : UInt64), 2, 3, 4].length) := by
    rintro b ⟨rfl⟩
    decide
  obtain ⟨after, hserve, hafter, -⟩ := (harray 2 ⟨some 85, some (.ofList [85, 86, 87] 0)⟩ hholds).2
    (by rintro (⟨-, hb⟩ | ⟨hn, -⟩) <;> contradiction)
  obtain ⟨-, -, -, hguard⟩ := (harray 2 ⟨some 85, none⟩ (fun b hb => by cases hb)).1
    (.inl ⟨by decide, rfl⟩)
  refine ⟨hdata, ⟨after, hserve, hafter.needed, hafter.buffer.trans rfl⟩, hguard, ?_⟩
  refine htext "Tony" 3 5 _ _ (by decide) (by decide) ⟨rfl, fun _ => rfl⟩ ⟨rfl, fun _ => rfl⟩ ?_ ?_
  · rintro b ⟨rfl⟩
    decide
  · rintro b ⟨rfl⟩
    decide

end Boundary.Exchange
