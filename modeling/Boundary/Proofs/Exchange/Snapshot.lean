/-
  Boundary.Proofs.Exchange.Snapshot — fetching from a source that changes.

  The source holds another array at every call: `contents n` is what it serves in call `n`.
  Attempt `j` is made of the calls `2 * j`, the query, and `2 * j + 1`, the fill; it
  settles the exchange if the query finds nothing, or the fill no more than the query.

  Proved: the exchange ends with the first attempt that settles it, and its result is all
  that the source held at the last call made, of one version alone; where no attempt
  settles it, all of them are made and the exchange fails (`fetchArray_snapshot`).
-/
import Boundary.Exchange.Fetch
import Boundary.Exchange.Serve
import Boundary.Proofs.Triple

namespace Boundary.Exchange

variable {α : Type}

/-! ## Changing sources -/

structure Contents (α : Type) [Element α] where
  elements : List α
  counted : elements.length < UInt64.size
  bounded : 2 * (elements.length * Element.width α) < UInt64.size

structure Watch where
  /-- How many calls were made. -/
  calls : Nat := 0
  journal : List Note := []

instance : Journal Watch := ⟨fun n s => { s with journal := n :: s.journal }⟩

section

variable [Element α]

def serveNext (contents : Nat → Contents α) (refused : Fault → Failure) (room : Room UInt64) :
    Host Watch (Filled UInt64 α) := fun s =>
  let answer := serveArray (contents s.calls).elements room.capacity room.wide
  ((answer.map Place.filled).mapError refused, { s with calls := s.calls + 1 })

/-- Attempt `j` ends the exchange. -/
def Settles (contents : Nat → Contents α) (j : Nat) : Prop :=
  (contents (2 * j)).elements = [] ∨
    (contents (2 * j + 1)).elements.length ≤ (contents (2 * j)).elements.length

/-- The last call of attempt `j`: there is nothing to fill where the query found nothing. -/
def lastCall (contents : Nat → Contents α) (j : Nat) : Nat :=
  if (contents (2 * j)).elements = [] then 2 * j else 2 * j + 1

/-! ## One call -/

namespace Contents

def count (c : Contents α) : UInt64 := UInt64.ofNat c.elements.length

@[simp] theorem toNat_count (c : Contents α) : c.count.toNat = c.elements.length :=
  UInt64.toNat_ofNat_of_lt' c.counted

theorem count_le {c d : Contents α} : c.count ≤ d.count ↔ c.elements.length ≤ d.elements.length := by
  rw [UInt64.le_iff_toNat_le, toNat_count, toNat_count]

theorem count_eq_zero {c : Contents α} : c.count = 0 ↔ c.elements = [] := by
  rw [← UInt64.toNat_inj, toNat_count]
  exact List.length_eq_zero_iff

theorem addressable_count (c : Contents α) : addressable α c.count = true := by
  simpa [addressable] using c.bounded

def filling (c : Contents α) : Room UInt64 → Filled UInt64 α
  | .query => ⟨c.count, []⟩
  | .buffer n => ⟨c.count, c.elements.take n.toNat⟩

@[simp] theorem needed_filling (c : Contents α) (room : Room UInt64) :
    (c.filling room).needed = c.count := by
  cases room <;> rfl

theorem serve (c : Contents α) (room : Room UInt64) :
    (serveArray c.elements room.capacity room.wide).map Place.filled = .ok (c.filling room) := by
  cases room with
  | query => rfl
  | buffer n =>
    have htake : c.elements.take (min n c.count).toNat = c.elements.take n.toNat := by
      show c.elements.take (if n ≤ c.count then n else c.count).toNat = _
      split
      · rfl
      · next h =>
        rw [UInt64.le_iff_toNat_le, toNat_count, Nat.not_le] at h
        rw [toNat_count, List.take_length, List.take_of_length_le (Nat.le_of_lt h)]
    simp only [serveArray, Room.capacity, Room.wide, Option.isNone_some, Bool.false_eq_true,
      and_false, if_false, Except.map, Place.filled, Cell.write, Option.map_some,
      Option.getD_some, Buffer.overwrite, Buffer.fresh, List.drop_nil, List.append_nil]
    exact congrArg (fun written => Except.ok (Filled.mk c.count written)) htake

end Contents

structure Served (contents : Nat → Contents α) (fill : Room UInt64 → Host Watch (Filled UInt64 α)) :
    Prop where
  query : ∀ n, Does (fun s => s.calls = n) (fill .query)
    (fun filled s => filled = (contents n).filling .query ∧ s.calls = n + 1) fun _ _ => False
  /-- Buffers have the size of what was there before. -/
  buffer : ∀ k n, Does (fun s => s.calls = n) (fill (.buffer (contents k).count))
    (fun filled s => filled = (contents n).filling (.buffer (contents k).count) ∧ s.calls = n + 1)
    fun _ _ => False

/-- A call is never refused. -/
theorem serveNext_does (contents : Nat → Contents α) (refused : Fault → Failure)
    (room : Room UInt64) (n : Nat) {E : Failure → Watch → Prop} :
    Does (fun s => s.calls = n) (serveNext contents refused room)
      (fun filled s => filled = (contents n).filling room ∧ s.calls = n + 1) E := by
  rintro s rfl
  show Either _ _ (((serveArray _ _ _).map _).mapError refused) _
  rw [(contents s.calls).serve room]
  exact ⟨rfl, rfl⟩

theorem serveNext_served (contents : Nat → Contents α) (refused : Fault → Failure) :
    Served contents (serveNext contents refused) :=
  ⟨fun n => serveNext_does contents refused _ n, fun _ n => serveNext_does contents refused _ n⟩

/-- Noting makes no call. -/
theorem note_does (n : Note) (k : Nat) {E : Failure → Watch → Prop} :
    Does (fun s => s.calls = k) (note n : Host Watch PUnit) (fun _ s => s.calls = k) E :=
  fun _ hs => hs

/-! ## All attempts -/

/-- A buffer of the size asked for, filled with no more elements, has these alone. -/
theorem Contents.toList_filled (c : Contents α) {n : UInt64} (h : c.elements.length ≤ n.toNat) :
    (((Buffer.fresh n.toNat Element.blank).overwrite (c.elements.take n.toNat)).truncate
      c.count.toNat).toList = c.elements := by
  simp [Buffer.toList, Buffer.truncate, Buffer.overwrite, Buffer.fresh,
    List.take_of_length_le h, h]

section

variable {σ : Type} [Journal σ] {P P' : σ → Prop} {E : Failure → σ → Prop} {c : Contents α}
  {fill : Room UInt64 → Host σ (Filled UInt64 α)}
  (hquery : Does P' (fill .query) (fun filled s => filled = c.filling .query ∧ P s) E)
  (hbuffer : Does P (fill (.buffer c.count))
    (fun filled s => filled = c.filling (.buffer c.count) ∧ P s) E)
  (hnote : ∀ n s, P s → P (Journal.note (.fetched n) s))
include hquery hbuffer hnote

/-- Of a source that stays the same the first attempt gets all there is. What is known may change
    with the first call. -/
theorem fetchBuffer_same (attempts : Nat) :
    Does P' (fetchBuffer attempts fill)
      (fun b s => (b.toList = c.elements ∧ b.blank = Element.blank) ∧ P s) E := by
  obtain ⟨left, hleft⟩ : ∃ left, max attempts 1 = left + 1 := ⟨max attempts 1 - 1, by omega⟩
  rw [fetchBuffer, hleft]
  refine .bind hquery fun asked => .assume ?_
  rintro rfl
  refine .ite (fun hz => .pure fun s hs => ⟨⟨?_, rfl⟩, hs⟩) fun _ => ?_
  · rw [Contents.count_eq_zero.mp hz]
    rfl
  refine .ite (fun h => ?_) fun _ => ?_
  · rw [Contents.needed_filling, Contents.addressable_count] at h
    cases h
  refine .bind hbuffer fun filled => .assume ?_
  rintro rfl
  refine .ite (fun _ => ?_) fun h => absurd (UInt64.le_refl _) h
  refine .bind (Q := fun _ => P) (fun s hs => hnote _ s hs) fun _ => .pure fun s hs => ⟨⟨?_, rfl⟩, hs⟩
  exact c.toList_filled (Nat.le_of_eq c.toNat_count.symm)

theorem fetchArray_same (attempts : Nat) :
    Does P' (fetchArray attempts fill) (fun elements s => elements = c.elements ∧ P s) E :=
  .bind (fetchBuffer_same hquery hbuffer hnote attempts) fun _ => .pure fun _ h => ⟨h.1.1, h.2⟩

end

/-- With `k` attempts made, none of which settled the exchange, and `left` more to make. -/
theorem fetchFrom_snapshot {contents : Nat → Contents α}
    {fill : Room UInt64 → Host Watch (Filled UInt64 α)} (served : Served contents fill)
    (k left : Nat) (hk : ∀ i < k, ¬ Settles contents i) :
    Does (fun s => s.calls = 2 * k) (fetchFrom fill (k + left) left)
      (fun b s => ∃ j < k + left, Settles contents j ∧ (∀ i < j, ¬ Settles contents i) ∧
        (b.toList = (contents (lastCall contents j)).elements ∧ b.blank = Element.blank) ∧
        s.calls = lastCall contents j + 1)
      fun why s => why = .capacityRace (k + left) ∧ (∀ i < k + left, ¬ Settles contents i) ∧
        s.calls = 2 * (k + left) := by
  induction left generalizing k with
  | zero => exact .throw fun _ hs => ⟨rfl, hk, hs⟩
  | succ left ih =>
    refine .bind ((served.query (2 * k)).failing fun _ _ h => h.elim) fun asked => .assume ?_
    rintro rfl
    have hlt : k < k + (left + 1) := by omega
    refine .ite (fun hz => .pure fun s hs => ?_) fun hz => ?_
    · -- the query found nothing
      have hempty := Contents.count_eq_zero.mp hz
      have hlast : lastCall contents k = 2 * k := if_pos hempty
      refine ⟨k, hlt, .inl hempty, hk, ⟨?_, rfl⟩, hlast ▸ hs⟩
      rw [hlast, hempty]
      rfl
    have hfull : ¬ (contents (2 * k)).elements = [] := fun h => hz (Contents.count_eq_zero.mpr h)
    refine .ite (fun h => ?_) fun _ => ?_
    · rw [Contents.needed_filling, Contents.addressable_count] at h
      cases h
    refine .bind ((served.buffer (2 * k) (2 * k + 1)).failing fun _ _ h => h.elim)
      fun filled => .assume ?_
    rintro rfl
    have hlast : lastCall contents k = 2 * k + 1 := if_neg hfull
    refine .ite (fun hle => .bind (note_does _ _) fun _ => .pure fun s hs => ?_) fun hgt =>
      .bind (note_does _ _) fun _ => ?_
    · -- the fill had room for all there was
      have hfits := Contents.count_le.mp hle
      refine ⟨k, hlt, .inr hfits, hk, ⟨?_, rfl⟩, hlast ▸ hs⟩
      rw [hlast]
      exact (contents (2 * k + 1)).toList_filled (by rwa [Contents.needed_filling, Contents.toNat_count])
    · -- the source grew: nothing of this attempt is used again
      have hgrew : ¬ Settles contents k := by
        rintro (h | h)
        · exact hfull h
        · exact hgt (Contents.count_le.mpr h)
      have hnext : ∀ i < k + 1, ¬ Settles contents i := by
        intro i hi
        rcases Nat.lt_succ_iff_lt_or_eq.mp hi with hi | rfl
        · exact hk i hi
        · exact hgrew
      have := ih (k + 1) hnext
      rwa [Nat.add_right_comm, Nat.add_assoc] at this

/-- The exchange is a snapshot: it answers all that the source held at the last call made,
    which is of the first attempt that settles it; if there is none among the attempts, the
    exchange fails after all of them. -/
theorem fetchArray_snapshot (contents : Nat → Contents α) (refused : Fault → Failure)
    (attempts : Nat) :
    ∃ s, (∃ j < max attempts 1, Settles contents j ∧ (∀ i < j, ¬ Settles contents i) ∧
          (fetchArray attempts (serveNext contents refused)).run {} =
            (.ok (contents (lastCall contents j)).elements, s) ∧
          s.calls = lastCall contents j + 1) ∨
      ((∀ i < max attempts 1, ¬ Settles contents i) ∧
        (fetchArray attempts (serveNext contents refused)).run {} =
          (.error (.capacityRace (max attempts 1)), s) ∧
        s.calls = 2 * max attempts 1) := by
  have hfrom := fetchFrom_snapshot (serveNext_served contents refused) 0 (max attempts 1) (by simp)
  rw [Nat.zero_add] at hfrom
  have harray : Does (fun s => s.calls = 0) (fetchArray attempts (serveNext contents refused))
      (fun elements s => ∃ j < max attempts 1, Settles contents j ∧
        (∀ i < j, ¬ Settles contents i) ∧
        elements = (contents (lastCall contents j)).elements ∧ s.calls = lastCall contents j + 1)
      fun why s => why = .capacityRace (max attempts 1) ∧
        (∀ i < max attempts 1, ¬ Settles contents i) ∧ s.calls = 2 * max attempts 1 :=
    .bind hfrom fun _ => .pure fun _ ⟨j, hj, hsettles, hfirst, hb, hcalls⟩ =>
      ⟨j, hj, hsettles, hfirst, hb.1, hcalls⟩
  have h := harray {} rfl
  revert h
  generalize (fetchArray attempts (serveNext contents refused)).run {} = after
  obtain ⟨r, s⟩ := after
  intro h
  cases r with
  | ok elements =>
    obtain ⟨j, hj, hsettles, hfirst, rfl, hcalls⟩ := h
    exact ⟨s, .inl ⟨j, hj, hsettles, hfirst, rfl, hcalls⟩⟩
  | error why =>
    obtain ⟨rfl, hnone, hcalls⟩ := h
    exact ⟨s, .inr ⟨hnone, rfl, hcalls⟩⟩

end

/-- A source that grows by one element between the first query and its fill. -/
example : ((fetchArray 4 (serveNext (α := UInt32)
    (fun n => if n = 0 then ⟨[1, 2, 3], by decide, by decide⟩ else ⟨[1, 2, 3, 4], by decide, by decide⟩)
    fun _ => .capacityOverflow)).run {}).1 = .ok [1, 2, 3, 4] := by
  rfl

end Boundary.Exchange
