/-
  Boundary.Proofs.Exchange.Transcript — fetching from any callee.

  The callee is any computation: it may fail, report any count and write anything, and do otherwise
  from call to call. A `Turn` is one call, what was offered and what came of it. `heard fill` is the
  callee with its turns remembered; they are ghost state, without which it is the callee itself
  (`Erases`).

  An exchange is told by its turns alone (`Course`): attempts in which the source grew, one after
  the other, until an attempt ends it or none is left.

  Proved: every exchange is a course, by induction on the attempts left (`fetchFrom_course`); so
  calls alternate between size queries and fills of just that size, the first failure and the first
  count that fits end the exchange, what it answers was left by its last call alone, and it gives up
  exactly when the source grew in all attempts (`fetchArray_transcript`).
-/
import Boundary.Exchange.Rehearsal
import Boundary.Proofs.Exchange.Snapshot

namespace Boundary.Exchange

variable {σ τ κ α β : Type}

/-! ## Calls that are remembered -/

structure Turn (κ α : Type) where
  room : Room κ
  outcome : Except Failure (Filled κ α)

structure Heard (σ κ α : Type) where
  state : σ
  turns : List (Turn κ α) := []

instance [Journal σ] : Journal (Heard σ κ α) :=
  ⟨fun n s => { s with state := Journal.note n s.state }⟩

def heard (fill : Room κ → Host σ (Filled κ α)) (room : Room κ) : Host (Heard σ κ α) (Filled κ α) :=
  fun s =>
    let (r, state) := fill room s.state
    (r, { state := state, turns := s.turns ++ [⟨room, r⟩] })

def Reports (small : κ → Prop) (fill : Room κ → Host σ (Filled κ α)) : Prop :=
  ∀ s asked s', fill .query s = (.ok asked, s') → small asked.needed

/-! ## Ghost state -/

/-- Seen through `view` the first computation is the second one: whatever else its states hold is
    ghost state. -/
def Erases (view : τ → σ) (x : Host τ α) (y : Host σ α) : Prop :=
  ∀ t, y (view t) = ((x t).1, view (x t).2)

namespace Erases

variable {view : τ → σ} {x : Host τ α} {y : Host σ α} {f : α → Host τ β} {g : α → Host σ β}

theorem pure (a : α) : Erases view (Pure.pure a) (Pure.pure a) := fun _ => rfl

theorem throw (why : Failure) :
    Erases (α := α) view (MonadExcept.throw why) (MonadExcept.throw why) := fun _ => rfl

theorem lift (r : Except Failure α) : Erases view (liftM r) (liftM r) := fun _ => by
  cases r <;> rfl

theorem run (hx : Erases view x y) {r : Except Failure α} {t t' : τ} (h : x.run t = (r, t')) :
    y.run (view t) = (r, view t') :=
  (hx t).trans (congrArg (fun after => (after.1, view after.2)) h)

/-- What comes next may use what is known of the answer. -/
theorem bind_of {Q : α → Prop} (hx : Erases view x y) (hQ : ∀ t a t', x t = (.ok a, t') → Q a)
    (hf : ∀ a, Q a → Erases view (f a) (g a)) : Erases view (x >>= f) (y >>= g) := by
  intro t
  have h := hx t
  cases hr : x t with
  | mk r t' =>
    rw [hr] at h
    cases r with
    | ok a =>
      rw [run_bind_ok hr, run_bind_ok h]
      exact hf a (hQ t a t' hr) t'
    | error why => rw [run_bind_error hr, run_bind_error h]

theorem bind (hx : Erases view x y) (hf : ∀ a, Erases view (f a) (g a)) :
    Erases view (x >>= f) (y >>= g) :=
  hx.bind_of (Q := fun _ => True) (fun _ _ _ _ => trivial) fun a _ => hf a

theorem ite {c : Prop} [Decidable c] {x' : Host τ α} {y' : Host σ α} (hx : Erases view x y)
    (hx' : Erases view x' y') : Erases view (if c then x else x') (if c then y else y') := by
  split
  · exact hx
  · exact hx'

end Erases

section

variable [Journal σ] [Journal τ] {view : τ → σ}
  (hnote : ∀ n t, view (Journal.note n t) = Journal.note n (view t))
include hnote

theorem note_erases (n : Note) : Erases view (note n : Host τ PUnit) (note n) := by
  intro t
  show (Except.ok PUnit.unit, Journal.note n (view t)) = (Except.ok PUnit.unit, view (Journal.note n t))
  rw [hnote]

variable [Element α] {small : UInt64 → Prop} {fill : Room UInt64 → Host τ (Filled UInt64 α)}
  {fill' : Room UInt64 → Host σ (Filled UInt64 α)} (hreports : Reports small fill)
  (hquery : Erases view (fill .query) (fill' .query))
  (hbuffer : ∀ n, small n → Erases view (fill (.buffer n)) (fill' (.buffer n)))
include hreports hquery hbuffer

/-- An exchange learns of its states from its calls alone. -/
theorem fetchFrom_erases (total left : Nat) :
    Erases view (fetchFrom fill total left) (fetchFrom fill' total left) := by
  induction left with
  | zero => exact .throw _
  | succ left ih =>
    refine hquery.bind_of (hreports · · ·) fun asked hsmall => ?_
    refine .ite (.pure _) (.ite (.bind (.throw _) fun _ => ?_) ?_)
    all_goals
      refine (hbuffer _ hsmall).bind fun filled => ?_
      exact .ite (.bind (note_erases hnote _) fun _ => .pure _)
        (.bind (note_erases hnote _) fun _ => ih)

theorem fetchBuffer_erases (attempts : Nat) :
    Erases view (fetchBuffer attempts fill) (fetchBuffer attempts fill') :=
  fetchFrom_erases hnote hreports hquery hbuffer _ _

theorem fetchArray_erases (attempts : Nat) :
    Erases view (fetchArray attempts fill) (fetchArray attempts fill') :=
  .bind (fetchBuffer_erases hnote hreports hquery hbuffer attempts) fun _ => .pure _

end

/-- To remember the turns of a callee changes nothing else. -/
theorem heard_erases (fill : Room κ → Host σ (Filled κ α)) (room : Room κ) :
    Erases Heard.state (heard fill room) (fill room) := fun _ => rfl

theorem fetchArray_heard [Journal σ] [Element α] (fill : Room UInt64 → Host σ (Filled UInt64 α))
    (attempts : Nat) : Erases Heard.state (fetchArray attempts (heard fill)) (fetchArray attempts fill) :=
  have hany : Reports (fun _ => True) (heard fill) := fun _ _ _ _ => trivial
  fetchArray_erases (fun _ _ => rfl) hany (heard_erases fill _) (fun _ _ => heard_erases fill _)
    attempts

/-! ## Courses -/

section

variable [Element α]

def Filled.elements (filled : Filled UInt64 α) : List α :=
  (List.range filled.needed.toNat).map fun k => filled.written[k]?.getD Element.blank

theorem toList_filled {filled : Filled UInt64 α} {n : UInt64} (h : filled.needed ≤ n) :
    (((Buffer.fresh n.toNat Element.blank).overwrite filled.written).truncate
      filled.needed.toNat).toList = filled.elements := by
  have hle : filled.needed.toNat ≤ n.toNat := UInt64.le_iff_toNat_le.mp h
  simp only [Buffer.toList, Buffer.truncate, Buffer.overwrite, Buffer.fresh, Filled.elements,
    List.drop_nil, List.append_nil, List.length_take, Nat.min_eq_left hle]
  refine List.ext_getElem ?_ fun k hk _ => ?_
  · simp only [List.length_append, List.length_take, List.length_replicate, List.length_map,
      List.length_range]
    omega
  have hk : k < filled.needed.toNat := by simp at hk; omega
  rw [List.getElem_append]
  split
  · next hw =>
    have hw : k < filled.written.length := by simp at hw; omega
    simp [hw]
  · next hw =>
    have hw : ¬ k < filled.written.length := by simp at hw; omega
    simp [hw]

/-- What an exchange comes to with this call, if the call settles it: it fails, finds nothing, or
    reports no more than it had room for. -/
def Turn.answer? : Turn UInt64 α → Option (Except Failure (List α))
  | ⟨_, .error why⟩ => some (.error why)
  | ⟨.query, .ok asked⟩ => if asked.needed = 0 then some (.ok []) else none
  | ⟨.buffer n, .ok filled⟩ => if filled.needed ≤ n then some (.ok filled.elements) else none

/-- How `left` more attempts of `total` go: their turns in order, and what they come to. -/
inductive Course (total : Nat) :
    (left : Nat) → List (Turn UInt64 α) → Except Failure (List α) → Prop
  | exhausted : Course total 0 [] (.error (.capacityRace total))
  /-- The query settles it. -/
  | asked {left : Nat} {outcome : Except Failure (Filled UInt64 α)} {r : Except Failure (List α)} :
      Turn.answer? ⟨.query, outcome⟩ = some r → Course total (left + 1) [⟨.query, outcome⟩] r
  /-- No buffer of the reported size can be had. -/
  | oversized {left : Nat} {asked : Filled UInt64 α} : addressable α asked.needed = false →
      Course total (left + 1) [⟨.query, .ok asked⟩] (.error .capacityOverflow)
  /-- The fill settles it. -/
  | filled {left : Nat} {asked : Filled UInt64 α} {outcome : Except Failure (Filled UInt64 α)}
      {r : Except Failure (List α)} : asked.needed ≠ 0 →
      Turn.answer? ⟨.buffer asked.needed, outcome⟩ = some r →
      Course total (left + 1) [⟨.query, .ok asked⟩, ⟨.buffer asked.needed, outcome⟩] r
  /-- The source grew, and the attempt is discarded. -/
  | grew {left : Nat} {asked filled : Filled UInt64 α} {turns : List (Turn UInt64 α)}
      {r : Except Failure (List α)} : asked.needed ≠ 0 → asked.needed < filled.needed →
      Course total left turns r →
      Course total (left + 1)
        (⟨.query, .ok asked⟩ :: ⟨.buffer asked.needed, .ok filled⟩ :: turns) r

section

variable [Journal σ] (fill : Room UInt64 → Host σ (Filled UInt64 α))

omit [Element α] [Journal σ] in
theorem heard_does (room : Room UInt64) (before : List (Turn UInt64 α)) :
    Does (fun s => s.turns = before) (heard fill room)
      (fun filled s => s.turns = before ++ [⟨room, .ok filled⟩])
      fun why s => s.turns = before ++ [⟨room, .error why⟩] := by
  refine .of_run fun s hs => ?_
  subst hs
  rcases hr : fill room s.state with ⟨r, s'⟩
  have hheard : heard fill room s = (r, { state := s', turns := s.turns ++ [⟨room, r⟩] }) := by
    simp [heard, hr]
  cases r with
  | ok filled => exact .inl ⟨filled, _, hheard, rfl⟩
  | error why => exact .inr ⟨why, _, hheard, rfl⟩

/-- The turns of an exchange are a course of all its attempts. -/
theorem fetchFrom_course (total left : Nat) (before : List (Turn UInt64 α)) :
    Does (fun s => s.turns = before) (fetchFrom (heard fill) total left)
      (fun b s => b.blank = Element.blank ∧
        ∃ made, s.turns = before ++ made ∧ Course total left made (.ok b.toList))
      fun why s => ∃ made, s.turns = before ++ made ∧ Course total left made (.error why) := by
  have hnote (n : Note) {before : List (Turn UInt64 α)}
      {E : Failure → Heard σ UInt64 α → Prop} : Does (fun s => s.turns = before)
        (note n : Host (Heard σ UInt64 α) PUnit) (fun _ s => s.turns = before) E := fun _ hs => hs
  induction left generalizing before with
  | zero => exact .throw fun s hs => ⟨[], by rw [hs, List.append_nil], .exhausted⟩
  | succ left ih =>
    refine .bind ((heard_does fill .query before).failing fun why s hs => ⟨_, hs, .asked rfl⟩)
      fun asked => ?_
    refine .ite (fun hz => .pure fun s hs => ⟨rfl, _, hs, .asked (if_pos hz)⟩) fun hz => ?_
    refine .ite (fun hbig => .throw_bind fun s hs =>
      ⟨_, hs, .oversized (by simpa using hbig)⟩) fun _ => ?_
    refine .bind ((heard_does fill (.buffer asked.needed) _).failing fun why s hs =>
      ⟨_, hs.trans (List.append_assoc _ _ _), .filled hz rfl⟩) fun filled => ?_
    refine .ite (fun hle => .bind (hnote _) fun _ => .pure fun s hs => ?_) fun hgt =>
      .bind (hnote _) fun _ => ?_
    · refine ⟨rfl, _, hs.trans (List.append_assoc _ _ _), ?_⟩
      rw [toList_filled hle]
      exact .filled hz (if_pos hle)
    · -- the turns of this attempt come before those of the rest
      have hgrew {s : Heard σ UInt64 α} {r : Except Failure (List α)} (hrest : ∃ made,
          s.turns = before ++ [⟨.query, .ok asked⟩] ++ [⟨.buffer asked.needed, .ok filled⟩] ++ made ∧
            Course total left made r) :
          ∃ made, s.turns = before ++ made ∧ Course total (left + 1) made r := by
        obtain ⟨made, hs, hcourse⟩ := hrest
        refine ⟨_, ?_, .grew hz (UInt64.not_le.mp hgt) hcourse⟩
        simp [hs]
      exact (ih _).mono (fun _ hs => hs) (fun b s hb => ⟨hb.1, hgrew hb.2⟩) fun why s hs => hgrew hs

end

/-! ## Transcripts -/

structure Outgrown (left : Nat) (turns : List (Turn UInt64 α)) : Prop where
  length : turns.length = 2 * left
  fills : ∀ j < left, ∃ n filled,
    turns[2 * j + 1]? = some ⟨.buffer n, .ok filled⟩ ∧ n < filled.needed

/-- What is written down of an exchange of up to `left` attempts, of `total`: its turns in order,
    and what they come to. -/
structure Transcript (total left : Nat) (turns : List (Turn UInt64 α))
    (r : Except Failure (List α)) : Prop where
  bounded : turns.length ≤ 2 * left
  /-- Every other call is a size query. -/
  query : ∀ j t, turns[2 * j]? = some t → t.room = .query
  /-- The call after it is a fill, of a fresh buffer of just the size that was reported. -/
  fill : ∀ j t, turns[2 * j + 1]? = some t → ∃ asked, turns[2 * j]? = some ⟨.query, .ok asked⟩ ∧
    t.room = .buffer asked.needed
  /-- The first call that settles the exchange is the last one, and alone tells what it comes to. -/
  settled : ∀ k t a, turns[k]? = some t → t.answer? = some a → turns.length = k + 1 ∧ r = a
  /-- If none does, all attempts were made and the exchange gives up. -/
  unsettled : (∀ t ∈ turns, t.answer? = none) →
    turns.length = 2 * left ∧ r = .error (.capacityRace total)
  /-- Where no call fails, it gives up exactly when the source grew in all attempts. -/
  raced : (r = .error (.capacityRace total) ∧ ∀ t ∈ turns, ∃ filled, t.outcome = .ok filled) ↔
    Outgrown left turns

def Turn.allocates (t : Turn UInt64 α) : Bool :=
  match t.outcome with
  | .ok filled => addressable α filled.needed
  | .error _ => true

theorem Turn.answer?_error {room : Room UInt64} {outcome : Except Failure (Filled UInt64 α)}
    {why : Failure} (h : Turn.answer? ⟨room, outcome⟩ = some (.error why)) :
    outcome = .error why := by
  cases outcome with
  | error e =>
    simp only [Turn.answer?, Option.some.injEq, Except.error.injEq] at h
    rw [h]
  | ok filled =>
    cases room <;> simp [Turn.answer?] at h

/-- A call that settles an exchange without failing leaves its elements. -/
theorem Turn.answer?_of_ok {room : Room UInt64} {filled : Filled UInt64 α}
    {r : Except Failure (List α)} (h : Turn.answer? ⟨room, .ok filled⟩ = some r) :
    r = .ok filled.elements := by
  cases room with
  | query =>
    by_cases hz : filled.needed = 0
    · simp only [Turn.answer?, hz, if_pos, Option.some.injEq] at h
      simp [← h, Filled.elements, hz]
    · simp [Turn.answer?, hz] at h
  | buffer n =>
    by_cases hle : filled.needed ≤ n
    · simp only [Turn.answer?, hle, if_pos, Option.some.injEq] at h
      exact h.symm
    · simp [Turn.answer?, hle] at h

theorem Turn.answer?_ok {room : Room UInt64} {outcome : Except Failure (Filled UInt64 α)}
    {elements : List α} (h : Turn.answer? ⟨room, outcome⟩ = some (.ok elements)) :
    ∃ filled, outcome = .ok filled ∧ filled.elements = elements := by
  cases outcome with
  | error why => simp [Turn.answer?] at h
  | ok filled => exact ⟨filled, rfl, (Except.ok.inj (Turn.answer?_of_ok h)).symm⟩

namespace Transcript

variable {total left : Nat} {asked filled : Filled UInt64 α} {turns : List (Turn UInt64 α)}
  {outcome : Except Failure (Filled UInt64 α)} {r : Except Failure (List α)}

theorem of_none : Transcript (α := α) total 0 [] (.error (.capacityRace total)) where
  bounded := Nat.le_refl _
  query := by simp
  fill := by simp
  settled := by simp
  unsettled := by simp
  raced := ⟨fun _ => ⟨rfl, by simp⟩, fun _ => ⟨rfl, by simp⟩⟩

/-- The attempt ends with its query. -/
theorem of_query (h : Turn.answer? ⟨.query, outcome⟩ = some r) :
    Transcript total (left + 1) [⟨.query, outcome⟩] r where
  bounded := by
    simp only [List.length_cons, List.length_nil]
    omega
  query j t ht := by
    obtain ⟨-, rfl⟩ := List.getElem?_eq_some_iff.mp ht
    simp
  fill j t ht := by simp at ht
  settled k t a hk ha := by
    cases k with
    | zero =>
      simp only [List.getElem?_cons_zero, Option.some.injEq] at hk
      subst hk
      exact ⟨rfl, Option.some.inj (h.symm.trans ha)⟩
    | succ k => simp at hk
  unsettled hnone := by
    rw [hnone _ List.mem_cons_self] at h
    cases h
  raced := by
    constructor
    · rintro ⟨rfl, hok⟩
      obtain ⟨filled, hf⟩ := hok _ List.mem_cons_self
      cases (Turn.answer?_error h).symm.trans hf
    · rintro ⟨hlen, -⟩
      simp at hlen
      omega

/-- The attempt ends with its fill. -/
theorem of_fill (hz : asked.needed ≠ 0)
    (h : Turn.answer? ⟨.buffer asked.needed, outcome⟩ = some r) :
    Transcript total (left + 1) [⟨.query, .ok asked⟩, ⟨.buffer asked.needed, outcome⟩] r where
  bounded := by
    simp only [List.length_cons, List.length_nil]
    omega
  query j t ht := by
    cases j with
    | zero => simp at ht; simp [← ht]
    | succ j => simp [Nat.mul_succ] at ht
  fill j t ht := by
    cases j with
    | zero => simp at ht; exact ⟨asked, rfl, by simp [← ht]⟩
    | succ j => simp [Nat.mul_succ] at ht
  settled k t a hk ha := by
    match k with
    | 0 =>
      simp only [List.getElem?_cons_zero, Option.some.injEq] at hk
      subst hk
      simp [Turn.answer?, hz] at ha
    | 1 =>
      simp only [List.getElem?_cons_succ, List.getElem?_cons_zero, Option.some.injEq] at hk
      subst hk
      exact ⟨rfl, Option.some.inj (h.symm.trans ha)⟩
    | k + 2 => simp at hk
  unsettled hnone := by
    rw [hnone _ (by simp)] at h
    cases h
  raced := by
    constructor
    · rintro ⟨rfl, hok⟩
      obtain ⟨filled, hf⟩ := hok ⟨.buffer asked.needed, outcome⟩ (by simp)
      cases (Turn.answer?_error h).symm.trans hf
    · rintro ⟨-, hgrew⟩
      obtain ⟨n, filled, hfill, hgt⟩ := hgrew 0 (Nat.succ_pos left)
      simp at hfill
      obtain ⟨rfl, rfl⟩ := hfill
      simp [Turn.answer?, UInt64.not_le.mpr hgt] at h

/-- An attempt that comes to nothing is written down before the others. -/
theorem cons (hz : asked.needed ≠ 0) (hgt : asked.needed < filled.needed)
    (h : Transcript total left turns r) :
    Transcript total (left + 1)
      (⟨.query, .ok asked⟩ :: ⟨.buffer asked.needed, .ok filled⟩ :: turns) r where
  bounded := by
    have := h.bounded
    simp only [List.length_cons]
    omega
  query j t ht := by
    cases j with
    | zero => simp at ht; simp [← ht]
    | succ j => exact h.query j t ht
  fill j t ht := by
    cases j with
    | zero => simp at ht; exact ⟨asked, rfl, by simp [← ht]⟩
    | succ j => exact h.fill j t ht
  settled k t a hk ha := by
    match k with
    | 0 =>
      simp only [List.getElem?_cons_zero, Option.some.injEq] at hk
      subst hk
      simp [Turn.answer?, hz] at ha
    | 1 =>
      simp only [List.getElem?_cons_succ, List.getElem?_cons_zero, Option.some.injEq] at hk
      subst hk
      simp [Turn.answer?, UInt64.not_le.mpr hgt] at ha
    | k + 2 => simpa using h.settled k t a hk ha
  unsettled hnone := by
    obtain ⟨hlen, hr⟩ := h.unsettled fun t ht => hnone t (by simp [ht])
    exact ⟨by simp [hlen]; omega, hr⟩
  raced := by
    have hrest := h.raced
    constructor
    · rintro ⟨hr, hok⟩
      obtain ⟨hlen, hall⟩ := hrest.mp ⟨hr, fun t ht => hok t (by simp [ht])⟩
      refine ⟨by simp [hlen]; omega, fun j hj => ?_⟩
      cases j with
      | zero => exact ⟨_, filled, rfl, hgt⟩
      | succ j => exact hall j (by omega)
    · rintro ⟨hlen, hall⟩
      obtain ⟨hr, hok⟩ := hrest.mpr ⟨by simp at hlen; omega, fun j hj => hall (j + 1) (by omega)⟩
      refine ⟨hr, fun t ht => ?_⟩
      simp only [List.mem_cons] at ht
      rcases ht with rfl | rfl | ht
      · exact ⟨asked, rfl⟩
      · exact ⟨filled, rfl⟩
      · exact hok t ht

end Transcript

/-- An exchange that fails gives up, or passes on the failure of its last call. -/
theorem Transcript.error {total left : Nat} {turns : List (Turn UInt64 α)} {why : Failure}
    (h : Transcript total left turns (.error why)) :
    why = .capacityRace total ∨ ∃ room, turns.getLast? = some ⟨room, .error why⟩ := by
  by_cases hsome : ∃ t ∈ turns, ∃ a, t.answer? = some a
  · obtain ⟨⟨room, outcome⟩, ht, a, ha⟩ := hsome
    obtain ⟨k, hk⟩ := List.getElem?_of_mem ht
    obtain ⟨hlen, rfl⟩ := h.settled k _ a hk ha
    obtain rfl := Turn.answer?_error ha
    exact .inr ⟨room, by rw [List.getLast?_eq_getElem?, hlen, Nat.add_sub_cancel, hk]⟩
  · have hnone : ∀ t ∈ turns, t.answer? = none := fun t ht =>
      Option.eq_none_iff_forall_ne_some.mpr fun a ha => hsome ⟨t, ht, a, ha⟩
    exact .inl (Except.error.inj (h.unsettled hnone).2)

/-- An exchange answers exactly when no call failed and the source did not grow in all attempts, and
    then what its last call left. -/
theorem Transcript.ok_iff {total left : Nat} {turns : List (Turn UInt64 α)}
    {r : Except Failure (List α)} (h : Transcript total left turns r) (elements : List α) :
    r = .ok elements ↔ (∀ t ∈ turns, ∃ filled, t.outcome = .ok filled) ∧ ¬ Outgrown left turns ∧
      ∃ room filled, turns.getLast? = some ⟨room, .ok filled⟩ ∧ filled.elements = elements := by
  have hlast {k : Nat} {t : Turn UInt64 α} (hk : turns[k]? = some t) (hlen : turns.length = k + 1) :
      turns.getLast? = some t := by
    rw [List.getLast?_eq_getElem?, hlen, Nat.add_sub_cancel, hk]
  by_cases hsome : ∃ t ∈ turns, ∃ a, t.answer? = some a
  · obtain ⟨⟨room, outcome⟩, ht, a, ha⟩ := hsome
    obtain ⟨k, hk⟩ := List.getElem?_of_mem ht
    obtain ⟨hlen, rfl⟩ := h.settled k _ a hk ha
    constructor
    · rintro rfl
      obtain ⟨filled, rfl, helements⟩ := Turn.answer?_ok ha
      refine ⟨fun t ht => ?_, fun hgrew => ?_, room, filled, hlast hk hlen, helements⟩
      · rcases t with ⟨room', why | filled'⟩
        · obtain ⟨j, hj⟩ := List.getElem?_of_mem ht
          cases (h.settled j _ _ hj rfl).2
        · exact ⟨filled', rfl⟩
      · cases (h.raced.mpr hgrew).1
    · rintro ⟨-, -, room', filled, hfilled, rfl⟩
      obtain ⟨rfl, rfl⟩ := Turn.mk.inj (Option.some.inj ((hlast hk hlen).symm.trans hfilled))
      exact Turn.answer?_of_ok ha
  · have hnone : ∀ t ∈ turns, t.answer? = none := fun t ht =>
      Option.eq_none_iff_forall_ne_some.mpr fun a ha => hsome ⟨t, ht, a, ha⟩
    obtain ⟨-, rfl⟩ := h.unsettled hnone
    constructor
    · intro hr
      cases hr
    · rintro ⟨hok, hgrew, -⟩
      exact absurd (h.raced.mp ⟨rfl, hok⟩) hgrew

/-- A course is written down, unless it came to a halt. -/
theorem Course.transcript {total left : Nat} {turns : List (Turn UInt64 α)}
    {r : Except Failure (List α)} (h : Course total left turns r)
    (hsmall : ∀ t ∈ turns, t.allocates = true) : Transcript total left turns r := by
  induction h with
  | exhausted => exact .of_none
  | asked hr => exact .of_query hr
  | oversized hbig => exact absurd (hsmall _ List.mem_cons_self) (by simp [Turn.allocates, hbig])
  | filled hz hr => exact .of_fill hz hr
  | grew hz hgt _ ih => exact .cons hz hgt (ih fun t ht => hsmall t (by simp [ht]))

/-- With its turns remembered, an exchange is a course of all its attempts. -/
theorem fetchArray_course [Journal σ] (fill : Room UInt64 → Host σ (Filled UInt64 α))
    (attempts : Nat) (s : σ) {r : Except Failure (List α)} {s' : Heard σ UInt64 α}
    (hrun : (fetchArray attempts (heard fill)).run { state := s } = (r, s')) :
    Course (max attempts 1) (max attempts 1) s'.turns r := by
  have hcourse : Does (fun u : Heard σ UInt64 α => u.turns = []) (fetchArray attempts (heard fill))
      (fun elements u => Course (max attempts 1) (max attempts 1) u.turns (.ok elements))
      fun why u => Course (max attempts 1) (max attempts 1) u.turns (.error why) := by
    refine .bind ((fetchFrom_course fill _ _ []).failing ?_) fun b =>
      .pure fun u ⟨_, made, hu, hb⟩ => ?_
    · rintro why u ⟨made, hu, hwhy⟩
      rw [hu]
      exact hwhy
    · rw [hu]
      exact hb
  cases r with
  | ok elements => exact hcourse.after_ok rfl hrun
  | error why => exact hcourse.after_error rfl hrun

/-- An exchange with any callee, whose reports can be allocated, goes as it is written down: at most
    two calls an attempt, and one attempt at least. -/
theorem fetchArray_transcript [Journal σ] (fill : Room UInt64 → Host σ (Filled UInt64 α))
    (attempts : Nat) (s : σ) : ∃ r s' turns, (fetchArray attempts fill).run s = (r, s') ∧
      (fetchArray attempts (heard fill)).run { state := s } = (r, { state := s', turns := turns }) ∧
      ((∀ t ∈ turns, t.allocates = true) →
        Transcript (max attempts 1) (max attempts 1) turns r) := by
  rcases hrun : (fetchArray attempts (heard fill)).run { state := s } with ⟨r, s', turns⟩
  exact ⟨r, s', turns, (fetchArray_heard fill attempts).run hrun, rfl,
    (fetchArray_course fill attempts s hrun).transcript⟩

end

def misreporting : Rehearsal UInt64 UInt16 where
  told := [{ needed := 2 }, { data := [9, 9], needed := 5 }, { needed := 3 }, { data := [7], needed := 2 }]

theorem fetchArray_misreported : ∃ s' turns,
    (fetchArray 2 (heard (Rehearsal.answer UInt64.toNat))).run { state := misreporting } =
      (.ok [7, 0], { state := s', turns := turns }) ∧
    turns.map Turn.room = [.query, .buffer 2, .query, .buffer 3] ∧
    (∀ t ∈ turns, t.allocates = true) ∧ Transcript 2 2 turns (.ok [7, 0]) := by
  obtain ⟨r, s', turns, -, hrun, h⟩ :=
    fetchArray_transcript (Rehearsal.answer UInt64.toNat) 2 misreporting
  have hr : r = .ok [7, 0] := (congrArg Prod.fst hrun).symm.trans rfl
  have hrooms : turns.map Turn.room = [.query, .buffer 2, .query, .buffer 3] :=
    (congrArg (fun after => after.2.turns.map Turn.room) hrun).symm.trans rfl
  have hsmall : turns.all Turn.allocates = true :=
    (congrArg (fun after => after.2.turns.all Turn.allocates) hrun).symm.trans (by decide +kernel)
  have hall : ∀ t ∈ turns, t.allocates = true := by simpa using hsmall
  subst hr
  exact ⟨s', turns, hrun, hrooms, hall, h hall⟩

end Boundary.Exchange
