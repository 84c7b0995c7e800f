/-
  Boundary.Proofs.Exchange.Widening — fetching a text from any callee.

  The exchange of a text is one of bytes, but its calls have 32-bit sizes: a size that a call reports
  is widened, and the next size asked for is narrowed again before the call. A size that came from 32
  bits is never too large for them, so the narrowing never fails, and each call inside is one call of
  the callee (`widened_widen`, `widened_swap`).

  What is left of the bytes without the zeros at their end (`Shorn`) is the text, if they are the
  bytes of one (`read_eq_ok`).

  Proved: for any callee the exchange of a text makes the calls of the exchange of its bytes, and
  answers the text that these are or says that they are none; its failures are those of the exchange,
  and that a size is too large is not among them (`fetchText_bytes`).
-/
import Boundary.Proofs.Exchange.Text
import Boundary.Proofs.Exchange.Transcript
import Mathlib.Data.List.DropRight

namespace Boundary

/-! ## Texts and their bytes -/

namespace Text.Utf8

theorem toUTF8_of_fromUTF8? {b : ByteArray} {t : String} (h : String.fromUTF8? b = some t) :
    t.toUTF8 = b := by
  unfold String.fromUTF8? at h
  split at h
  · cases h
    rfl
  · cases h

/-- Bytes are read as the one text that they are the bytes of. -/
theorem read_eq_ok {bytes : List UInt8} {t : String} : read bytes = .ok t ↔ write t = bytes := by
  constructor
  · intro h
    unfold read at h
    split at h
    · next u hu =>
      cases h
      rw [write, toUTF8_of_fromUTF8? hu, toList_data, List.toList_data_toByteArray]
    · cases h
  · rintro rfl
    exact read_write t

/-- Bytes of no text are a fault. -/
theorem read_eq_error {bytes : List UInt8} (h : ∀ t, write t ≠ bytes) :
    ∃ fault, read bytes = .error fault := by
  cases hr : read bytes with
  | ok t => exact absurd (read_eq_ok.mp hr) (h t)
  | error fault => exact ⟨fault, rfl⟩

end Text.Utf8

namespace Exchange

open Text.Utf8 (read write read_eq_ok read_eq_error)

structure Shorn (bytes front : List UInt8) : Prop where
  kept : ∃ n, bytes = front ++ List.replicate n 0
  ended : front.getLast? ≠ some 0

theorem shorn_trimZeros (bytes : List UInt8) : Shorn bytes (trimZeros bytes) where
  kept := by
    refine ⟨(bytes.rtakeWhile (· == 0)).length, ?_⟩
    rw [← List.eq_replicate_of_mem (a := 0) fun b hb => by simpa using List.mem_rtakeWhile_imp hb]
    exact List.rdropWhile_append_rtakeWhile.symm
  ended h := by
    have hne : bytes.rdropWhile (· == 0) ≠ [] := by
      intro hnil
      rw [show trimZeros bytes = [] from hnil] at h
      cases h
    have hlast := List.rdropWhile_last_not (· == 0) bytes hne
    rw [show trimZeros bytes = bytes.rdropWhile (· == 0) from rfl, List.getLast?_eq_some_getLast hne] at h
    simp [Option.some.inj h] at hlast

theorem Shorn.eq {bytes front : List UInt8} (h : Shorn bytes front) : trimZeros bytes = front := by
  obtain ⟨n, rfl⟩ := h.kept
  rw [trimZeros_append_replicate, Text.Utf8.trimZeros_self h.ended]

/-! ## Calls with 32-bit sizes -/

def Room.widen : Room UInt32 → Room UInt64
  | .query => .query
  | .buffer n => .buffer n.toUInt64

def Filled.widen (filled : Filled UInt32 UInt8) : Filled UInt64 UInt8 :=
  { needed := filled.needed.toUInt64, written := filled.written }

def Turn.widen (t : Turn UInt32 UInt8) : Turn UInt64 UInt8 := ⟨t.room.widen, t.outcome.map Filled.widen⟩

def Narrow (n : UInt64) : Prop := ∃ k : UInt32, n = k.toUInt64

theorem asText_widen (room : Room UInt32) : room.widen.asText = .ok room := by
  cases room with
  | query => rfl
  | buffer n => exact asText_toUInt64 n

theorem outcome_widen {t : Turn UInt32 UInt8} {why : Failure} (h : t.widen.outcome = .error why) :
    t.outcome = .error why := by
  rcases t with ⟨room, e | filled⟩
  · exact congrArg Except.error (Except.error.inj h)
  · cases h

theorem allocates_widen (t : Turn UInt32 UInt8) : t.widen.allocates = true := by
  rcases t with ⟨room, why | filled⟩
  · rfl
  · have hsmall : filled.needed.toNat < 4294967296 := filled.needed.toNat_lt
    have hsize : UInt64.size = 18446744073709551616 := rfl
    simp [Turn.widen, Turn.allocates, Except.map, Filled.widen, addressable, Element.width, hsize]
    omega

section

variable {σ τ : Type} {fill : Room UInt32 → Host σ (Filled UInt32 UInt8)}

/-- One call of the exchange inside is one call of the callee. -/
theorem widened_widen (fill : Room UInt32 → Host σ (Filled UInt32 UInt8)) (room : Room UInt32)
    (s : σ) : widened fill room.widen s = ((fill room s).1.map Filled.widen, (fill room s).2) := by
  have hroom : (liftM room.widen.asText : Host σ (Room UInt32)) s = (.ok room, s) :=
    run_lift_ok (asText_widen room) s
  refine (run_bind_ok hroom).trans ?_
  cases hr : fill room s with
  | mk r s' =>
    cases r with
    | ok filled => exact run_bind_ok hr
    | error why => exact run_bind_error hr

theorem widened_reports (fill : Room UInt32 → Host σ (Filled UInt32 UInt8)) :
    Reports Narrow (widened fill) := by
  intro s asked s' h
  have hrun := (widened_widen fill .query s).symm.trans h
  cases hr : (fill .query s).1 with
  | ok filled =>
    rw [hr] at hrun
    cases hrun
    exact ⟨_, rfl⟩
  | error why =>
    rw [hr] at hrun
    cases hrun

def Heard.widen (s : Heard σ UInt32 UInt8) : Heard σ UInt64 UInt8 :=
  { state := s.state, turns := s.turns.map Turn.widen }

/-- It is the same to remember the calls of the callee and those that are made of it. -/
theorem widened_swap (fill : Room UInt32 → Host σ (Filled UInt32 UInt8)) (room : Room UInt32) :
    Erases Heard.widen (widened (heard fill) room.widen) (heard (widened fill) room.widen) := by
  intro t
  rcases hr : fill room t.state with ⟨r, s'⟩
  simp [heard, widened_widen, Heard.widen, Turn.widen, hr]

theorem widened_erases {view : τ → σ} {x : Room UInt32 → Host τ (Filled UInt32 UInt8)}
    (h : ∀ room, Erases view (x room) (fill room)) (room : Room UInt64) :
    Erases view (widened x room) (widened fill room) :=
  .bind (.lift room.asText) fun room => (h room).bind fun _ => .pure _

variable [Journal σ]

theorem fetchBuffer_swap (fill : Room UInt32 → Host σ (Filled UInt32 UInt8)) (attempts : Nat) :
    Erases Heard.widen (fetchBuffer attempts (widened (heard fill)))
      (fetchBuffer attempts (heard (widened fill))) := by
  refine fetchBuffer_erases (fun _ _ => rfl) (widened_reports _) (widened_swap fill .query) ?_ attempts
  rintro _ ⟨k, rfl⟩
  exact widened_swap fill (.buffer k)

/-- An exchange learns of its states from its calls alone. -/
theorem fetchText_erases [Journal τ] {view : τ → σ}
    (hnote : ∀ n t, view (Journal.note n t) = Journal.note n (view t))
    {x : Room UInt32 → Host τ (Filled UInt32 UInt8)} (h : ∀ room, Erases view (x room) (fill room))
    (attempts : Nat) : Erases view (fetchText attempts x) (fetchText attempts fill) := by
  refine .bind (fetchBuffer_erases hnote (widened_reports x) (widened_erases h .query)
    (fun n _ => widened_erases h (.buffer n)) attempts) fun bytes => ?_
  cases read (trimZeros bytes.head) with
  | ok t => exact .pure t
  | error fault => exact .throw _

/-! ## What is read -/

/-- What the exchange of a text comes to where that of its bytes comes to `b`. -/
structure Spells (b : Except Failure (List UInt8)) (r : Except Failure String) : Prop where
  /-- The text that the bytes without the zeros at their end are, or a failure over them. -/
  text : ∀ bytes, b = .ok bytes → ∃ front, Shorn bytes front ∧
    (∀ t, r = .ok t ↔ write t = front) ∧
    ((∀ t, write t ≠ front) → ∃ fault, r = .error (.invalidString fault))
  failed : ∀ why, b = .error why → r = .error why

/-- The text is the one whose bytes are left when the zeros are gone. -/
theorem Spells.ok_iff {b : Except Failure (List UInt8)} {r : Except Failure String} (h : Spells b r)
    (t : String) : r = .ok t ↔ ∃ bytes, b = .ok bytes ∧ Shorn bytes (write t) := by
  cases b with
  | ok bytes =>
    obtain ⟨front, hfront, hok, -⟩ := h.text bytes rfl
    rw [hok]
    constructor
    · rintro rfl
      exact ⟨bytes, rfl, hfront⟩
    · rintro ⟨_, hb, ht⟩
      obtain rfl := Except.ok.inj hb
      exact ht.eq.symm.trans hfront.eq
  | error why =>
    obtain rfl := h.failed why rfl
    simp

theorem spells_read (bytes : List UInt8) :
    Spells (.ok bytes) ((read (trimZeros bytes)).mapError .invalidString) where
  text := by
    intro _ hb
    obtain rfl := Except.ok.inj hb
    refine ⟨trimZeros bytes, shorn_trimZeros bytes, fun t => ?_, fun hnone => ?_⟩
    · rw [← read_eq_ok]
      cases read (trimZeros bytes) <;> simp [Except.mapError]
    · obtain ⟨fault, hfault⟩ := read_eq_error hnone
      exact ⟨fault, by rw [hfault]; rfl⟩
  failed := by simp

/-- The exchange of a text is that of its bytes, which are then read. -/
theorem fetchText_spells (fill : Room UInt32 → Host σ (Filled UInt32 UInt8)) (attempts : Nat) (s : σ)
    {r : Except Failure String} {u : Heard σ UInt32 UInt8}
    (hrun : (fetchText attempts (heard fill)).run { state := s } = (r, u)) :
    ∃ b, (fetchArray attempts (heard (widened fill))).run { state := s } = (b, u.widen) ∧
      Spells b r := by
  change fetchText attempts (heard fill) { state := s } = (r, u) at hrun
  rcases hinside : fetchBuffer attempts (widened (heard fill)) { state := s } with ⟨b, v⟩
  have hwide : fetchBuffer attempts (heard (widened fill)) { state := s } = (b, v.widen) :=
    (fetchBuffer_swap fill attempts).run hinside
  cases b with
  | error why =>
    obtain ⟨rfl, rfl⟩ := Prod.mk.inj ((run_bind_error hinside).symm.trans hrun)
    exact ⟨.error why, run_bind_error hwide, ⟨by simp, by simp⟩⟩
  | ok b =>
    have hblank : b.blank = 0 := ((fetchFrom_course (widened fill) _ _ []).after_ok rfl hwide).1
    have hread : fetchText attempts (heard fill) { state := s } =
        ((read (trimZeros b.toList)).mapError .invalidString, v) := by
      rw [trimZeros_toList b hblank]
      refine (run_bind_ok hinside).trans ?_
      cases read (trimZeros b.head) <;> rfl
    obtain ⟨rfl, rfl⟩ := Prod.mk.inj (hread.symm.trans hrun)
    exact ⟨.ok b.toList, run_bind_ok hwide, spells_read b.toList⟩

/-- For any callee, fetching a text makes the calls of fetching its bytes. It answers the text that
    these are without the zeros at their end, or fails as they do, or because they are no text: a
    failure of another kind is the callee's own, of the last call made. -/
theorem fetchText_bytes (fill : Room UInt32 → Host σ (Filled UInt32 UInt8)) (attempts : Nat) (s : σ) :
    ∃ r s' turns b, (fetchText attempts fill).run s = (r, s') ∧
      (fetchText attempts (heard fill)).run { state := s } = (r, { state := s', turns := turns }) ∧
      (fetchArray attempts (heard (widened fill))).run { state := s } =
        (b, { state := s', turns := turns.map Turn.widen }) ∧
      Spells b r ∧
      ∀ why, r = .error why → (∃ fault, why = .invalidString fault) ∨
        why = .capacityRace (max attempts 1) ∨ ∃ room, turns.getLast? = some ⟨room, .error why⟩ := by
  rcases hrun : (fetchText attempts (heard fill)).run { state := s } with ⟨r, s', turns⟩
  obtain ⟨b, hbytes, hspells⟩ := fetchText_spells fill attempts s hrun
  have herase : Erases Heard.state (fetchText attempts (heard fill)) (fetchText attempts fill) :=
    fetchText_erases (fun _ _ => rfl) (heard_erases fill) attempts
  refine ⟨r, s', turns, b, herase.run hrun, rfl, hbytes, hspells, ?_⟩
  rintro why rfl
  cases b with
  | ok bytes =>
    obtain ⟨front, -, hok, hnone⟩ := hspells.text bytes rfl
    by_cases hfront : ∃ t, write t = front
    · obtain ⟨t, ht⟩ := hfront
      cases (hok t).mpr ht
    · obtain ⟨fault, hfault⟩ := hnone fun t ht => hfront ⟨t, ht⟩
      exact .inl ⟨fault, Except.error.inj hfault⟩
  | error e =>
    obtain rfl := Except.error.inj (hspells.failed e rfl)
    have hsmall : ∀ t ∈ turns.map Turn.widen, t.allocates = true := by
      simp [allocates_widen]
    have htranscript := (fetchArray_course (widened fill) attempts s hbytes).transcript hsmall
    rcases htranscript.error with hrace | ⟨room, hlast⟩
    · exact .inr (.inl hrace)
    · change (turns.map Turn.widen).getLast? = _ at hlast
      rw [List.getLast?_map, Option.map_eq_some_iff] at hlast
      obtain ⟨⟨room', outcome⟩, hturn, hwiden⟩ := hlast
      obtain rfl : outcome = .error why := outcome_widen (congrArg Turn.outcome hwiden)
      exact .inr (.inr ⟨room', hturn⟩)

end

end Exchange

end Boundary
