/-
  Boundary.Proofs.Exchange.Text — fetching a text.

  A text crosses the boundary as its UTF-8 bytes and one zero byte, in the two calls of an
  array exchange; the caller drops the zeros at the end and reads what is left. So a text
  comes back character for character if its bytes and the zero can be counted in 32 bits
  and it does not end with a zero of its own.

  Proved: bytes of a text read as the text (`read_write`); only zeros at the end of the
  text are lost with the zero after it (`trimZeros_trimmed`); a caller that is served the same
  text in every call gets it in one attempt, however many it may make (`fetchText_served`);
  one that is served another text in every call gets the last of them, in the first attempt
  that has room for it, and nothing else can go wrong than that none has
  (`fetchText_snapshot`).
-/
import Boundary.Proofs.Exchange.Snapshot
import Mathlib.Data.List.Induction

namespace Boundary

/-! ## Bytes -/

namespace Text.Utf8

theorem toList_loop (b : ByteArray) (i : Nat) (done : List UInt8) :
    ByteArray.toList.loop b i done = done.reverse ++ b.data.toList.drop i := by
  fun_induction ByteArray.toList.loop b i done with
  | case1 i done h ih =>
    have hi : i < b.data.toList.length := by simpa using h
    rw [ih, List.drop_eq_getElem_cons hi]
    simp [ByteArray.get!, h]
  | case2 i done h =>
    rw [List.drop_eq_nil_of_le (by simpa using Nat.le_of_not_lt h), List.append_nil]

theorem toList_data (b : ByteArray) : b.toList = b.data.toList := by
  rw [ByteArray.toList, toList_loop]
  simp

/-- Character by character. -/
theorem write_eq (t : String) : write t = t.toList.flatMap String.utf8EncodeChar := by
  have hbytes : t.toUTF8 = (t.toList.flatMap String.utf8EncodeChar).toByteArray :=
    String.utf8Encode_toList.symm
  rw [write, toList_data, hbytes, List.toList_data_toByteArray]

theorem length_write (t : String) : (write t).length = t.utf8ByteSize := by
  rw [write, toList_data]
  rfl

/-- What is written reads as what it was. -/
theorem read_write (t : String) : read (write t) = .ok t := by
  have hbytes : (write t).toByteArray = t.toUTF8 := by
    rw [write, toList_data]
    refine ByteArray.ext ?_
    rw [List.data_toByteArray, Array.toArray_toList]
  have hvalid : t.toUTF8.IsValidUTF8 := t.isValidUTF8
  rw [read, hbytes, String.fromUTF8?, dif_pos hvalid]
  rfl

theorem ofNat_ne_zero {n : Nat} (h : 0 < n) (hlt : n < 256) : UInt8.ofNat n ≠ 0 := by
  intro e
  have := congrArg UInt8.toNat e
  rw [UInt8.toNat_ofNat_of_lt' hlt] at this
  exact absurd this (by simpa using Nat.ne_of_gt h)

/-- The last byte of a character is zero for one character alone. -/
theorem getLast?_encode {c : Char} (hc : c ≠ '\x00') :
    ∃ b, (String.utf8EncodeChar c).getLast? = some b ∧ b ≠ 0 := by
  have hpos : 0 < c.val.toNat := by
    refine Nat.pos_of_ne_zero fun h => hc (Char.ext (UInt32.toNat_inj.mp ?_))
    rw [h]
    rfl
  unfold String.utf8EncodeChar
  dsimp only
  split
  · exact ⟨_, rfl, ofNat_ne_zero hpos (by omega)⟩
  split
  · exact ⟨_, rfl, ofNat_ne_zero (by omega) (by omega)⟩
  split
  · exact ⟨_, rfl, ofNat_ne_zero (by omega) (by omega)⟩
  · exact ⟨_, rfl, ofNat_ne_zero (by omega) (by omega)⟩

/-- Bytes that do not end with a zero lose nothing. -/
theorem trimZeros_self {bytes : List UInt8} (h : bytes.getLast? ≠ some 0) :
    Exchange.trimZeros bytes = bytes := by
  rw [Exchange.trimZeros]
  cases hr : bytes.reverse with
  | nil => rw [List.reverse_eq_nil_iff.mp hr]; rfl
  | cons b rest =>
    have hb : b ≠ 0 := by
      rintro rfl
      rw [List.getLast?_eq_head?_reverse, hr] at h
      exact h rfl
    rw [List.dropWhile_cons_of_neg (by simpa using hb), ← hr, List.reverse_reverse]

/-- A text that does not end with a zero keeps all its bytes. -/
theorem trimZeros_write {t : String} (ht : t.toList.getLast? ≠ some '\x00') :
    Exchange.trimZeros (write t ++ [0]) = write t := by
  rw [show [0] = List.replicate 1 (0 : UInt8) from rfl, Exchange.trimZeros_append_replicate]
  refine trimZeros_self ?_
  rw [write_eq]
  rcases List.eq_nil_or_concat t.toList with h | ⟨front, c, h⟩
  · rw [h]
    exact fun e => by cases e
  · rw [h, List.concat_eq_append] at ht ⊢
    have hc : c ≠ '\x00' := by simpa using ht
    obtain ⟨b, hb, hne⟩ := getLast?_encode hc
    rw [List.flatMap_append, List.getLast?_append, List.flatMap_singleton, hb]
    exact fun e => hne (Option.some.inj e)

end Text.Utf8

structure Trimmed (t trimmed : String) : Prop where
  kept : ∃ n, t.toList = trimmed.toList ++ List.replicate n '\x00'
  ended : trimmed.toList.getLast? ≠ some '\x00'

namespace Trimmed

/-- A text without zeros at its end stays as it is. -/
theorem eq_self {t u : String} (h : Trimmed t u) (ht : t.toList.getLast? ≠ some '\x00') : u = t := by
  obtain ⟨n, hn⟩ := h.kept
  cases n with
  | zero => exact String.toList_inj.mp (by simpa using hn.symm)
  | succ n =>
    rw [hn, List.replicate_succ', ← List.append_assoc] at ht
    simp at ht

end Trimmed

namespace Text.Utf8

/-- Zeros at the end of a text are zeros at the end of its bytes. -/
theorem flatMap_zeros (n : Nat) :
    (List.replicate n '\x00').flatMap String.utf8EncodeChar = List.replicate n 0 := by
  induction n with
  | zero => rfl
  | succ n ih =>
    rw [List.replicate_succ, List.flatMap_cons, ih]
    rfl

theorem exists_trimmed (t : String) : ∃ u, Trimmed t u := by
  have hlist (l : List Char) : ∃ front n, l = front ++ List.replicate n '\x00' ∧
      front.getLast? ≠ some '\x00' := by
    induction l using List.reverseRecOn with
    | nil => exact ⟨[], 0, rfl, by simp⟩
    | append_singleton l c ih =>
      obtain ⟨front, n, rfl, hend⟩ := ih
      by_cases hc : c = '\x00'
      · exact ⟨front, n + 1, by rw [hc, List.replicate_succ', List.append_assoc], hend⟩
      · exact ⟨_, 0, (List.append_nil _).symm, by simpa using hc⟩
  obtain ⟨front, n, hl, hend⟩ := hlist t.toList
  refine ⟨String.ofList front, ⟨n, ?_⟩, ?_⟩
  · rw [String.toList_ofList, hl]
  · rwa [String.toList_ofList]

/-- Its own zeros at the end go with the one that was added. -/
theorem trimZeros_trimmed {t u : String} (h : Trimmed t u) :
    Exchange.trimZeros (write t ++ [0]) = write u := by
  obtain ⟨n, hn⟩ := h.kept
  have hbytes : write t = write u ++ List.replicate n 0 := by
    rw [write_eq, hn, List.flatMap_append, flatMap_zeros, ← write_eq]
  have hone : [0] = List.replicate 1 (0 : UInt8) := rfl
  have hself : Exchange.trimZeros (write u) = write u := by
    have := trimZeros_write h.ended
    rwa [hone, Exchange.trimZeros_append_replicate] at this
  rw [hbytes, hone, Exchange.trimZeros_append_replicate, Exchange.trimZeros_append_replicate, hself]

end Text.Utf8

/-! ## The exchange -/

namespace Exchange

open Text.Utf8 (write read_write length_write trimZeros_write trimZeros_trimmed exists_trimmed)

def Servable (t : String) : Prop := t.utf8ByteSize < 4294967295

def textCount (t : String) : UInt32 := UInt32.ofNat (t.utf8ByteSize + 1)

def textFilling (t : String) : Room UInt32 → Filled UInt32 UInt8
  | .query => ⟨textCount t, []⟩
  | .buffer n => ⟨textCount t, (write t ++ [0]).take n.toNat⟩

theorem toNat_textCount {t : String} (ht : Servable t) :
    (textCount t).toNat = t.utf8ByteSize + 1 :=
  UInt32.toNat_ofNat_of_lt' (Nat.succ_lt_succ ht)

theorem length_bytes (t : String) : (write t ++ [0]).length = t.utf8ByteSize + 1 := by
  rw [List.length_append, length_write]
  rfl

/-- As many bytes are taken as there are, and there is room for. -/
theorem take_bytes {t : String} (ht : Servable t) (n : UInt32) :
    (write t ++ [0]).take (min n.toUInt64 (UInt64.ofNat (write t ++ [0]).length)).toNat =
      (write t ++ [0]).take n.toNat := by
  have hlen : (UInt64.ofNat (write t ++ [0]).length).toNat = (write t ++ [0]).length := by
    refine UInt64.toNat_ofNat_of_lt' ?_
    rw [length_bytes]
    exact Nat.lt_trans (Nat.succ_lt_succ ht) (by decide)
  show (write t ++ [0]).take (if n.toUInt64 ≤ _ then n.toUInt64 else _).toNat = _
  split
  · rw [UInt32.toNat_toUInt64]
  · next h =>
    rw [UInt64.le_iff_toNat_le, hlen, UInt32.toNat_toUInt64, Nat.not_le] at h
    rw [hlen, List.take_length, List.take_of_length_le (Nat.le_of_lt h)]

/-- A text that can be counted is served as its bytes are. -/
theorem serveText_bytes {t : String} (ht : Servable t) {capacity : UInt32}
    {place : Place UInt32 UInt8} {wide : Place UInt64 UInt8}
    (h : serveArray (write t ++ [0]) capacity.toUInt64
      ⟨place.needed.map fun _ => 0, place.buffer⟩ = .ok wide) :
    serveText t capacity place = .ok ⟨place.needed.write (textCount t), wide.buffer⟩ := by
  have hlen : ¬ UInt32.size ≤ (write t ++ [0]).length := by
    rw [length_bytes]
    exact Nat.not_le.mpr (Nat.succ_lt_succ ht)
  unfold serveText
  rw [if_neg hlen, h, length_bytes]
  rfl

/-- Without a buffer it is counted. -/
theorem serveText_query {t : String} (ht : Servable t) (count : UInt32) :
    serveText t 0 ⟨some count, none⟩ = .ok ⟨some (textCount t), none⟩ :=
  @serveText_bytes t ht 0 ⟨some count, none⟩
    ⟨some (UInt64.ofNat (write t ++ [0]).length), none⟩ rfl

/-- A fresh buffer gets as many of its bytes as it has room for. -/
theorem serveText_fresh {t : String} (ht : Servable t) (n count : UInt32) :
    serveText t n ⟨some count, some (.fresh n.toNat 0)⟩ = .ok ⟨some (textCount t),
      some ((Buffer.fresh n.toNat 0).overwrite ((write t ++ [0]).take n.toNat))⟩ := by
  refine @serveText_bytes t ht n ⟨some count, some (.fresh n.toNat 0)⟩
    ⟨some (UInt64.ofNat (write t ++ [0]).length),
      some ((Buffer.fresh n.toNat 0).overwrite ((write t ++ [0]).take n.toNat))⟩ ?_
  rw [← take_bytes ht n, serveArray, if_neg (by simp), if_neg (by simp)]
  rfl

/-- A text that can be counted is served to whoever offers a place. -/
theorem serveText_filling {t : String} (ht : Servable t) (room : Room UInt32) :
    (serveText t room.capacity room.narrow).map Place.filled = .ok (textFilling t room) := by
  cases room with
  | query =>
    show (serveText t 0 ⟨some 0, none⟩).map Place.filled = _
    rw [serveText_query ht]
    rfl
  | buffer n =>
    show (serveText t n ⟨some 0, some (.fresh n.toNat 0)⟩).map Place.filled = _
    rw [serveText_fresh ht]
    simp [Except.map, Place.filled, textFilling, Buffer.overwrite, Buffer.fresh]

/-- A size that came from 32 bits is never too large for them. -/
theorem asText_toUInt64 (n : UInt32) : (Room.buffer n.toUInt64).asText = .ok (.buffer n) := by
  have hsmall : n.toUInt64.toNat < UInt32.size := by
    rw [UInt32.toNat_toUInt64]
    exact UInt32.toNat_lt _
  have hback : n.toUInt64.toUInt32 = n := UInt32.toNat_inj.mp (by simp)
  rw [Room.asText, if_pos hsmall, hback]

def textContents (t : String) (ht : Servable t) : Contents UInt8 where
  elements := write t ++ [0]
  counted := by
    rw [length_bytes]
    exact Nat.lt_trans (Nat.succ_lt_succ ht) (by decide)
  bounded := by
    have hsmall : t.utf8ByteSize < 4294967295 := ht
    have hsize : UInt64.size = 18446744073709551616 := rfl
    rw [length_bytes, hsize]
    show 2 * ((t.utf8ByteSize + 1) * 1) < _
    omega

theorem count_textContents {t : String} (ht : Servable t) :
    (textContents t ht).count = (textCount t).toUInt64 := by
  rw [← UInt64.toNat_inj, Contents.toNat_count, UInt32.toNat_toUInt64, toNat_textCount ht]
  exact length_bytes t

variable {σ : Type} [Journal σ] {P P' : σ → Prop} {E : Failure → σ → Prop}

/-- A call of the text exchange, as the array exchange inside it makes it. -/
def widened (fill : Room UInt32 → Host σ (Filled UInt32 UInt8)) (room : Room UInt64) :
    Host σ (Filled UInt64 UInt8) := do
  let filled ← fill (← room.asText)
  return { needed := filled.needed.toUInt64, written := filled.written }

/-- In the array exchange a text is its bytes. -/
theorem textFilling_widened {t : String} (ht : Servable t) {room : Room UInt64} {narrow : Room UInt32}
    (h : room.asText = .ok narrow) :
    { needed := (textFilling t narrow).needed.toUInt64, written := (textFilling t narrow).written } =
      (textContents t ht).filling room := by
  cases room with
  | query =>
    cases h
    simp only [Contents.filling, count_textContents]
    rfl
  | buffer n =>
    rw [Room.asText] at h
    split at h
    · next hn =>
      cases h
      have htake : n.toUInt32.toNat = n.toNat := by
        rw [UInt64.toNat_toUInt32]
        exact Nat.mod_eq_of_lt hn
      simp only [Contents.filling, count_textContents, textFilling, htake]
      rfl
    · cases h

omit [Journal σ] in
theorem widened_served {t : String} (ht : Servable t) {fill : Room UInt32 → Host σ (Filled UInt32 UInt8)}
    {room : Room UInt64} {narrow : Room UInt32} (h : room.asText = .ok narrow)
    (hfill : Does P' (fill narrow) (fun filled s => filled = textFilling t narrow ∧ P s) E) :
    Does P' (widened fill room) (fun filled s => filled = (textContents t ht).filling room ∧ P s) E := by
  refine .bind (Q := fun r s => r = narrow ∧ P' s) (.lift (fun a ha s hs => ⟨?_, hs⟩) ?_)
    fun r => .assume fun hr => ?_
  · rw [h] at ha
    exact (Except.ok.inj ha).symm
  · intro e he
    rw [h] at he
    cases he
  · subst hr
    refine .bind hfill fun filled => .assume fun hf => .pure fun s hs => ⟨?_, hs⟩
    rw [hf]
    exact textFilling_widened ht h

/-- A caller that is served the same text in every call gets it. What is known may change with
    the first call. -/
theorem fetchText_served {t : String} (ht : Servable t) {fill : Room UInt32 → Host σ (Filled UInt32 UInt8)}
    (hfill : ∀ room, Does P' (fill room) (fun filled s => filled = textFilling t room ∧ P s) E)
    (hend : t.toList.getLast? ≠ some '\x00') (hpre : ∀ s, P s → P' s)
    (hnote : ∀ n s, P s → P (Journal.note (.fetched n) s)) (attempts : Nat) :
    Does P' (fetchText attempts fill) (fun r s => r = t ∧ P s) E := by
  have hbuffer := (widened_served ht (asText_toUInt64 (textCount t)) (hfill _)).pre hpre
  rw [← count_textContents ht] at hbuffer
  refine .bind (fetchBuffer_same (widened_served ht rfl (hfill .query)) hbuffer hnote attempts)
    fun b => .assume fun ⟨hbytes, hblank⟩ => ?_
  have htrim : trimZeros b.head = write t := by
    rw [← trimZeros_toList b hblank, hbytes]
    exact trimZeros_write hend
  rw [htrim, read_write]
  exact .pure fun s hs => ⟨rfl, hs⟩

/-! ## Texts that change -/

def serveNextText (texts : Nat → String) (refused : Fault → Failure) (room : Room UInt32) :
    Host Watch (Filled UInt32 UInt8) := fun s =>
  let answer := serveText (texts s.calls) room.capacity room.narrow
  ((answer.map Place.filled).mapError refused, { s with calls := s.calls + 1 })

def Fits (texts : Nat → String) (j : Nat) : Prop :=
  (texts (2 * j + 1)).utf8ByteSize ≤ (texts (2 * j)).utf8ByteSize

section

variable {texts : Nat → String} (ht : ∀ n, Servable (texts n)) (refused : Fault → Failure)
include ht

theorem settles_texts {j : Nat} :
    Settles (fun n => textContents (texts n) (ht n)) j ↔ Fits texts j := by
  show (write (texts (2 * j)) ++ [0] = [] ∨
    (write (texts (2 * j + 1)) ++ [0]).length ≤ (write (texts (2 * j)) ++ [0]).length) ↔ _
  rw [length_bytes, length_bytes, Nat.add_le_add_iff_right]
  exact or_iff_right (by simp)

theorem lastCall_texts (j : Nat) :
    lastCall (fun n => textContents (texts n) (ht n)) j = 2 * j + 1 :=
  if_neg (List.append_ne_nil_of_right_ne_nil _ (by simp))

theorem serveNextText_does (room : Room UInt32) (n : Nat) :
    Does (fun s => s.calls = n) (serveNextText texts refused room)
      (fun filled s => filled = textFilling (texts n) room ∧ s.calls = n + 1)
      fun _ _ => False := by
  rintro s rfl
  show Either _ _ (((serveText _ _ _).map _).mapError refused) _
  rw [serveText_filling (ht s.calls) room]
  exact ⟨rfl, rfl⟩

/-- In the array exchange inside, the source holds the bytes of its texts. -/
theorem serveNextText_served :
    Served (fun n => textContents (texts n) (ht n)) (widened (serveNextText texts refused)) := by
  refine ⟨fun n => widened_served (ht n) rfl (serveNextText_does ht refused .query n), fun k n => ?_⟩
  rw [count_textContents]
  exact widened_served (ht n) (asText_toUInt64 (textCount (texts k))) (serveNextText_does ht refused _ n)

/-- A text that is fetched is the one that the source held at the last call made, without the
    zeros at its end; it is the very text if there are none. It is served in the first attempt
    that has room for it; if there is none among the attempts, the exchange fails after all of
    them. A text that stays the same takes one attempt. -/
theorem fetchText_snapshot (attempts : Nat) :
    ∃ r s, (fetchText attempts (serveNextText texts refused)).run {} = (r, s) ∧
      ((∃ j < max attempts 1, Fits texts j ∧ (∀ i < j, ¬ Fits texts i) ∧ s.calls = 2 * j + 2 ∧
          ∃ t, r = .ok t ∧ Trimmed (texts (2 * j + 1)) t) ∨
        (∀ i < max attempts 1, ¬ Fits texts i) ∧ s.calls = 2 * max attempts 1 ∧
          r = .error (.capacityRace (max attempts 1))) ∧
      (∀ t, r = .ok t → (texts (s.calls - 1)).toList.getLast? ≠ some '\x00' →
        t = texts (s.calls - 1)) ∧
      ((∀ n, texts n = texts 0) → s.calls = 2 ∧ ∃ t, r = .ok t ∧ Trimmed (texts 0) t) := by
  have hfrom := fetchFrom_snapshot (serveNextText_served ht refused) 0 (max attempts 1) (by simp)
  simp only [Nat.zero_add, settles_texts, lastCall_texts] at hfrom
  have htext : Does (fun s => s.calls = 0) (fetchText attempts (serveNextText texts refused))
      (fun t s => ∃ j < max attempts 1, Fits texts j ∧ (∀ i < j, ¬ Fits texts i) ∧
        Trimmed (texts (2 * j + 1)) t ∧ s.calls = 2 * j + 2)
      fun why s => why = .capacityRace (max attempts 1) ∧ (∀ i < max attempts 1, ¬ Fits texts i) ∧
        s.calls = 2 * max attempts 1 := by
    refine .bind hfrom fun b s h => ?_
    obtain ⟨j, hj, hfits, hfirst, ⟨hbytes, hblank⟩, hcalls⟩ := h
    obtain ⟨t, htrim⟩ := exists_trimmed (texts (2 * j + 1))
    have hread : Text.Utf8.read (trimZeros b.head) = .ok t := by
      rw [← trimZeros_toList b hblank, hbytes]
      show Text.Utf8.read (trimZeros (write (texts (2 * j + 1)) ++ [0])) = _
      rw [trimZeros_trimmed htrim, read_write]
    rw [hread]
    exact ⟨j, hj, hfits, hfirst, htrim, hcalls⟩
  have h := htext {} rfl
  revert h
  generalize (fetchText attempts (serveNextText texts refused)).run {} = after
  obtain ⟨r, s⟩ := after
  refine fun h => ⟨r, s, rfl, ?_⟩
  have hsame (heq : ∀ n, texts n = texts 0) : Fits texts 0 :=
    Nat.le_of_eq (congrArg String.utf8ByteSize (heq 1))
  cases r with
  | ok t =>
    obtain ⟨j, hj, hfits, hfirst, htrim, hcalls⟩ := h
    refine ⟨.inl ⟨j, hj, hfits, hfirst, hcalls, t, rfl, htrim⟩, fun u hu hend => ?_, fun heq => ?_⟩
    · obtain rfl := Except.ok.inj hu
      change s.calls = 2 * j + 2 at hcalls
      rw [hcalls] at hend ⊢
      exact htrim.eq_self hend
    obtain rfl : j = 0 := Nat.eq_zero_of_not_pos fun hpos => hfirst 0 hpos (hsame heq)
    exact ⟨hcalls, t, rfl, heq 1 ▸ htrim⟩
  | error why =>
    obtain ⟨rfl, hnone, hcalls⟩ := h
    refine ⟨.inr ⟨hnone, hcalls, rfl⟩, fun _ hu => by (cases hu), fun heq => ?_⟩
    exact (hnone 0 (Nat.lt_of_lt_of_le Nat.one_pos (Nat.le_max_right _ _)) (hsame heq)).elim

end

def growing : Nat → String
  | 0 => "Aug"
  | _ => "Zoë\x00s\x00\x00"

theorem fetchText_growing : (∀ n, Servable (growing n)) ∧
    ∃ r s, (fetchText 4 (serveNextText growing fun _ => .capacityOverflow)).run {} = (r, s) ∧
      ((∃ j < max 4 1, Fits growing j ∧ (∀ i < j, ¬ Fits growing i) ∧ s.calls = 2 * j + 2 ∧
          ∃ t, r = .ok t ∧ Trimmed (growing (2 * j + 1)) t) ∨
        (∀ i < max 4 1, ¬ Fits growing i) ∧ s.calls = 2 * max 4 1 ∧
          r = .error (.capacityRace (max 4 1))) ∧
      (∀ t, r = .ok t → (growing (s.calls - 1)).toList.getLast? ≠ some '\x00' →
        t = growing (s.calls - 1)) ∧
      ((∀ n, growing n = growing 0) → s.calls = 2 ∧ ∃ t, r = .ok t ∧ Trimmed (growing 0) t) := by
  have ht : ∀ n, Servable (growing n)
    | 0 => (by decide +kernel : "Aug".utf8ByteSize < 4294967295)
    | _ + 1 => (by decide +kernel : "Zoë\x00s\x00\x00".utf8ByteSize < 4294967295)
  exact ⟨ht, fetchText_snapshot ht _ 4⟩

/-! ## Failures -/

/-- A size query that fails ends the exchange. -/
theorem fetchBuffer_fails {α : Type} [Element α] {fill : Room UInt64 → Host σ (Filled UInt64 α)}
    (attempts : Nat) {why : Failure} {s s' : σ} (h : fill .query s = (.error why, s')) :
    fetchBuffer attempts fill s = (.error why, s') := by
  obtain ⟨left, hleft⟩ : ∃ left, max attempts 1 = left + 1 := ⟨max attempts 1 - 1, by omega⟩
  rw [fetchBuffer, hleft]
  exact run_bind_error h

theorem fetchArray_fails {α : Type} [Element α] {fill : Room UInt64 → Host σ (Filled UInt64 α)}
    (attempts : Nat) {why : Failure} {s s' : σ} (h : fill .query s = (.error why, s')) :
    fetchArray attempts fill s = (.error why, s') :=
  run_bind_error (fetchBuffer_fails attempts h)

theorem fetchText_fails {fill : Room UInt32 → Host σ (Filled UInt32 UInt8)} (attempts : Nat)
    {why : Failure} {s s' : σ} (h : fill .query s = (.error why, s')) :
    fetchText attempts fill s = (.error why, s') := by
  have hquery : widened fill .query s = (.error why, s') := by
    have hroom : (liftM (Room.asText .query) : Host σ (Room UInt32)) s = (.ok .query, s) := rfl
    exact (run_bind_ok hroom).trans (run_bind_error h)
  exact run_bind_error (fetchBuffer_fails attempts hquery)

end Exchange

end Boundary
