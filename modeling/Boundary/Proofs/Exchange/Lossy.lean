/-
  Boundary.Proofs.Exchange.Lossy — texts read from their bytes, faults or not.

  A caller that does without an error for bytes that are no text reads them character by
  character, and puts a mark in the place of every fault. Bytes of a text have none: what a
  character is written as is read as that character, whatever comes after it, one lemma for
  each number of bytes it may have (`front_encode`). No byte is zero but that of the zero
  character, so a text without it ends where the zero after it is.

  Proved: bytes of a text read as the text (`readLossy_write`), and so do those before the first
  zero of a buffer that the text was served to (`beforeBlank_served`).
-/
import Boundary.Proofs.Exchange.Text

namespace Boundary

namespace Text.Utf8

/-! ## Single bytes -/

theorem within_iff {b lo hi : UInt8} :
    within b lo hi = true ↔ lo.toNat ≤ b.toNat ∧ b.toNat ≤ hi.toNat := by
  simp [within, UInt8.le_iff_toNat_le]

theorem isTail_iff {b : UInt8} : isTail b = true ↔ 128 ≤ b.toNat ∧ b.toNat ≤ 191 :=
  within_iff

/-- The smallest and the largest second byte. -/
theorem toNat_second (a : UInt8) :
    (second a).1.toNat = (if a.toNat = 224 then 160 else if a.toNat = 240 then 144 else 128) ∧
    (second a).2.toNat = (if a.toNat = 237 then 159 else if a.toNat = 244 then 143 else 191) := by
  unfold second
  simp only [← UInt8.toNat_inj]
  split_ifs <;> simp_all

/-! ## Single characters -/

variable {a b c d : UInt8} {rest : List UInt8}

theorem not_single (h : 128 ≤ a.toNat) : ¬ a < 0x80 := by
  rw [UInt8.lt_iff_toNat_lt]
  exact Nat.not_lt.mpr h

theorem not_within {lo hi : UInt8} (h : hi.toNat < a.toNat) : ¬ within a lo hi = true := by
  rw [within_iff]
  exact fun hw => Nat.not_lt.mpr hw.2 h

theorem front_one (h : a.toNat < 128) : front (a :: rest) = .char (Char.ofNat a.toNat) 1 := by
  have ha : a < 0x80 := UInt8.lt_iff_toNat_lt.mpr h
  simp only [front, if_pos ha]

theorem front_two (ha : 194 ≤ a.toNat ∧ a.toNat ≤ 223) (hb : isTail b = true) :
    front (a :: b :: rest) = .char (Char.ofNat (a.toNat % 32 * 64 + tailBits b)) 2 := by
  have h1 := not_single (a := a) (by omega)
  have h2 : within a 0xC2 0xDF = true := within_iff.mpr ha
  simp only [front, if_neg h1, if_pos h2, if_pos hb]

theorem front_three (ha : 224 ≤ a.toNat ∧ a.toNat ≤ 239)
    (hb : within b (second a).1 (second a).2 = true) (hc : isTail c = true) :
    front (a :: b :: c :: rest) =
      .char (Char.ofNat ((a.toNat % 16 * 64 + tailBits b) * 64 + tailBits c)) 3 := by
  have h1 := not_single (a := a) (by omega)
  have h2 : ¬ within a 0xC2 0xDF = true := not_within ha.1
  have h3 : within a 0xE0 0xEF = true := within_iff.mpr ha
  simp [front, h1, h2, h3, hb, hc]

theorem front_four (ha : 240 ≤ a.toNat ∧ a.toNat ≤ 244)
    (hb : within b (second a).1 (second a).2 = true) (hc : isTail c = true)
    (hd : isTail d = true) :
    front (a :: b :: c :: d :: rest) = .char (Char.ofNat
      (((a.toNat % 8 * 64 + tailBits b) * 64 + tailBits c) * 64 + tailBits d)) 4 := by
  have h1 := not_single (a := a) (by omega)
  have h2 : ¬ within a 0xC2 0xDF = true := not_within (Nat.lt_of_lt_of_le (by decide) ha.1)
  have h3 : ¬ within a 0xE0 0xEF = true := not_within ha.1
  have h4 : within a 0xF0 0xF4 = true := within_iff.mpr ha
  simp [front, h1, h2, h3, h4, hb, hc, hd]

/-- A character is read as it was written. -/
theorem front_encode (ch : Char) (rest : List UInt8) :
    front (String.utf8EncodeChar ch ++ rest) = .char ch (String.utf8EncodeChar ch).length := by
  have hvalid : ch.val.toNat < 55296 ∨ 57343 < ch.val.toNat ∧ ch.val.toNat < 1114112 := ch.valid
  have hback {n : Nat} (h : n = ch.val.toNat) : Char.ofNat n = ch := by
    rw [h]
    exact Char.ofNat_toNat ch
  have hbyte {n : Nat} (h : n < 256) : (UInt8.ofNat n).toNat = n := UInt8.toNat_ofNat_of_lt' h
  have htail (n : Nat) : (UInt8.ofNat (n % 64 + 128)).toNat = n % 64 + 128 := hbyte (by omega)
  have hisTail (n : Nat) : isTail (UInt8.ofNat (n % 64 + 128)) = true := by
    rw [isTail_iff, htail]
    omega
  have hbits (n : Nat) : tailBits (UInt8.ofNat (n % 64 + 128)) = n % 64 := by
    rw [tailBits, htail]
    omega
  unfold String.utf8EncodeChar
  dsimp only
  by_cases h1 : ch.val.toNat ≤ 127
  · rw [if_pos h1]
    have ha := hbyte (n := ch.val.toNat) (by omega)
    refine (front_one (by omega)).trans ?_
    rw [hback ha]
    rfl
  rw [if_neg h1]
  by_cases h2 : ch.val.toNat ≤ 2047
  · rw [if_pos h2]
    have ha := hbyte (n := ch.val.toNat / 64 % 32 + 192) (by omega)
    refine (front_two (by omega) (hisTail _)).trans ?_
    rw [ha, hbits, hback (by omega)]
    rfl
  rw [if_neg h2]
  -- the second byte keeps to its bounds: no character has more bytes than it needs, and none is
  -- a surrogate or out of range
  by_cases h3 : ch.val.toNat ≤ 65535
  · rw [if_pos h3]
    have ha := hbyte (n := ch.val.toNat / 4096 % 16 + 224) (by omega)
    have hb : within (UInt8.ofNat (ch.val.toNat / 64 % 64 + 128))
        (second (UInt8.ofNat (ch.val.toNat / 4096 % 16 + 224))).1
        (second (UInt8.ofNat (ch.val.toNat / 4096 % 16 + 224))).2 = true := by
      rw [within_iff, (toNat_second _).1, (toNat_second _).2, ha, htail]
      split_ifs <;> omega
    refine (front_three (by omega) hb (hisTail _)).trans ?_
    rw [ha, hbits, hbits, hback (by omega)]
    rfl
  · rw [if_neg h3]
    have ha := hbyte (n := ch.val.toNat / 262144 % 8 + 240) (by omega)
    have hb : within (UInt8.ofNat (ch.val.toNat / 4096 % 64 + 128))
        (second (UInt8.ofNat (ch.val.toNat / 262144 % 8 + 240))).1
        (second (UInt8.ofNat (ch.val.toNat / 262144 % 8 + 240))).2 = true := by
      rw [within_iff, (toNat_second _).1, (toNat_second _).2, ha, htail]
      split_ifs <;> omega
    refine (front_four (by omega) hb (hisTail _) (hisTail _)).trans ?_
    rw [ha, hbits, hbits, hbits, hback (by omega)]
    rfl

/-! ## Texts -/

theorem encode_ne_nil (ch : Char) : String.utf8EncodeChar ch ≠ [] := by
  unfold String.utf8EncodeChar
  dsimp only
  split_ifs <;> simp

/-- Induction on the characters: each takes at least one byte of the fuel. -/
theorem lossyFrom_encode (cs : List Char) {fuel : Nat}
    (h : (cs.flatMap String.utf8EncodeChar).length ≤ fuel) :
    lossyFrom fuel (cs.flatMap String.utf8EncodeChar) = cs := by
  induction cs generalizing fuel with
  | nil => cases fuel <;> rfl
  | cons ch rest ih =>
    rw [List.flatMap_cons, List.length_append] at h
    have hpos := List.length_pos_iff.mpr (encode_ne_nil ch)
    obtain ⟨n, rfl⟩ : ∃ n, fuel = n + 1 := ⟨fuel - 1, by omega⟩
    have hfront := front_encode ch (rest.flatMap String.utf8EncodeChar)
    have hdrop : (String.utf8EncodeChar ch ++ rest.flatMap String.utf8EncodeChar).drop
        (String.utf8EncodeChar ch).length = rest.flatMap String.utf8EncodeChar := List.drop_left
    rw [List.flatMap_cons]
    obtain ⟨a, more, hbytes⟩ := List.exists_cons_of_ne_nil
      (List.append_ne_nil_of_left_ne_nil (encode_ne_nil ch) (rest.flatMap String.utf8EncodeChar))
    rw [hbytes] at hfront hdrop ⊢
    simp only [lossyFrom, hfront, hdrop]
    rw [ih (by omega)]

/-- What is written is read as what it was. -/
theorem readLossy_write (t : String) : readLossy (write t) = t := by
  rw [readLossy, write_eq, lossyFrom_encode _ (Nat.le_refl _), String.ofList_toList]

/-- No byte of a character is zero but that of the zero character. -/
theorem zero_notMem_encode {ch : Char} (h : ch ≠ '\x00') : (0 : UInt8) ∉ String.utf8EncodeChar ch := by
  have hpos : 0 < ch.val.toNat := by
    refine Nat.pos_of_ne_zero fun h0 => h (Char.ext (UInt32.toNat_inj.mp ?_))
    rw [h0]
    rfl
  have hne {n : Nat} (hn : 0 < n) (hlt : n < 256) : (0 : UInt8) ≠ UInt8.ofNat n :=
    (ofNat_ne_zero hn hlt).symm
  unfold String.utf8EncodeChar
  dsimp only
  split_ifs <;> simp only [List.mem_cons, List.not_mem_nil, or_false, not_or]
  · exact hne hpos (by omega)
  · exact ⟨hne (by omega) (by omega), hne (by omega) (by omega)⟩
  · exact ⟨hne (by omega) (by omega), hne (by omega) (by omega), hne (by omega) (by omega)⟩
  · exact ⟨hne (by omega) (by omega), hne (by omega) (by omega), hne (by omega) (by omega),
      hne (by omega) (by omega)⟩

theorem zero_notMem_write {t : String} (h : '\x00' ∉ t.toList) : (0 : UInt8) ∉ write t := by
  rw [write_eq, List.mem_flatMap]
  rintro ⟨ch, hch, hmem⟩
  exact zero_notMem_encode (fun e => h (e ▸ hch)) hmem

end Text.Utf8

/-- The bytes before the first zero of a buffer that a text was served to. -/
theorem Exchange.beforeBlank_served {t : String} (h : '\x00' ∉ t.toList) (b : Buffer UInt8)
    (hblank : b.blank = 0) : (b.overwrite (Text.Utf8.write t ++ [0])).beforeBlank = Text.Utf8.write t := by
  have hall : ∀ x ∈ Text.Utf8.write t, (x != 0) = true := by
    intro x hx
    simp only [bne_iff_ne, ne_eq]
    rintro rfl
    exact Text.Utf8.zero_notMem_write h hx
  simp only [Buffer.beforeBlank, Buffer.overwrite, hblank]
  rw [List.append_assoc, List.takeWhile_append_of_pos hall]
  simp

end Boundary
