/-
  Boundary.Proofs.Calculator.Conversion — whole numbers as floating-point numbers.

  A number is packed with its exponent, and is finite unless that is the largest one. An
  integer of 64 bits is shifted to 53 bits, rounded, and shifted once more if rounding made
  it one bit longer; its exponent stays far below the largest one on the way.

  Proved: every integer of 64 bits is finite as a floating-point number (`isFinite_toFloat`).
-/
import Mathlib.Algebra.Group.Nat.Defs

namespace Boundary.Calculator

open Float.Model (Format totalExponent UnpackedFloat)
open Float.Model.UnpackedFloat

/-! ## Packing -/

/-- What is no infinity and no NaN by its exponent is finite. -/
theorem isFinite_unpack (spec : Format) {b : BitVec spec.numBits}
    (h : unpackExponent b ≠ -1#_) : (unpack spec b).isFinite = true := by
  unfold unpack
  rw [if_neg h]
  by_cases hz : unpackExponent b = 0#_
  · rw [if_pos hz]
    by_cases hm : unpackMantissa b = 0#_
    · rw [dif_pos hm]
      rfl
    · rw [dif_neg hm]
      rfl
  · rw [if_neg hz]
    rfl

/-- A number with a small exponent does not overflow when it is packed. -/
theorem unpackExponent_pack {spec : Format} {s : Sign} {m : Nat} {e : Int} {hm : 0 < m}
    (he : (e + spec.exponentBias + spec.mantissaBitsWithoutImplicit).toNat + 1 < 2 ^ spec.exponentBits) :
    unpackExponent (pack spec (.finite s m e hm)) ≠ -1#_ := by
  have hpos := spec.he
  have hlt : ∀ k, k + 1 < 2 ^ spec.exponentBits → BitVec.ofNat spec.exponentBits k ≠ -1#_ := by
    intro k hk h
    have h := congrArg BitVec.toNat h
    rw [BitVec.neg_one_eq_allOnes, BitVec.toNat_allOnes, BitVec.toNat_ofNat, Nat.mod_eq_of_lt] at h <;>
      omega
  unfold pack
  dsimp only
  rw [if_neg (by omega)]
  split
  · rw [unpackExponent_packComponents]
    exact hlt _ he
  · rw [unpackExponent_packComponents]
    exact hlt 0 (by omega)

/-! ## Rounding -/

theorem mantissa_shiftRight (em : ExtendedMantissa) (n : Nat) :
    (em >>> n).mantissa ≤ em.mantissa := by
  show (n.repeat ExtendedMantissa.shiftRightOne em).mantissa ≤ em.mantissa
  induction n with
  | zero => exact Nat.le_refl _
  | succ n ih => exact Nat.le_trans (Nat.div_le_self _ 2) ih

theorem mantissa_rounded (em : ExtendedMantissa) : em.roundedMantissa ≤ em.mantissa + 1 := by
  unfold ExtendedMantissa.roundedMantissa
  generalize em.accuracy = a
  fun_cases Accuracy.roundToNearestEven em.mantissa a <;> omega

theorem mantissa_ofAccuracy (m : Nat) (a : Accuracy) :
    (ExtendedMantissa.ofMantissaAndAccuracy m a).mantissa = m := by
  fun_cases ExtendedMantissa.ofMantissaAndAccuracy m a <;> rfl

/-- Bits that are dropped make the mantissa no larger. -/
theorem mantissa_shifted (spec : Format) (m : Nat) (e : Int) (a : Accuracy) :
    (shiftToTargetExponent spec m e a).1.mantissa ≤ m :=
  Nat.le_trans (mantissa_shiftRight _ _) (Nat.le_of_eq (mantissa_ofAccuracy m a))

/-- The exponent goes up to the one that the mantissa calls for. -/
theorem exponent_shifted (spec : Format) (m : Nat) (e : Int) (a : Accuracy) :
    (shiftToTargetExponent spec m e a).2 = max e (spec.targetExponent (totalExponent m e)) := by
  show e + ((spec.targetExponent (totalExponent m e) - e).toNat : Int) = _
  omega

theorem log2_lt {m k : Nat} (h : m < 2 ^ (k + 1)) : m.log2 < k + 1 := by
  by_cases h0 : m = 0
  · subst h0
    simp
  · exact (Nat.log2_lt h0).mpr h

/-- Rounding shifts twice: once to drop bits, and once more if rounding up made a bit too many. -/
theorem roundWithAccuracy_cases (spec : Format) (s : Sign) (m : Nat) (e : Int) (a : Accuracy) :
    let first := shiftToTargetExponent spec m e a
    roundWithAccuracy spec s m e a = .zero s ∨ ∃ m' hm, roundWithAccuracy spec s m e a =
      .finite s m' (shiftToTargetExponent spec first.1.roundedMantissa first.2 .exact).2 hm := by
  intro first
  by_cases h : (shiftToTargetExponent spec first.1.roundedMantissa first.2 .exact).1.mantissa = 0
  · exact .inl (dif_pos h)
  · exact .inr ⟨_, Nat.pos_of_ne_zero h, dif_neg h⟩

/-- An integer below `2 ^ 64` has a small exponent however it is rounded. -/
theorem round_small (s : Sign) {m : Nat} (h : m < 2 ^ 64) :
    round .binary64 s m 0 = .zero s ∨
      ∃ m' e hm, round .binary64 s m 0 = .finite s m' e hm ∧ e ≤ 200 := by
  have htarget (t : Int) : Format.binary64.targetExponent t = max (t - 53) (-1074) := rfl
  let t := Format.binary64.targetExponent (totalExponent m 0)
  -- before it is rounded the mantissa is shifted up by at most 52 bits
  have ht : -52 ≤ t := by
    show -52 ≤ Format.binary64.targetExponent (totalExponent m 0)
    rw [htarget, totalExponent]
    omega
  have hshift : (0 - t).toNat ≤ 52 := by omega
  let m₀ := m <<< (0 - t).toNat
  let e₀ : Int := 0 - (0 - t).toNat
  have hm₀ : m₀ < 2 ^ 116 := by
    show m <<< (0 - t).toNat < 2 ^ 116
    rw [Nat.shiftLeft_eq]
    have hle := Nat.mul_le_mul_left m (Nat.pow_le_pow_right (by decide : 0 < 2) hshift)
    omega
  -- the first shift, and the second one
  let first := shiftToTargetExponent .binary64 m₀ e₀ .exact
  have hround : first.1.roundedMantissa < 2 ^ 117 := by
    have := mantissa_rounded first.1
    have : first.1.mantissa ≤ m₀ := mantissa_shifted _ _ _ _
    omega
  have hfirst : first.2 ≤ 64 := by
    show (shiftToTargetExponent .binary64 m₀ e₀ .exact).2 ≤ 64
    have := log2_lt (k := 115) hm₀
    rw [exponent_shifted, htarget, totalExponent]
    omega
  have hsecond : (shiftToTargetExponent .binary64 first.1.roundedMantissa first.2 .exact).2 ≤ 200 := by
    have := log2_lt (k := 116) hround
    rw [exponent_shifted, htarget, totalExponent]
    omega
  rcases roundWithAccuracy_cases .binary64 s m₀ e₀ .exact with hr | ⟨m', hm, hr⟩
  · exact .inl hr
  · exact .inr ⟨m', _, hm, hr, hsecond⟩

/-- Whole numbers of 64 bits are finite as floating-point numbers. -/
theorem isFinite_toFloat (p : UInt64) : p.toFloat.isFinite = true := by
  refine isFinite_unpack .binary64 ?_
  show unpackExponent (pack .binary64
    (UnpackedFloat.normalize .binary64 (p.toNat : Int) 0 .positive)) ≠ -1#_
  have hzero (s : Sign) : unpackExponent (pack .binary64 (.zero s)) ≠ -1#_ := by
    show unpackExponent (packComponents .binary64 s 0 0) ≠ _
    rw [unpackExponent_packComponents]
    decide
  have hround (s : Sign) {m : Nat} (h : m < 2 ^ 64) :
      unpackExponent (pack .binary64 (round .binary64 s m 0)) ≠ -1#_ := by
    rcases round_small s h with hr | ⟨m', e, hm, hr, he⟩
    · rw [hr]
      exact hzero s
    · rw [hr]
      refine unpackExponent_pack ?_
      show (e + (1023 : Nat) + (52 : Nat)).toNat + 1 < 2 ^ 11
      omega
  have hp := p.toNat_lt
  unfold UnpackedFloat.normalize
  split
  · exact hround _ (by omega)
  · exact hzero _
  · exact hround _ (by omega)

end Boundary.Calculator
