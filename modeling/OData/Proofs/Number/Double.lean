import Mathlib
import OData.Json.Basic

namespace OData

theorem roundHalfEven_one (n : Nat) : roundHalfEven n 1 = n := by
  simp [roundHalfEven, Nat.mod_one]

theorem floorLog2_one (n : Nat) (positive : 0 < n) : floorLog2 n 1 = n.log2 := by
  have below : 2 ^ n.log2 ≤ n := Nat.log2_self_le (by omega)
  have one : (1 : Nat).log2 = 0 := by decide
  simp [floorLog2, one, below]

namespace FiniteDouble

/-- Moved up until its highest bit is the 53rd, a whole number below `2 ^ 53` is a mantissa. -/
theorem scaled_bounds {n : Nat} (positive : 0 < n) (bound : n < 2 ^ 53) :
    n.log2 ≤ 52 ∧ 2 ^ 52 ≤ n * 2 ^ (52 - n.log2) ∧ n * 2 ^ (52 - n.log2) < 2 ^ 53 := by
  have small : n.log2 < 53 := (Nat.log2_lt (by omega)).mpr bound
  have least : 2 ^ n.log2 ≤ n := Nat.log2_self_le (by omega)
  have most : n < 2 ^ (n.log2 + 1) := Nat.lt_log2_self
  have total : n.log2 + (52 - n.log2) = 52 := by omega
  have topTotal : n.log2 + 1 + (52 - n.log2) = 53 := by omega
  refine ⟨by omega, ?least, ?most⟩
  case least =>
    have scaled := Nat.mul_le_mul_right (2 ^ (52 - n.log2)) least
    rwa [← Nat.pow_add, total] at scaled
  case most =>
    have scaled := Nat.mul_lt_mul_of_pos_right most (Nat.two_pow_pos (52 - n.log2))
    rwa [← Nat.pow_add, topTotal] at scaled

/-- The double nearest to a whole number below `2 ^ 53` is exactly that number. -/
theorem ofRatio?_one (negative : Bool) {n : Nat} (positive : 0 < n) (bound : n < 2 ^ 53) :
    ∃ x, ofRatio? negative n 1 = some x ∧ x.negative = negative ∧
      x.mantissa = n * 2 ^ (52 - n.log2) ∧ x.exponent = (n.log2 : Int) - 52 := by
  obtain ⟨small, least, most⟩ := scaled_bounds positive bound
  have exponent : max (floorLog2 n 1 - 52) (-1074) = (n.log2 : Int) - 52 := by
    rw [floorLog2_one n positive]
    omega
  have mantissa : (if 0 ≤ (n.log2 : Int) - 52
      then roundHalfEven n (1 * 2 ^ ((n.log2 : Int) - 52).toNat)
      else roundHalfEven (n * 2 ^ (-((n.log2 : Int) - 52)).toNat) 1) = n * 2 ^ (52 - n.log2) := by
    by_cases full : n.log2 = 52
    · simp [full, roundHalfEven_one]
    · have shift : (-((n.log2 : Int) - 52)).toNat = 52 - n.log2 := by omega
      rw [if_neg (by omega), roundHalfEven_one, shift]
  have parts : n * 2 ^ (52 - n.log2) < 2 ^ 53 ∧ -1074 ≤ (n.log2 : Int) - 52 ∧
      (n.log2 : Int) - 52 ≤ 971 ∧
      (2 ^ 52 ≤ n * 2 ^ (52 - n.log2) ∨ (n.log2 : Int) - 52 = -1074) :=
    ⟨most, by omega, by omega, Or.inl least⟩
  refine ⟨⟨negative, _, _, parts⟩, ?_, rfl, rfl, rfl⟩
  unfold ofRatio?
  rw [if_neg (by omega)]
  simp only [exponent, mantissa]
  unfold ofParts?
  rw [if_neg (by omega), dif_pos parts]

theorem log2_of_scaled {n k : Nat} (few : k ≤ 52) (least : 2 ^ 52 ≤ n * 2 ^ k)
    (most : n * 2 ^ k < 2 ^ 53) : n.log2 = 52 - k := by
  have total : 52 - k + k = 52 := by omega
  have topTotal : 52 - k + 1 + k = 53 := by omega
  have below : 2 ^ (52 - k) ≤ n := by
    rw [← total, Nat.pow_add] at least
    exact Nat.le_of_mul_le_mul_right least (Nat.two_pow_pos k)
  have above : n < 2 ^ (52 - k + 1) := by
    rw [← topTotal, Nat.pow_add] at most
    exact Nat.lt_of_mul_lt_mul_right most
  have positive := Nat.two_pow_pos (52 - k)
  exact (Nat.log2_eq_iff (by omega)).mpr ⟨below, above⟩

/-- A whole double below `2 ^ 53` has the mantissa and the exponent of its integer. -/
theorem parts_of_whole {x : FiniteDouble} {n : Nat} (positive : 0 < n) (bound : n < 2 ^ 53)
    (whole : x.ratio.1 = n * x.ratio.2) :
    x.mantissa = n * 2 ^ (52 - n.log2) ∧ x.exponent = (n.log2 : Int) - 52 := by
  obtain ⟨most, lowest, highest, least⟩ := x.canonical
  obtain ⟨k, few, mantissa, exponent⟩ :
      ∃ k : Nat, k ≤ 52 ∧ x.mantissa = n * 2 ^ k ∧ x.exponent = -(k : Int) := by
    by_cases upward : 0 ≤ x.exponent
    · simp only [ratio, if_pos upward, Nat.mul_one] at whole
      have full : 2 ^ 52 ≤ x.mantissa := by omega
      have zero : x.exponent.toNat = 0 := by
        by_contra more
        have double : 2 ^ 1 ≤ 2 ^ x.exponent.toNat := Nat.pow_le_pow_right (by omega) (by omega)
        have large := Nat.mul_le_mul full double
        omega
      rw [zero, Nat.pow_zero, Nat.mul_one] at whole
      exact ⟨0, by omega, by rw [Nat.pow_zero, Nat.mul_one, whole], by omega⟩
    · simp only [ratio, if_neg upward] at whole
      have few : (-x.exponent).toNat ≤ 52 := by
        by_contra many
        have large : 2 ^ 53 ≤ 2 ^ (-x.exponent).toNat := Nat.pow_le_pow_right (by omega) (by omega)
        have scaled := Nat.mul_le_mul positive large
        omega
      exact ⟨(-x.exponent).toNat, few, whole, by omega⟩
  have full : 2 ^ 52 ≤ n * 2 ^ k := by omega
  have bits := log2_of_scaled few full (by omega)
  have shift : 52 - n.log2 = k := by omega
  rw [shift]
  exact ⟨mantissa, by omega⟩

theorem ext_parts {x y : FiniteDouble} (sign : x.negative = y.negative)
    (mantissa : x.mantissa = y.mantissa) (exponent : x.exponent = y.exponent) : x = y := by
  obtain ⟨_, _, _, _⟩ := x
  obtain ⟨_, _, _, _⟩ := y
  cases sign
  cases mantissa
  cases exponent
  rfl

theorem toInt?_eq_some {x : FiniteDouble} {n : Int} (nonzero : x.isZero = false)
    (whole : x.toInt? = some n) :
    0 < n.natAbs ∧ x.ratio.1 = n.natAbs * x.ratio.2 ∧ decide (n < 0) = x.negative := by
  have numerator : 0 < x.ratio.1 := by
    have mantissa : 0 < x.mantissa := by
      simp only [isZero, beq_eq_false_iff_ne] at nonzero
      omega
    unfold ratio
    split
    · exact Nat.mul_pos mantissa (Nat.two_pow_pos _)
    · exact mantissa
  unfold toInt? at whole
  simp only at whole
  split at whole
  case isFalse => cases whole
  case isTrue divides =>
    have divided : x.ratio.1 = x.ratio.1 / x.ratio.2 * x.ratio.2 :=
      (Nat.div_mul_cancel (Nat.dvd_of_mod_eq_zero divides)).symm
    have positive : 0 < x.ratio.1 / x.ratio.2 := by
      by_contra zero
      have none : x.ratio.1 / x.ratio.2 = 0 := Nat.eq_zero_of_not_pos zero
      rw [none, Nat.zero_mul] at divided
      omega
    have value := Option.some.inj whole
    generalize x.ratio.1 / x.ratio.2 = quotient at divided positive value
    cases negative : x.negative
    · rw [negative, if_neg Bool.false_ne_true] at value
      have magnitude : n.natAbs = quotient := by omega
      rw [magnitude]
      exact ⟨positive, divided, decide_eq_false (by omega)⟩
    · rw [negative, if_pos rfl] at value
      have magnitude : n.natAbs = quotient := by omega
      rw [magnitude]
      exact ⟨positive, divided, decide_eq_true (by omega)⟩

/-- A whole double below `2 ^ 53` is the double nearest to the integer that it is. -/
theorem ofInt?_toInt? {x : FiniteDouble} {n : Int} (nonzero : x.isZero = false)
    (whole : x.toInt? = some n) (bound : n.natAbs < 2 ^ 53) : ofInt? n = some x := by
  obtain ⟨positive, magnitude, sign⟩ := toInt?_eq_some nonzero whole
  obtain ⟨nearest, found, sameSign, mantissa, exponent⟩ :=
    ofRatio?_one (decide (n < 0)) positive bound
  obtain ⟨ownMantissa, ownExponent⟩ := parts_of_whole positive bound magnitude
  have same : nearest = x :=
    ext_parts (sameSign.trans sign) (mantissa.trans ownMantissa.symm)
      (exponent.trans ownExponent.symm)
  rw [ofInt?, found, same]

end FiniteDouble

end OData
