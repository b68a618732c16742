import Mathlib.Data.Nat.Log
import Mathlib.Tactic.Positivity
import TypeSolver.Number.Double

/-!
# How large rounded numbers are

Rounding keeps the order of magnitude: the code nearest to a fraction lies between those of the
powers of two around the fraction, with one power to spare above for a carry (`nearestCode_le`,
`le_nearestCode`).  In the other direction the magnitude of a code is bounded by its leading digits
(`units_lt`, `le_units`).  What is read from a text is rounded at each step, and by these bounds it
stays below infinity.
-/

namespace TypeSolver.Double

/-! ## Rounding -/

lemma unitsPerOne_eq : unitsPerOne = 2 ^ 1074 := by decide +kernel

lemma roundHalfEven_le (num den : Nat) : roundHalfEven num den ≤ num / den + 1 := by
  unfold roundHalfEven
  dsimp only
  split <;> omega

lemma le_roundHalfEven (num den : Nat) : num / den ≤ roundHalfEven num den := by
  unfold roundHalfEven
  dsimp only
  split <;> omega

/-- A quotient scaled down by all but its leading 53 binary digits has no more than 53. -/
lemma div_two_pow_log2_lt (q : Nat) : q / 2 ^ (q.log2 - 52) < 2 ^ 53 := by
  have hq : q < 2 ^ (q.log2 + 1) := Nat.lt_log2_self
  rw [Nat.div_lt_iff_lt_mul (by positivity), ← Nat.pow_add]
  exact hq.trans_le (Nat.pow_le_pow_right (by decide) (by omega))

/-- Rounding a fraction of at most `2 ^ j` gives a code that is not much larger than that of
`2 ^ j`. -/
lemma nearestCode_le {num den j : Nat} (h : num ≤ den * 2 ^ j) :
    nearestCode num den ≤ (1024 + j) * 2 ^ 52 := by
  have hquotient : num * unitsPerOne / den ≤ 2 ^ (1074 + j) := by
    refine Nat.div_le_of_le_mul ?_
    calc num * unitsPerOne ≤ den * 2 ^ j * unitsPerOne := Nat.mul_le_mul_right _ h
      _ = den * 2 ^ (1074 + j) := by
        rw [unitsPerOne_eq, Nat.mul_assoc, ← Nat.pow_add, Nat.add_comm j]
  have hscale : (num * unitsPerOne / den).log2 - 52 ≤ 1022 + j := by
    rcases Nat.eq_zero_or_pos (num * unitsPerOne / den) with hzero | hpos
    · rw [hzero]
      exact Nat.zero_le _
    · have hlog := (Nat.log2_lt hpos.ne').2
        (hquotient.trans_lt (Nat.pow_lt_pow_right (by decide) (Nat.lt_succ_self _)))
      omega
  have hround : roundHalfEven (num * unitsPerOne)
      (den * 2 ^ ((num * unitsPerOne / den).log2 - 52)) ≤ 2 ^ 53 := by
    refine (roundHalfEven_le _ _).trans ?_
    rw [← Nat.div_div_eq_div_mul]
    exact div_two_pow_log2_lt _
  unfold nearestCode
  dsimp only
  rw [Nat.pow_eq, Nat.pow_eq]
  refine (Nat.min_le_left _ _).trans ?_
  calc ((num * unitsPerOne / den).log2 - 52) * 2 ^ 52 + roundHalfEven (num * unitsPerOne)
        (den * 2 ^ ((num * unitsPerOne / den).log2 - 52))
      ≤ (1022 + j) * 2 ^ 52 + 2 ^ 53 := Nat.add_le_add (Nat.mul_le_mul_right _ hscale) hround
    _ = (1024 + j) * 2 ^ 52 := by omega

/-- Rounding a fraction of at least `2 ^ j` gives a code that is not less than that of `2 ^ j`. -/
lemma le_nearestCode {num den j : Nat} (hden : 0 < den) (hj : j ≤ 1023) (h : den * 2 ^ j ≤ num) :
    (1023 + j) * 2 ^ 52 ≤ nearestCode num den := by
  have hquotient : 2 ^ (1074 + j) ≤ num * unitsPerOne / den := by
    rw [Nat.le_div_iff_mul_le hden]
    calc 2 ^ (1074 + j) * den = den * 2 ^ j * unitsPerOne := by
          rw [unitsPerOne_eq, Nat.mul_assoc, ← Nat.pow_add, Nat.add_comm j, Nat.mul_comm]
      _ ≤ num * unitsPerOne := Nat.mul_le_mul_right _ h
  have hpos : num * unitsPerOne / den ≠ 0 := (Nat.lt_of_lt_of_le (by positivity) hquotient).ne'
  have hlog : 1074 + j ≤ (num * unitsPerOne / den).log2 := (Nat.le_log2 hpos).2 hquotient
  have hround : 2 ^ 52 ≤ roundHalfEven (num * unitsPerOne)
      (den * 2 ^ ((num * unitsPerOne / den).log2 - 52)) := by
    refine Nat.le_trans ?_ (le_roundHalfEven _ _)
    rw [← Nat.div_div_eq_div_mul, Nat.le_div_iff_mul_le (by positivity), ← Nat.pow_add]
    refine Nat.le_trans (Nat.pow_le_pow_right (by decide) ?_) (Nat.log2_self_le hpos)
    omega
  unfold nearestCode infinityCode
  dsimp only
  rw [Nat.pow_eq, Nat.pow_eq]
  refine Nat.le_min.2 ⟨?_, Nat.mul_le_mul_right _ (by omega)⟩
  calc (1023 + j) * 2 ^ 52 = (1022 + j) * 2 ^ 52 + 2 ^ 52 := by omega
    _ ≤ ((num * unitsPerOne / den).log2 - 52) * 2 ^ 52 + roundHalfEven (num * unitsPerOne)
        (den * 2 ^ ((num * unitsPerOne / den).log2 - 52)) :=
      Nat.add_le_add (Nat.mul_le_mul_right _ (by omega)) hround

/-- The magnitude of a code, by its leading digits. -/
lemma units_lt {code k : Nat} (h : code ≤ (k + 1) * 2 ^ 52) : units code < 2 ^ (53 + k) := by
  have hscale : scale code ≤ k := by
    unfold scale
    rw [Nat.pow_eq]
    omega
  have hsignificand : significand code < 2 ^ 53 := by
    unfold significand scale
    rw [Nat.pow_eq]
    omega
  unfold units
  rw [Nat.pow_eq, Nat.pow_add]
  calc significand code * 2 ^ scale code
      < 2 ^ 53 * 2 ^ scale code := Nat.mul_lt_mul_of_pos_right hsignificand (by positivity)
    _ ≤ 2 ^ 53 * 2 ^ k := Nat.mul_le_mul_left _ (Nat.pow_le_pow_right (by decide) hscale)

lemma le_units {code k : Nat} (h : (k + 1) * 2 ^ 52 ≤ code) : 2 ^ (52 + k) ≤ units code := by
  have hscale : k ≤ scale code := by
    unfold scale
    rw [Nat.pow_eq]
    omega
  have hsignificand : 2 ^ 52 ≤ significand code := by
    unfold significand scale
    rw [Nat.pow_eq]
    omega
  unfold units
  rw [Nat.pow_eq, Nat.pow_add]
  exact Nat.mul_le_mul hsignificand (Nat.pow_le_pow_right (by decide) hscale)

/-! ## Finite numbers -/

lemma isFinite_ofCode {code : Nat} (negative : Bool) (h : code < infinityCode) :
    (ofCode negative code).isFinite = true := by
  have hbound : code < 2 ^ 63 := h.trans (by decide)
  have hcode : (ofCode negative code).code = code := by
    unfold ofCode Double.code
    rw [Nat.pow_eq, UInt64.toNat_ofNat']
    cases negative <;> simp only [if_true, if_false, Bool.false_eq_true] <;> omega
  simpa [isFinite, hcode] using h

lemma isFinite_ofInt {n : Int} (h : n.natAbs < 2 ^ 64) : (ofInt n).isFinite = true := by
  refine isFinite_ofCode _ ?_
  have hcode : nearestCode n.natAbs 1 ≤ (1024 + 64) * 2 ^ 52 := nearestCode_le (by omega)
  exact hcode.trans_lt (by decide)

end TypeSolver.Double
