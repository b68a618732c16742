import Mathlib.Data.List.Basic
import Mathlib.Data.Nat.Digits.Defs

/-!
# The digits of a number

The texts that are read here value digits from left to right, each by a table of its own.  If the
table has the usual values, the digits of a number are valued at that number; and only zero itself
is written with a zero in front.

The other way round, the digits of a positive number can be followed by any digits whatever, and the
text is that of a larger number (`exists_toDigits_append`).
-/

namespace TypeSolver

/-- Digits are valued from left to right. -/
lemma foldlM_toDigits {base : Nat} {value? : Char → Option Nat} (hbase : 1 < base)
    (hvalue : ∀ d < base, value? (Nat.digitChar d) = some d) (n : Nat) :
    (Nat.toDigits base n).foldlM (fun n c => (value? c).map (base * n + ·)) 0 = some n := by
  induction n using Nat.strong_induction_on with
  | _ n ih =>
    rw [Nat.toDigits_eq_if hbase]
    split
    · rename_i hlt
      simp [hvalue n hlt]
    · rename_i hle
      have hlast := hvalue (n % base) (Nat.mod_lt _ (Nat.zero_lt_of_lt hbase))
      have hsmaller : n / base < n :=
        Nat.div_lt_self (Nat.lt_of_lt_of_le (Nat.zero_lt_of_lt hbase) (Nat.le_of_not_lt hle)) hbase
      rw [List.foldlM_append, ih (n / base) hsmaller]
      simp [hlast, Nat.div_add_mod]

/-- A positive number is written with a digit other than zero in front. -/
lemma exists_cons_toDigits {n : Nat} (hn : 0 < n) :
    ∃ c cs, Nat.toDigits 10 n = c :: cs ∧ c ≠ '0' := by
  induction n using Nat.strong_induction_on with
  | _ n ih =>
    rw [Nat.toDigits_eq_if (by decide)]
    split
    · exact ⟨_, [], rfl, fun hzero => hn.ne' (Nat.digitChar_eq_zero.1 hzero)⟩
    · rename_i hle
      obtain ⟨c, cs, hcs, hc⟩ := ih (n / 10) (by omega) (by omega)
      exact ⟨c, cs ++ [Nat.digitChar (n % 10)], by rw [hcs, List.cons_append], hc⟩

/-! ## Digits as characters -/

lemma toNat_of_isDigit {c : Char} (h : c.isDigit = true) : 48 ≤ c.toNat ∧ c.toNat ≤ 57 := by
  simpa [Char.isDigit, UInt32.le_iff_toNat_le] using h

lemma digitChar_of_isDigit {c : Char} (h : c.isDigit = true) :
    Nat.digitChar (c.toNat - 48) = c := by
  have hrange := toNat_of_isDigit h
  apply Char.toNat_inj.1
  rw [Nat.toNat_digitChar_of_lt_ten (by omega)]
  omega

/-- The digits of a positive number with more digits after them are those of a number. -/
lemma exists_toDigits_append {n : Nat} (hn : 0 < n) {ds : List Char}
    (hds : ∀ c ∈ ds, c.isDigit = true) :
    ∃ m, Nat.toDigits 10 m = Nat.toDigits 10 n ++ ds ∧ m < (n + 1) * 10 ^ ds.length := by
  induction ds generalizing n with
  | nil => exact ⟨n, by simp, by simp⟩
  | cons c ds ih =>
    rw [List.forall_mem_cons] at hds
    have hrange := toNat_of_isDigit hds.1
    obtain ⟨m, hm, hlt⟩ := ih (n := 10 * n + (c.toNat - 48)) (by omega) hds.2
    have hdigit : Nat.toDigits 10 (10 * n + (c.toNat - 48)) = Nat.toDigits 10 n ++ [c] := by
      rw [← Nat.toDigits_append_toDigits (by decide) hn (by omega),
        Nat.toDigits_of_lt_base (n := c.toNat - 48) (by omega), digitChar_of_isDigit hds.1]
    refine ⟨m, by rw [hm, hdigit, List.append_assoc, List.singleton_append], hlt.trans_le ?_⟩
    calc (10 * n + (c.toNat - 48) + 1) * 10 ^ ds.length
        ≤ ((n + 1) * 10) * 10 ^ ds.length := Nat.mul_le_mul_right _ (by omega)
      _ = (n + 1) * 10 ^ (c :: ds).length := by rw [List.length_cons, Nat.pow_succ']; ring

end TypeSolver
