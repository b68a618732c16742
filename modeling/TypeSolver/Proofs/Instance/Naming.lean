import TypeSolver.Proofs.Instance.Slots
import TypeSolver.Proofs.Number.Digits

/-!
# Telling fresh names apart

A fresh name is three texts with nothing between them: the variable's own name, the marker and a
number.  The first may be anything, and may itself end in a marker and digits, so the parts cannot
be told by where the marker stands.

They can be told from the end if the marker has a character that is no digit.  The digits at the end
of the name are then the last digits of the marker, which are always the same, followed by those of
the number (`trailing_digits_nameFor`).  So the name gives the number, and what is left gives the
variable (`nameFor_eq_iff`); in particular, instances of different generations introduce different
names (`not_isSynthetic_of_next_ne`).

If the marker is all digits there is no such end.  The number of one name can be a digit, the marker
and another number, and the same text is then a fresh name of two variables (`exists_collision`).
-/

namespace TypeSolver

/-! ## The end of a text -/

lemma takeWhile_append_of_exists {α : Type} {p : α → Bool} {xs : List α}
    (h : ∃ x ∈ xs, p x = false) (ys : List α) : (xs ++ ys).takeWhile p = xs.takeWhile p := by
  obtain ⟨x, hx, hpx⟩ := h
  rw [List.takeWhile_append, if_neg]
  intro hlen
  have hall : xs.takeWhile p = xs := (List.takeWhile_prefix p).eq_of_length hlen
  rw [← hall] at hx
  rw [List.all_eq_true.1 List.all_takeWhile x hx] at hpx
  cases hpx

namespace FreshNames

variable {names names' : FreshNames} {m n : Name} {g h : Nat}

lemma toList_nameFor (names : FreshNames) (n : Name) (g : Nat) :
    (names.nameFor n g).toList = n.toList ++ names.marker.toList ++ Nat.toDigits 10 g := by
  rw [nameFor, String.toList_append, String.toList_append, Nat.toString_eq_ofList_toDigits,
    String.toList_ofList]

/-- The digits at the end of a fresh name, from the last one on: those of the number, and then those
at the end of the marker. -/
lemma trailing_digits_nameFor (hmarker : ∃ c ∈ names.marker.toList, c.isDigit = false) (n : Name)
    (g : Nat) : (names.nameFor n g).toList.reverse.takeWhile Char.isDigit =
      (Nat.toDigits 10 g).reverse ++ names.marker.toList.reverse.takeWhile Char.isDigit := by
  have hdigits : ∀ c ∈ (Nat.toDigits 10 g).reverse, c.isDigit = true := fun c hc =>
    Nat.isDigit_of_mem_toDigits (by decide) (by decide) (List.mem_reverse.1 hc)
  have hstop : ∃ c ∈ names.marker.toList.reverse, c.isDigit = false := by
    obtain ⟨c, hc, hnot⟩ := hmarker
    exact ⟨c, List.mem_reverse.2 hc, hnot⟩
  rw [toList_nameFor, List.reverse_append, List.reverse_append,
    List.takeWhile_append_of_pos hdigits, takeWhile_append_of_exists hstop]

/-- With a marker that is not all digits, a fresh name tells its variable and its number. -/
lemma nameFor_eq_iff (hmarker : ∃ c ∈ names.marker.toList, c.isDigit = false) :
    names.nameFor m g = names.nameFor n h ↔ m = n ∧ g = h := by
  refine ⟨fun heq => ?_, fun ⟨hm, hg⟩ => by rw [hm, hg]⟩
  have hend : (Nat.toDigits 10 g).reverse = (Nat.toDigits 10 h).reverse := by
    have htrailing := trailing_digits_nameFor hmarker m g
    rw [heq, trailing_digits_nameFor hmarker n h] at htrailing
    exact (List.append_cancel_right htrailing).symm
  have hdigits : Nat.toDigits 10 g = Nat.toDigits 10 h := List.reverse_injective hend
  have hnumber : g = h := by
    rw [← Nat.ofDigitChars_ten_toDigits (n := g), hdigits, Nat.ofDigitChars_ten_toDigits]
  have hlist := congrArg String.toList heq
  rw [toList_nameFor, toList_nameFor, hdigits, List.append_assoc, List.append_assoc] at hlist
  exact ⟨String.toList_inj.1 (List.append_cancel_right hlist), hnumber⟩

/-- With a marker that is all digits, a variable shares a fresh name with another: the one whose
name goes on with the marker and a one.  For short markers the numbers are within the bound. -/
lemma exists_collision (names : FreshNames)
    (hmarker : ∀ c ∈ names.marker.toList, c.isDigit = true)
    (hshort : names.marker.length ≤ 17) : ∃ g < UInt64.size, ∀ n : Name,
      names.nameFor n g = names.nameFor (n ++ names.marker ++ "1") 0 := by
  have hds : ∀ c ∈ names.marker.toList ++ ['0'], c.isDigit = true := by
    intro c hc
    rcases List.mem_append.1 hc with hc | hc
    · exact hmarker c hc
    · rw [List.mem_singleton.1 hc]
      rfl
  obtain ⟨g, hg, hlt⟩ := exists_toDigits_append Nat.one_pos hds
  refine ⟨g, hlt.trans_le ?_, fun n => ?_⟩
  · have hlen : (names.marker.toList ++ ['0']).length ≤ 18 := by
      rw [List.length_append, String.length_toList, List.length_singleton]
      omega
    calc (1 + 1) * 10 ^ (names.marker.toList ++ ['0']).length
        ≤ (1 + 1) * 10 ^ 18 := Nat.mul_le_mul_left _ (Nat.pow_le_pow_right (by decide) hlen)
      _ ≤ UInt64.size := by decide
  · refine String.toList_inj.1 ?_
    have hone : Nat.toDigits 10 1 = ['1'] := rfl
    rw [toList_nameFor, toList_nameFor, hg, hone, String.toList_append, String.toList_append]
    simp

example : (start "00").nameFor "x" 1000 = (start "00").nameFor "x001" 0 := by decide

end FreshNames

/-! ## Names of instances -/

namespace Ty

variable {nested nested' : Bool} {names names' : FreshNames} {t u : Ty} {n : Name}

lemma exists_of_isSynthetic (h : (t.instantiate nested names).1.isSynthetic n = true) :
    t.kind = .function ∧ ∃ m, n = names.freshName m := by
  by_cases hfunc : t.kind = .function
  · refine ⟨hfunc, ?_⟩
    obtain ⟨ps, r, rfl⟩ := kind_eq_function.1 hfunc
    obtain ⟨-, -, m, -, hm⟩ := isSynthetic_func.1 h
    exact ⟨m, hm.symm⟩
  · rw [instantiate_of_not_func hfunc] at h
    simp [Instance.isSynthetic] at h

/-- An instance that introduces a name takes a generation. -/
lemma next_lt_of_isSynthetic (h : (t.instantiate nested names).1.isSynthetic n = true) :
    names.next < (t.instantiate nested names).2.next := by
  obtain ⟨ps, r, rfl⟩ := kind_eq_function.1 (exists_of_isSynthetic h).1
  rw [instantiate_func]
  exact Nat.lt_succ_self names.next

/-- Instances of different generations share no name. -/
lemma not_isSynthetic_of_next_ne (hmarker : ∃ c ∈ names.marker.toList, c.isDigit = false)
    (hsame : names'.marker = names.marker) (hnext : names.next ≠ names'.next)
    (h : (t.instantiate nested names).1.isSynthetic n = true) :
    (u.instantiate nested' names').1.isSynthetic n = false := by
  rw [Bool.eq_false_iff]
  intro h'
  obtain ⟨-, m, rfl⟩ := exists_of_isSynthetic h
  obtain ⟨-, m', heq⟩ := exists_of_isSynthetic h'
  have hname : names.nameFor m names.next = names.nameFor m' names'.next := by
    rw [FreshNames.freshName, FreshNames.freshName] at heq
    rw [heq, FreshNames.nameFor, FreshNames.nameFor, hsame]
  exact hnext ((FreshNames.nameFor_eq_iff hmarker).1 hname).2

end Ty

end TypeSolver
