import TypeSolver.Proofs.Unify.Clash

/-!
# Types without variables

Between types without variables there is nothing to solve for, and unifying them comes down to a
comparison.  This file says which comparison it is.

## Corresponding parts

`Ty.correspondences` lists the parts of two types that correspond, in the order in which they are
compared: the two types, then what corresponds in their results, then what corresponds in their
parameters from left to right.  Only functions with equally many parameters have corresponding
parts, and an object has none.  `Ty.headsAgree` compares two parts as they stand, without looking
inside functions, and `Ty.firstClash` is the first pair for which that fails.

## The comparison

The unifier returns the empty substitution if there is no clash, and otherwise the first
(`unify_eq_outcome`); a depth of as much as the left type weighs is enough for it.  There is no
clash exactly if the types are equal and no object occurs in them (`firstClash_eq_none_iff`).
-/

namespace TypeSolver

namespace Ty

/-! ## Corresponding parts -/

mutual

/-- The corresponding parts of two types, in the order in which they are compared. -/
def correspondences : Ty → Ty → List (Ty × Ty)
  | func ps r, func qs q =>
    (func ps r, func qs q) ::
      if ps.length = qs.length then correspondences r q ++ correspondencesList ps qs else []
  | a, b => [(a, b)]

/-- The corresponding parts of the types at equal places of two lists. -/
def correspondencesList : List Ty → List Ty → List (Ty × Ty)
  | p :: ps, q :: qs => correspondences p q ++ correspondencesList ps qs
  | _, _ => []

end

/-- Whether two types are the same base type, equal literals of one kind, or functions with equally
many parameters. -/
def headsAgree : Ty → Ty → Bool
  | number, number => true
  | string, string => true
  | boolean, boolean => true
  | numberLit x, numberLit y => x == y
  | stringLit x, stringLit y => x == y
  | booleanLit x, booleanLit y => x == y
  | func ps _, func qs _ => ps.length == qs.length
  | _, _ => false

/-- The first corresponding parts that do not agree. -/
def firstClash (a b : Ty) : Option (Ty × Ty) :=
  (correspondences a b).find? fun pair => !pair.1.headsAgree pair.2

variable {a b : Ty}

lemma correspondencesList_eq_flatMap (ps qs : List Ty) :
    correspondencesList ps qs = (ps.zip qs).flatMap fun pq => correspondences pq.1 pq.2 := by
  induction ps generalizing qs with
  | nil => simp [correspondencesList]
  | cons p ps ih =>
    cases qs with
    | nil => simp [correspondencesList]
    | cons q qs => simp [correspondencesList, ih]

/-- The first clash of two functions is their own, or that of their results, or the first that two
of their parameters have. -/
lemma firstClash_func (ps qs : List Ty) (r q : Ty) :
    (func ps r).firstClash (func qs q) =
      if ps.length = qs.length then
        (r.firstClash q).or ((ps.zip qs).findSome? fun pq => pq.1.firstClash pq.2)
      else some (func ps r, func qs q) := by
  by_cases hlen : ps.length = qs.length
  · simp [firstClash, correspondences, headsAgree, hlen, correspondencesList_eq_flatMap,
      List.find?_append, List.find?_flatMap]
  · simp [firstClash, correspondences, headsAgree, hlen]

/-- Types that are not both functions have no corresponding parts but themselves. -/
lemma firstClash_rigid (h : a.kind = .function → b.kind ≠ .function) :
    a.firstClash b = if a.headsAgree b = true then none else some (a, b) := by
  have hparts : correspondences a b = [(a, b)] := by
    cases a <;> cases b <;> simp_all [correspondences, kind]
  rw [firstClash, hparts]
  cases hagree : a.headsAgree b <;> simp [hagree]

lemma headsAgree_rigid (h : a.kind = .function → b.kind ≠ .function) :
    a.headsAgree b = true ↔ a.isConstant = true ∧ (a == b) = true := by
  have heq : (a == b) = Ty.beq a b := rfl
  cases a <;> cases b <;> simp_all [headsAgree, isConstant, Ty.beq, kind]

/-! ## No clash -/

lemma Ground.varName? (h : a.Ground) : a.varName? = none := by
  cases a with
  | var n => simpa [mentions] using h n
  | _ => rfl

lemma ground_iff_over : a.Ground ↔ a.Over fun _ => False := by
  simp [Ground, Over]

/-- A function has no variables if its result and its parameters have none. -/
lemma ground_func_iff {ps : List Ty} {r : Ty} :
    (func ps r).Ground ↔ r.Ground ∧ ∀ p ∈ ps, p.Ground := by
  simp only [ground_iff_over, over_func_iff, List.forall_mem_cons]

lemma objectFree_func {ps : List Ty} {r : Ty} : (func ps r).objectFree = true ↔
    r.objectFree = true ∧ ∀ p ∈ ps, p.objectFree = true := by
  rw [objectFree, every_func, and_comm (a := r.every _ = true)]
  exact and_iff_right rfl

/-- Types without variables have no clash if they are equal and no object occurs in them. -/
lemma firstClash_eq_none_iff (ha : a.Ground) :
    a.firstClash b = none ↔ (a == b) = true ∧ a.objectFree = true := by
  induction a using Ty.induction generalizing b with
  | constant a hconst =>
    have hfunc : a.kind = .function → b.kind ≠ .function := by
      intro hkind
      obtain ⟨ps, r, rfl⟩ := kind_eq_function.1 hkind
      cases hconst
    have hfree : a.objectFree = true := by
      cases a <;> simp_all [isConstant, objectFree, every, kind]
    rw [firstClash_rigid hfunc, ite_eq_left_iff, headsAgree_rigid hfunc]
    simp [hconst, hfree]
  | var n => cases ha.varName?
  | object fs _ =>
    have hobject : (object fs).objectFree = false := by simp [objectFree, every, kind]
    rw [firstClash_rigid (by simp [kind]), ite_eq_left_iff, headsAgree_rigid (by simp [kind])]
    simp [isConstant, hobject]
  | func ps r ihps ihr =>
    obtain ⟨hr, hps⟩ := ground_func_iff.1 ha
    by_cases hfunc : b.kind = .function
    · obtain ⟨qs, q, rfl⟩ := kind_eq_function.1 hfunc
      have hbeq : (func ps r == func qs q) = true ↔
          (r == q) = true ∧ List.Forall₂ (fun p q => (p == q) = true) ps qs := by
        show beq (func ps r) (func qs q) = true ↔ _
        rw [beq, Bool.and_eq_true, beqList_iff, and_comm]
        rfl
      rw [hbeq, objectFree_func, firstClash_func, List.forall₂_iff_zip]
      by_cases hlen : ps.length = qs.length
      · have hfirst : (ps.zip qs).map Prod.fst = ps := List.map_fst_zip hlen.le
        have hparams : (∀ pq ∈ ps.zip qs, pq.1.firstClash pq.2 = none) ↔
            (∀ pq ∈ ps.zip qs, (pq.1 == pq.2) = true) ∧ ∀ p ∈ ps, p.objectFree = true := by
          nth_rewrite 3 [← hfirst]
          rw [List.forall_mem_map, ← forall₂_and]
          refine forall₂_congr fun pq hpq => ?_
          have hp : pq.1 ∈ ps := (List.of_mem_zip hpq).1
          exact ihps pq.1 hp (hps pq.1 hp)
        rw [if_pos hlen, Option.or_eq_none_iff, ihr hr, List.findSome?_eq_none_iff, hparams,
          and_and_and_comm, and_iff_right hlen]
        simp only [Prod.forall]
      · simp [hlen]
    · rw [firstClash_rigid fun _ => hfunc, ite_eq_left_iff, headsAgree_rigid fun _ => hfunc]
      have hne : (func ps r == b) = false := by
        show beq (func ps r) b = false
        cases b <;> simp_all [beq, kind]
      simp [isConstant, hne]

end Ty

/-! ## The comparison -/

/-- The answer of the unifier where the first clash, if there is one, is known. -/
def clashOutcome : Option (Ty × Ty) → Except Failure Subst
  | none => .ok .empty
  | some (x, y) => .error (.mismatch x y)

/-- A clash of the parameters is reported only if the results have none. -/
lemma clashOutcome_or (x y : Option (Ty × Ty)) :
    clashOutcome (x.or y) = clashOutcome x >>= fun _ => clashOutcome y := by
  cases x <;> rfl

variable {depth : Nat} {a b : Ty}

/-- Pairs that need no binding are compared in turn, until one clashes. -/
lemma unifyAll_eq_outcome (hdepth : 0 < depth) {pairs : List (Ty × Ty)}
    (h : ∀ pq ∈ pairs, unify depth pq.1 pq.2 = clashOutcome (pq.1.firstClash pq.2)) :
    (Task.unifyAll .empty pairs).run depth =
      clashOutcome (pairs.findSome? fun pq => pq.1.firstClash pq.2) := by
  obtain ⟨depth, rfl⟩ := Nat.exists_eq_succ_of_ne_zero hdepth.ne'
  induction pairs with
  | nil => rfl
  | cons pq rest ih =>
    obtain ⟨hfirst, hrest⟩ := List.forall_mem_cons.1 h
    rw [Task.run, List.foldlM_cons, hfirst]
    rw [List.findSome?_cons]
    cases hclash : pq.1.firstClash pq.2 with
    | none => exact ih hrest
    | some clash => rfl

/-- Types that are not both functions are compared as they stand. -/
lemma unify_eq_outcome_rigid (ha : a.Ground) (hb : b.Ground)
    (hfunc : a.kind = .function → b.kind ≠ .function) :
    unify (depth + 1) a b = clashOutcome (a.firstClash b) := by
  rw [unify_rigid ha.varName? hb.varName? hfunc, Ty.firstClash_rigid hfunc]
  simp only [Ty.headsAgree_rigid hfunc]
  split <;> rfl

/-- The unifier answers with the first clash of two types without variables, and with the empty
substitution if there is none. -/
lemma unify_eq_outcome (ha : a.Ground) (hb : b.Ground) (hdepth : a.weight ≤ depth) :
    unify depth a b = clashOutcome (a.firstClash b) := by
  induction depth generalizing a b with
  | zero => exact absurd hdepth a.weight_pos.not_ge
  | succ depth ih =>
    by_cases hfunc : a.kind = .function ∧ b.kind = .function
    · obtain ⟨ps, r, rfl⟩ := Ty.kind_eq_function.1 hfunc.1
      obtain ⟨qs, q, rfl⟩ := Ty.kind_eq_function.1 hfunc.2
      obtain ⟨hr, hps⟩ := Ty.ground_func_iff.1 ha
      obtain ⟨hq, hqs⟩ := Ty.ground_func_iff.1 hb
      rw [unify, Ty.firstClash_func]
      by_cases hlen : ps.length = qs.length
      · -- the parts weigh less than the functions, so there is depth enough for them
        have hresult : r.weight ≤ depth := by
          have hlt := Ty.weight_lt_func_result ps r
          omega
        have hparam : ∀ pq ∈ ps.zip qs,
            unify depth pq.1 pq.2 = clashOutcome (pq.1.firstClash pq.2) := by
          intro pq hpq
          obtain ⟨hp, hq⟩ := List.of_mem_zip hpq
          have hlt := Ty.weight_lt_func_of_mem hp r
          exact ih (hps _ hp) (hqs _ hq) (by omega)
        rw [if_pos hlen, if_pos hlen, clashOutcome_or, ih hr hq hresult]
        cases hclash : r.firstClash q with
        | some clash => rfl
        | none => exact unifyAll_eq_outcome (r.weight_pos.trans_le hresult) hparam
      · rw [if_neg hlen, if_neg hlen]
        rfl
    · exact unify_eq_outcome_rigid ha hb (not_and.1 hfunc)

/-- Unifying two types without variables ends, at every depth from the weight of the left one on.
Nothing is bound exactly if the types are equal and no object occurs in them; otherwise the first
clash of corresponding parts is reported, the part of the left type on the left. -/
theorem unify_of_ground {a b : Ty} (ha : a.Ground) (hb : b.Ground) {depth : Nat}
    (hdepth : a.weight ≤ depth) :
    (unify depth a b = .ok .empty ↔ (a == b) = true ∧ a.objectFree = true) ∧
    (¬ ((a == b) = true ∧ a.objectFree = true) →
      ∃ x y, a.firstClash b = some (x, y) ∧ unify depth a b = .error (.mismatch x y)) := by
  rw [← Ty.firstClash_eq_none_iff ha, unify_eq_outcome ha hb hdepth]
  cases hclash : a.firstClash b with
  | none => exact ⟨iff_of_true rfl rfl, fun hne => absurd rfl hne⟩
  | some clash =>
    refine ⟨iff_of_false ?_ ?_, fun _ => ⟨clash.1, clash.2, rfl, rfl⟩⟩
    · simp [clashOutcome]
    · simp

/-- The results clash inside, and so do the first parameters; the clash of the results is reported.
The two zeros are equal, and an object differs from itself. -/
theorem unify_of_ground_of_two_clashes :
    (unify 9 (.func [.number, .string] (.func [.boolean] (.booleanLit true)))
        (.func [.string, .string] (.func [.boolean] (.booleanLit false))) =
      .error (.mismatch (.booleanLit true) (.booleanLit false)) ∧
    ∃ x y, (Ty.func [.number, .string] (.func [.boolean] (.booleanLit true))).firstClash
        (.func [.string, .string] (.func [.boolean] (.booleanLit false))) = some (x, y) ∧
      unify 9 (.func [.number, .string] (.func [.boolean] (.booleanLit true)))
        (.func [.string, .string] (.func [.boolean] (.booleanLit false))) =
          .error (.mismatch x y)) ∧
    unify 9 (.func [.numberLit (.ofCode true 0)] .string)
        (.func [.numberLit (.ofCode false 0)] .string) = .ok .empty ∧
    ∃ x y, (Ty.func [.object []] .string).firstClash (.func [.object []] .string) = some (x, y) ∧
      unify 9 (.func [.object []] .string) (.func [.object []] .string) =
        .error (.mismatch x y) := by
  refine ⟨⟨rfl, ?_⟩, ?_, ?_⟩
  · exact (unify_of_ground (fun _ => rfl) (fun _ => rfl) (by decide)).2 (by decide)
  · exact (unify_of_ground (fun _ => rfl) (fun _ => rfl) (by decide)).1.2 (by decide)
  · exact (unify_of_ground (fun _ => rfl) (fun _ => rfl) (by decide)).2 (by decide)

end TypeSolver
