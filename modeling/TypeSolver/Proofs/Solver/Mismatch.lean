import TypeSolver.Proofs.Solver.Completeness
import TypeSolver.Proofs.Unify.Clash

/-!
# A reported mismatch is a real one

One mismatch ends the whole pass, so a false one would cost a batch its answer.  For a batch of
equations there are none: what a mismatch reports follows from the equations, so that equations with
a solution do not give rise to it.

The solver adds nothing to what the unifier does here.  A pass over equations is the unifier's own
loop over pairs (`result_runFrom_equalities`), and the pair at which that fails is known from
`Clashes`.  The two exceptions are those of a single clash: two objects never agree, and a NaN
literal does not agree with itself, which matters only if the equations have one.
-/

namespace TypeSolver

/-- What the kinds of a reported mismatch say about the equations that it comes from: neither is a
variable, they are not one base type, and the equations have no solution, unless two objects were
compared or two number literals when there are NaN literals. -/
structure Refutes (equations : List (Ty × Ty)) (left right : Kind) : Prop where
  rigid : left ≠ .variable ∧ right ≠ .variable
  not_same_base : ∀ k ∈ [Kind.number, .string, .boolean], ¬ (left = k ∧ right = k)
  unsolvable : ¬ (left = .object ∧ right = .object) →
    ¬ (left = .numberLit ∧ right = .numberLit ∧
      ∃ e ∈ equations, e.1.nanFree = false ∨ e.2.nanFree = false) →
    ¬ ∃ θ : Assignment, ∀ e ∈ equations, e.1.assign θ ≈ e.2.assign θ

variable {equations : List (Ty × Ty)}

lemma nanFree_of_not_exists (h : ¬ ∃ e ∈ equations, e.1.nanFree = false ∨ e.2.nanFree = false) :
    ∀ e ∈ equations, e.1.nanFree = true ∧ e.2.nanFree = true := by
  intro e he
  by_contra hcon
  rw [not_and_or, Bool.not_eq_true, Bool.not_eq_true] at hcon
  exact h ⟨e, he, hcon⟩

/-- The pair at which a task fails refutes equations that the task follows from. -/
lemma Clashes.refutes {task : Task} {l r : Ty} (h : Clashes task l r)
    (hsolved : ∀ θ : Assignment, (∀ e ∈ equations, e.1.assign θ ≈ e.2.assign θ) → task.SolvedBy θ)
    (hnan : (∀ e ∈ equations, e.1.nanFree = true ∧ e.2.nanFree = true) →
      task.All fun t => t.nanFree = true) :
    Refutes equations l.kind r.kind where
  rigid := h.clash.kind_ne_variable
  not_same_base k hk hkinds := h.clash.not_same_base hk hkinds.1 hkinds.2
  unsolvable := by
    rintro hobject hliteral ⟨θ, hθ⟩
    rcases h.clash.object_or_nan_of_alike (h.alike (hsolved θ hθ)) with hkinds | ⟨hl, hr, hnanl⟩
    · exact hobject hkinds
    · -- a NaN literal in the pair is one of the equations' own
      refine hliteral ⟨hl, hr, ?_⟩
      by_contra hnone
      have hfree := (h.all Ty.hereditary_nanFree (hnan (nanFree_of_not_exists hnone))).1
      rw [hnanl] at hfree
      cases hfree

namespace Solver

variable {depth : Nat} {nested : Bool} {names : FreshNames} {s : Subst}

/-- A pass over equations is the unifier's loop over pairs. -/
lemma result_runFrom_equalities :
    (runFrom depth nested names s (equalities equations)).result =
      (Task.unifyAll s equations).run depth := by
  induction equations generalizing s with
  | nil => rfl
  | cons e rest ih =>
    show (runFrom depth nested names s (.equals e.1 e.2 :: equalities rest)).result = _
    rw [Task.run, List.foldlM_cons, runFrom, contribution]
    cases hd : unify depth e.1 e.2 with
    | error failure => rfl
    | ok d =>
      simp only [Except.map, ok_bind]
      cases compose depth s d with
      | error failure => rfl
      | ok s' => exact ih

/-- If a batch of equations is answered with a mismatch, the mismatch refutes the batch, and so does
a mismatch of two types their equation. -/
theorem mismatch_refutes :
    (∀ (depth : Nat) (config : Config) (equations : List (Ty × Ty)) (left right : Ty),
      solve depth config (equalities equations) = .error (.mismatch left right) →
        Refutes equations left.kind right.kind) ∧
    ∀ (depth : Nat) (a b left right : Ty), unify depth a b = .error (.mismatch left right) →
      Refutes [(a, b)] left.kind right.kind := by
  refine ⟨?_, ?_⟩
  · intro depth config equations left right h
    have hrun : (Task.unifyAll .empty equations).run depth = .error (.mismatch left right) :=
      result_runFrom_equalities.symm.trans h
    refine (clashes_of_run _ hrun).refutes (fun θ hθ => ⟨Subst.satisfiedBy_empty, hθ⟩) fun hfree =>
      ⟨by simp [Subst.All, Subst.empty], hfree⟩
  · intro depth a b left right h
    refine (clashes_of_run (.unify a b) h).refutes (fun θ hθ => ?_) fun hfree => ?_
    · exact hθ _ List.mem_cons_self
    · exact hfree _ List.mem_cons_self

/-- The clash is met when the second type of `x` is reconciled with the first, between types that
stand on the other side of their equations; objects clash with themselves. -/
theorem mismatch_refutes_of_reconciled_function :
    (solve 9 Preset.standard.config (equalities
        [(.var "x", .func [.var "a"] .number), (.func [.string] (.var "a"), .var "x")]) =
      .error (.mismatch .string .number) ∧
    Refutes [(.var "x", .func [.var "a"] .number), (.func [.string] (.var "a"), .var "x")]
      .string .number ∧
    ¬ ∃ θ : Assignment, ∀ e ∈ [(Ty.var "x", Ty.func [.var "a"] .number),
        (.func [.string] (.var "a"), .var "x")], e.1.assign θ ≈ e.2.assign θ) ∧
    (unify 5 (.object []) (.object []) = .error (.mismatch (.object []) (.object [])) ∧
      Refutes [(.object [], .object [])] .object .object) := by
  have hbatch : solve 9 Preset.standard.config (equalities
        [(.var "x", .func [.var "a"] .number), (.func [.string] (.var "a"), .var "x")]) =
      .error (.mismatch .string .number) := rfl
  have hrefutes := mismatch_refutes.1 9 Preset.standard.config _ _ _ hbatch
  refine ⟨⟨hbatch, hrefutes, hrefutes.unsolvable (by decide) ?_⟩, rfl, ?_⟩
  · rintro ⟨hleft, -⟩
    cases hleft
  · exact mismatch_refutes.2 5 (.object []) (.object []) _ _ rfl

end Solver

end TypeSolver
