import TypeSolver.Proofs.Solver.Soundness
import TypeSolver.Proofs.Unify.Completeness

/-!
# Solvable batches are solved

A batch of equations without objects and NaN literals that has a solution is solved, in whatever
order the equations come: the pass ends, and with a substitution rather than a failure
(`exists_pass_of_solvable`).  The substitution reached is in resolved form, makes the two sides of
every equation alike, and every solution of the batch factors through it.

The step is `Subst.Admits.exists_merge`, which keeps the solution; the pass only repeats it.
-/

namespace TypeSolver

namespace Solver

variable {θ : Assignment} {s : Subst} {equations : List (Ty × Ty)}

/-- The constraints that ask for equations. -/
def equalities (equations : List (Ty × Ty)) : List Constraint :=
  equations.map fun e => .equals e.1 e.2

/-- A pass over equations with a solution in common with where it starts does not fail. -/
theorem exists_pass_of_solvable (nested : Bool) (names : FreshNames) (hs : s.Admits θ)
    (hplain : ∀ e ∈ equations, e.1.Plain ∧ e.2.Plain)
    (hsolved : ∀ e ∈ equations, e.1.assign θ ≈ e.2.assign θ) :
    ∃ steps r, Pass nested names s (equalities equations) steps r ∧ r.Admits θ := by
  induction equations generalizing s with
  | nil => exact ⟨[], s, .nil names s, hs⟩
  | cons e rest ih =>
    rw [List.forall_mem_cons] at hplain hsolved
    obtain ⟨d, s', hd, hs', hadmits⟩ := hs.exists_merge hplain.1.1 hplain.1.2 hsolved.1
    obtain ⟨steps, r, hpass, hr⟩ := ih hadmits hplain.2 hsolved.2
    exact ⟨_, r, .binds (.equals hd) hs' hpass, hr⟩

/-- The solutions of what a pass over equations reaches are the solutions of the equations that
satisfy where it starts. -/
lemma Pass.satisfiedBy_iff_of_equalities {nested : Bool} {names : FreshNames} {steps : List Step}
    {r : Subst} (h : Pass nested names s (equalities equations) steps r) :
    r.SatisfiedBy θ ↔ s.SatisfiedBy θ ∧ ∀ e ∈ equations, e.1.assign θ ≈ e.2.assign θ := by
  induction equations generalizing names s steps with
  | nil =>
    cases h
    simp
  | cons e rest ih =>
    cases h with
    | skips hc _ => cases hc
    | binds hc hs' hrest =>
      cases hc with
      | equals hd =>
        rw [ih hrest, hs'.satisfiedBy_iff, List.forall_mem_cons, ← and_assoc]
        exact and_congr_left fun _ => and_congr_right fun _ => hd.satisfiedBy_iff

/-- A batch of equations without objects and NaN literals that has a solution is
solved at every depth that is large enough.  The answer leaves every bound type alone, makes the two
sides of every equation alike, and is most general: no solution tells a type from what the answer
makes of it.  In particular any two such types with a common instance are unified. -/
theorem solve_of_solvable :
    (∀ (config : Config) (equations : List (Ty × Ty)),
      (∀ e ∈ equations, (e.1.objectFree = true ∧ e.1.nanFree = true) ∧
        e.2.objectFree = true ∧ e.2.nanFree = true) →
      (∃ θ : Assignment, ∀ e ∈ equations, e.1.assign θ ≈ e.2.assign θ) →
      ∃ (s : Subst) (enough : Nat),
        (∀ depth, enough ≤ depth → solve depth config (equalities equations) = .ok s) ∧
        (∀ b ∈ s.bindings, s.apply b.2 = b.2) ∧
        (∀ e ∈ equations, s.apply e.1 ≈ s.apply e.2) ∧
        ∀ θ' : Assignment, (∀ e ∈ equations, e.1.assign θ' ≈ e.2.assign θ') →
          ∀ t : Ty, (s.apply t).assign θ' ≈ t.assign θ') ∧
    ∀ a b : Ty, (a.objectFree = true ∧ a.nanFree = true) →
      (b.objectFree = true ∧ b.nanFree = true) →
      (∃ θ : Assignment, a.assign θ ≈ b.assign θ) →
      ∃ (r : Subst) (enough : Nat), ∀ depth, enough ≤ depth → unify depth a b = .ok r := by
  refine ⟨?_, ?_⟩
  · rintro config equations hplain ⟨θ, hθ⟩
    obtain ⟨steps, s, hpass, hs⟩ := exists_pass_of_solvable config.freshenNestedFunctions
      (.start config.syntheticMarker) Subst.admits_empty hplain hθ
    obtain ⟨enough, hrun⟩ := hpass.runFrom_eventually
    refine ⟨s, enough, ?_, Subst.idempotent_iff_fixes.1 hs.idempotent, ?_, ?_⟩
    · intro depth hdepth
      rw [solve, run, hrun depth hdepth]
    · simp only [Subst.apply_eq_assign]
      exact (hpass.satisfiedBy_iff_of_equalities.1 hs.idempotent.satisfiedBy_self).2
    · intro θ' hθ' t
      exact (hpass.satisfiedBy_iff_of_equalities.2
        ⟨Subst.satisfiedBy_empty, hθ'⟩).assign_apply t
  · rintro a b ha hb ⟨θ, hab⟩
    obtain ⟨r, hr⟩ := exists_yields_unify ha hb hab
    exact ⟨r, hr.unify_eventually⟩

/-- Two names that are equated both ways round. -/
theorem solve_of_solvable_of_two_way_equation :
    (∃ θ : Assignment, ∀ e ∈ [(Ty.var "x", Ty.var "y"), (Ty.var "y", Ty.var "x")],
      e.1.assign θ ≈ e.2.assign θ) ∧
    (∃ (s : Subst) (enough : Nat),
      (∀ depth, enough ≤ depth → solve depth Preset.standard.config
        (equalities [(.var "x", .var "y"), (.var "y", .var "x")]) = .ok s) ∧
      (∀ b ∈ s.bindings, s.apply b.2 = b.2) ∧
      s.apply (.var "x") ≈ s.apply (.var "y")) ∧
    ∃ (r : Subst) (enough : Nat), ∀ depth, enough ≤ depth →
      unify depth (.func [.var "x"] (.var "y")) (.func [.var "y"] (.var "x")) = .ok r := by
  have hsolvable : ∃ θ : Assignment, ∀ e ∈ [(Ty.var "x", Ty.var "y"), (Ty.var "y", Ty.var "x")],
      e.1.assign θ ≈ e.2.assign θ :=
    ⟨fun _ => .number, List.forall_mem_cons.2 ⟨Setoid.refl _,
      List.forall_mem_singleton.2 (Setoid.refl _)⟩⟩
  obtain ⟨s, enough, hs, hfixes, hsides, -⟩ :=
    solve_of_solvable.1 Preset.standard.config _ (by decide) hsolvable
  refine ⟨hsolvable, ⟨s, enough, hs, hfixes, hsides _ (List.mem_cons_self ..)⟩, ?_⟩
  exact solve_of_solvable.2 _ _ ⟨rfl, rfl⟩ ⟨rfl, rfl⟩ ⟨fun _ => .number, Setoid.refl _⟩

end Solver

end TypeSolver
