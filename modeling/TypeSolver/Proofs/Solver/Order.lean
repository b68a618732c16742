import TypeSolver.Proofs.Solver.Completeness

/-!
# The order of equations

Two orders of one batch of equations may bind different names, to different representatives, and
leave different names bound to themselves, so the two answers need not look alike.  They say the
same all the same, and this file shows it by way of the assignments that satisfy them.

Those assignments are the solutions of the equations (`satisfiedBy_iff_of_solve`), and whether
something is a solution does not depend on the order.  An answer in resolved form satisfies itself,
so it makes two types alike exactly when all assignments that satisfy it do
(`Subst.Idempotent.apply_alike_iff`).  That the other answer has no cycle either needs no look at
how it was found: a substitution with a cycle is satisfied by nothing.
-/

namespace TypeSolver

variable {s : Subst}

/-- A substitution in resolved form makes two types alike when every assignment that satisfies it
does. -/
lemma Subst.Idempotent.apply_alike_iff (hs : s.Idempotent) {a b : Ty} :
    s.apply a ≈ s.apply b ↔ ∀ θ : Assignment, s.SatisfiedBy θ → a.assign θ ≈ b.assign θ := by
  constructor
  · intro h θ hθ
    have ha : a.assign θ ≈ (s.apply a).assign θ := Setoid.symm (hθ.assign_apply a)
    have hb : (s.apply b).assign θ ≈ b.assign θ := hθ.assign_apply b
    exact Setoid.trans ha (Setoid.trans (Ty.alike_assign h) hb)
  · intro h
    rw [apply_eq_assign, apply_eq_assign]
    exact h s.toAssignment hs.satisfiedBy_self

lemma Ty.Ground.apply_eq {t : Ty} (h : t.Ground) (s : Subst) : s.apply t = t := by
  rw [Subst.apply_eq_assign, h.assign_eq]

/-- What comes out without variables comes out alike of a substitution that makes at least as many
types alike. -/
lemma Subst.apply_alike_of_ground {s' : Subst}
    (halike : ∀ a b, s.apply a ≈ s.apply b → s'.apply a ≈ s'.apply b) {t : Ty}
    (ht : (s.apply t).Ground) : s.apply t ≈ s'.apply t ∧ (s'.apply t).Ground := by
  -- a type without variables is what any substitution makes of it
  have hself : s.apply t ≈ s.apply (s.apply t) := Ty.alike_of_eq (ht.apply_eq s).symm
  have hother : s'.apply t ≈ s.apply t := by
    have himage := halike _ _ hself
    rwa [ht.apply_eq s'] at himage
  refine ⟨Setoid.symm hother, fun n => ?_⟩
  rw [Ty.mentions_eq_of_alike hother, ht n]

namespace Solver

variable {depth : Nat} {config : Config} {equations : List (Ty × Ty)}

/-- The assignments that satisfy the answer to a batch of equations are the solutions of the
equations. -/
lemma satisfiedBy_iff_of_solve (h : solve depth config (equalities equations) = .ok s)
    {θ : Assignment} :
    s.SatisfiedBy θ ↔ ∀ e ∈ equations, e.1.assign θ ≈ e.2.assign θ := by
  rw [(pass_of_solve h).satisfiedBy_iff_of_equalities]
  exact and_iff_right Subst.satisfiedBy_empty

/-- If one order of a batch of equations is answered without a cycle, so is every other order that
is answered at all, and the two answers make the same types alike.  In particular the same types
come out without variables, and alike. -/
theorem solve_perm {depth depth' : Nat} {config config' : Config}
    {equations equations' : List (Ty × Ty)} {s s' : Subst}
    (hperm : equations.Perm equations')
    (h : solve depth config (equalities equations) = .ok s)
    (h' : solve depth' config' (equalities equations') = .ok s') (hs : s.Acyclic) :
    s'.Acyclic ∧
    (∀ a b : Ty, s.apply a ≈ s.apply b ↔ s'.apply a ≈ s'.apply b) ∧
    ∀ t : Ty, ((s.apply t).Ground ↔ (s'.apply t).Ground) ∧
      ((s.apply t).Ground → s.apply t ≈ s'.apply t) := by
  have hsame : ∀ θ : Assignment, s.SatisfiedBy θ ↔ s'.SatisfiedBy θ := by
    intro θ
    rw [satisfiedBy_iff_of_solve h, satisfiedBy_iff_of_solve h']
    exact forall_congr' fun e => by rw [hperm.mem_iff]
  have hidem : s.Idempotent := (reachable_of_solve h).idempotent_iff_acyclic.2 hs
  have hs' : s'.Acyclic := ((hsame _).1 hidem.satisfiedBy_self).acyclic
  have hidem' : s'.Idempotent := (reachable_of_solve h').idempotent_iff_acyclic.2 hs'
  have halike : ∀ a b : Ty, s.apply a ≈ s.apply b ↔ s'.apply a ≈ s'.apply b := by
    intro a b
    rw [hidem.apply_alike_iff, hidem'.apply_alike_iff]
    simp only [hsame]
  refine ⟨hs', halike, fun t => ⟨⟨fun ht => ?_, fun ht => ?_⟩, fun ht => ?_⟩⟩
  · exact (Subst.apply_alike_of_ground (fun a b => (halike a b).1) ht).2
  · exact (Subst.apply_alike_of_ground (fun a b => (halike a b).2) ht).2
  · exact (Subst.apply_alike_of_ground (fun a b => (halike a b).1) ht).1

/-- The two orders choose different representatives for three names that are equal. -/
theorem solve_perm_of_three_names :
    solve 9 Preset.standard.config (equalities
        [(.var "x", .var "y"), (.var "x", .var "z"), (.var "f", .func [.var "x"] .number)]) =
      .ok (.ofList [("x", .var "y"), ("z", .var "y"), ("f", .func [.var "y"] .number)]) ∧
    solve 9 Preset.standard.config (equalities
        [(.var "f", .func [.var "x"] .number), (.var "x", .var "z"), (.var "x", .var "y")]) =
      .ok (.ofList [("f", .func [.var "z"] .number), ("x", .var "z"), ("y", .var "z")]) ∧
    ((Subst.ofList [("x", .var "y"), ("z", .var "y"), ("f", .func [.var "y"] .number)]).apply
        (.var "f") ≈
      (Subst.ofList [("x", .var "y"), ("z", .var "y"), ("f", .func [.var "y"] .number)]).apply
        (.func [.var "z"] .number) ↔
    (Subst.ofList [("f", .func [.var "z"] .number), ("x", .var "z"), ("y", .var "z")]).apply
        (.var "f") ≈
      (Subst.ofList [("f", .func [.var "z"] .number), ("x", .var "z"), ("y", .var "z")]).apply
        (.func [.var "z"] .number)) := by
  have h : solve 9 Preset.standard.config (equalities
        [(.var "x", .var "y"), (.var "x", .var "z"), (.var "f", .func [.var "x"] .number)]) =
      .ok (.ofList [("x", .var "y"), ("z", .var "y"), ("f", .func [.var "y"] .number)]) := rfl
  have h' : solve 9 Preset.standard.config (equalities
        [(.var "f", .func [.var "x"] .number), (.var "x", .var "z"), (.var "x", .var "y")]) =
      .ok (.ofList [("f", .func [.var "z"] .number), ("x", .var "z"), ("y", .var "z")]) := rfl
  have hperm : [(Ty.var "x", Ty.var "y"), (.var "x", .var "z"),
      (.var "f", .func [.var "x"] .number)].Perm
      [(.var "f", .func [.var "x"] .number), (.var "x", .var "z"), (.var "x", .var "y")] :=
    (List.reverse_perm _).symm
  exact ⟨h, h', (solve_perm hperm h h' (by decide)).2.1 _ _⟩

end Solver

end TypeSolver
