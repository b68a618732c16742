import TypeSolver.Proofs.Solver.Pass
import TypeSolver.Proofs.Unify.ResolvedForm

/-!
# What a solution says about its batch

Two statements about every pass over every batch.

## Resolved form

What a pass has reached, after whatever prefix of its batch, is reached from the empty substitution
by adding bindings (`Pass.reachable`).  So it is resolved unless it has a cycle, and
`resolved_iff_acyclic` collects what that means.

## Earlier constraints keep holding

A constraint is looked at once, when it is its turn, and later constraints rewrite the bindings that
it made.  `Constraint.Holds` says what a constraint asks of the values of its types, and
`Pass.holds` is the statement that carries the argument: an assignment that satisfies the final
substitution satisfies every substitution on the way and every contribution, and hence every
constraint that made one.  A resolved substitution satisfies itself, so it is such an assignment.
-/

namespace TypeSolver

variable {θ : Assignment} {s r : Subst}

namespace Ty

lemma eq_stringLit_of_alike {t : Ty} {x : String} (h : t ≈ stringLit x) : t = stringLit x := by
  rw [alike_iff, canonical_stringLit] at h
  cases t with
  | stringLit y => simpa using h
  | func ps r => simp at h
  | object fs => simp at h
  | _ => simp [canonical] at h

/-- A type that is alike to an object is an object, and the types of a field are alike. -/
lemma exists_object_of_alike {t : Ty} {fs : List (String × Ty)} (h : object fs ≈ t) :
    ∃ gs, t = object gs ∧ ∀ name u, fs.lookup name = some u →
      ∃ v, gs.lookup name = some v ∧ u ≈ v := by
  rw [alike_iff, canonical_object] at h
  cases t with
  | object gs =>
    rw [canonical_object, object.injEq] at h
    refine ⟨gs, rfl, fun name u hu => ?_⟩
    have hlookup := congrArg (List.lookup name) h
    rw [Subst.lookup_map_type, Subst.lookup_map_type, hu, Option.map_some, eq_comm,
      Option.map_eq_some_iff] at hlookup
    obtain ⟨v, hv, huv⟩ := hlookup
    exact ⟨v, hv, huv.symm⟩
  | func ps r => simp at h
  | _ => simp [canonical] at h

end Ty

/-! ## Resolved form -/

/-- A resolved substitution satisfies itself. -/
lemma Subst.Idempotent.satisfiedBy_self (h : s.Idempotent) : s.SatisfiedBy s.toAssignment := by
  rw [satisfiedBy_iff]
  intro n
  exact Ty.alike_of_eq (idempotent_iff_toAssignment.1 h n)

namespace Solver

variable {nested : Bool} {names : FreshNames} {cs : List Constraint} {steps : List Step}

lemma Pass.reachable (h : Pass nested names s cs steps r) (hs : s.Reachable) : r.Reachable := by
  induction h with
  | nil names s => exact hs
  | skips _ _ ih => exact ih hs
  | binds _ hd _ ih => exact ih (hd.reachable hs)

lemma reachable_of_solve {depth : Nat} {config : Config} (h : solve depth config cs = .ok r) :
    r.Reachable :=
  (pass_of_solve h).reachable .empty

end Solver

/-- A substitution reached from the empty one is idempotent exactly when none of its bindings is a
cycle, exactly when it leaves every bound type alone, and exactly when no bound type mentions a
resolved name.  Answers of the unifier and what a pass has reached after any prefix of a batch are
such substitutions.  A cycle is still there after whatever is added. -/
theorem resolved_iff_acyclic :
    (∀ s : Subst, s.Reachable →
      (s.Idempotent ↔ s.Acyclic) ∧
      (s.Idempotent ↔ ∀ b ∈ s.bindings, s.apply b.2 = b.2) ∧
      (s.Idempotent ↔ ∀ b ∈ s.bindings, ∀ n, b.2.mentions n = true →
        s.get? n = none ∨ s.get? n = some (.var n))) ∧
    (∀ (depth : Nat) (a b : Ty) (r : Subst), unify depth a b = .ok r → r.Reachable) ∧
    (∀ (depth : Nat) (config : Config) (constraints : List Constraint) (k : Nat) (s : Subst),
      Solver.solve depth config (constraints.take k) = .ok s → s.Reachable) ∧
    (∀ (s : Subst) (n : Name), s.CyclicAt n →
      (∀ (depth : Nat) (m : Name) (t : Ty) (r : Subst), extend depth s m t = .ok r →
        r.CyclicAt n) ∧
      ∀ (depth : Nat) (added r : Subst), compose depth s added = .ok r → r.CyclicAt n) := by
  refine ⟨?_, ?_, ?_, ?_⟩
  · intro s hs
    refine ⟨hs.idempotent_iff_acyclic, Subst.idempotent_iff_fixes, ?_⟩
    simp only [Subst.idempotent_iff_unresolved, Subst.unresolved_iff]
  · intro depth a b r h
    exact (yields_of_unify h).reachable .empty
  · intro depth config constraints k s h
    exact Solver.reachable_of_solve h
  · intro s n hn
    refine ⟨?_, ?_⟩
    · intro depth m t r h
      exact hn.bindSteps (yields_of_extend h).bindSteps
    · intro depth added r h
      exact hn.bindSteps (yields_of_compose h).bindSteps

/-- Two names that are equated both ways round, a name that is parameter and result, and a cycle
that outlives the binding of another name. -/
theorem resolved_iff_acyclic_of_two_way_equation :
    (Solver.solve 5 Preset.standard.config
        ([.equals (.var "x") (.var "y"), .equals (.var "y") (.var "x"),
          .equals (.var "y") .number].take 2) = .ok (.ofList [("x", .var "y"), ("y", .var "y")]) ∧
      (Subst.ofList [("x", .var "y"), ("y", .var "y")]).Acyclic ∧
      (Subst.ofList [("x", .var "y"), ("y", .var "y")]).Idempotent) ∧
    (unify 5 (.func [.var "x"] (.var "x")) (.func [.number] (.var "y")) =
        .ok (.ofList [("x", .number), ("y", .number)]) ∧
      (Subst.ofList [("x", .number), ("y", .number)]).Reachable) ∧
    ((Subst.single "x" (.func [.var "x"] .number)).CyclicAt "x" ∧
      extend 5 (.single "x" (.func [.var "x"] .number)) "y" (.var "x") =
        .ok (.ofList [("x", .func [.var "x"] .number), ("y", .func [.var "x"] .number)]) ∧
      (Subst.ofList [("x", .func [.var "x"] .number),
        ("y", .func [.var "x"] .number)]).CyclicAt "x") ∧
    compose 5 (.single "x" (.func [.var "x"] .number)) (.single "y" .string) =
        .ok (.ofList [("x", .func [.var "x"] .number), ("y", .string)]) ∧
      (Subst.ofList [("x", .func [.var "x"] .number), ("y", .string)]).CyclicAt "x" := by
  have hcyclic : (Subst.single "x" (.func [.var "x"] .number)).CyclicAt "x" :=
    ⟨_, List.mem_singleton_self _, nofun, by decide⟩
  refine ⟨⟨rfl, by decide, ?_⟩, ⟨rfl, ?_⟩, ⟨hcyclic, rfl, ?_⟩, rfl, ?_⟩
  · have hsolve : Solver.solve 5 Preset.standard.config
        ([.equals (.var "x") (.var "y"), .equals (.var "y") (.var "x"),
          .equals (.var "y") .number].take 2) = .ok (.ofList [("x", .var "y"), ("y", .var "y")]) :=
      rfl
    have hreachable := resolved_iff_acyclic.2.2.1 _ _ _ _ _ hsolve
    exact (resolved_iff_acyclic.1 _ hreachable).1.2 (by decide)
  · exact resolved_iff_acyclic.2.1 5 (.func [.var "x"] (.var "x"))
      (.func [.number] (.var "y")) _ rfl
  · exact (resolved_iff_acyclic.2.2.2 _ _ hcyclic).1 5 "y" (.var "x") _ rfl
  · exact (resolved_iff_acyclic.2.2.2 _ _ hcyclic).2 5 (.single "y" .string) _ rfl

/-! ## Earlier constraints keep holding -/

/-- What a constraint asks of the values of its types.  A call asks nothing here, since its callee
is instantiated anew. -/
def Constraint.Holds (value : Ty → Ty) : Constraint → Prop
  | .equals l r => value l ≈ value r
  | .apply _ _ _ => True
  | .concat a b r => ∃ x y, value a = .stringLit x ∧ value b = .stringLit y ∧
    value r = .stringLit (x ++ y)
  | .index o f r => ∃ fields name type, value o = .object fields ∧ value f = .stringLit name ∧
    fields.lookup name = some type ∧ value r ≈ type

namespace Solver

variable {nested : Bool} {names names' : FreshNames} {cs : List Constraint} {steps : List Step}

/-- What is a string so far is the same string in every solution. -/
lemma assign_eq_stringLit (hs : s.SatisfiedBy θ) {t : Ty} {x : String}
    (ht : s.apply t = .stringLit x) : t.assign θ = .stringLit x := by
  have halike := hs.assign_apply t
  rw [ht, Ty.assign_of_isConstant rfl] at halike
  exact Ty.eq_stringLit_of_alike (Setoid.symm halike)

/-- A constraint holds under what solves its contribution and the solution it was looked at in. -/
lemma Contributes.holds {c : Constraint} {d : Subst}
    (h : Contributes nested names s c (.binds d) names') (hs : s.SatisfiedBy θ)
    (hd : d.SatisfiedBy θ) : c.Holds (Ty.assign θ) := by
  cases h with
  | equals hu => exact hu.satisfiedBy_iff.1 hd
  | apply _ _ => trivial
  | concat ha hb hu =>
    refine ⟨_, _, assign_eq_stringLit hs ha, assign_eq_stringLit hs hb, ?_⟩
    have halike := hu.satisfiedBy_iff.1 hd
    rw [Task.SolvedBy, Ty.assign_of_isConstant (t := .stringLit _) rfl] at halike
    exact Ty.eq_stringLit_of_alike halike
  | @index o f r type fields name _ ho hf htype hu =>
    -- the object may have been refined since, but it is an object with this field
    have hobject := hs.assign_apply o
    rw [ho, Ty.assign_object] at hobject
    obtain ⟨gs, hgs, hfield⟩ := Ty.exists_object_of_alike hobject
    obtain ⟨v, hv, htv⟩ := hfield name (type.assign θ)
      (by rw [Subst.lookup_map_type, htype, Option.map_some])
    exact ⟨gs, name, v, hgs, assign_eq_stringLit hs hf, hv,
      Setoid.trans (hu.satisfiedBy_iff.1 hd) htv⟩

/-- A solution of what a pass reaches is a solution of where it starts, and every constraint that
made a contribution holds under it. -/
theorem Pass.holds (h : Pass nested names s cs steps r) (hr : r.SatisfiedBy θ) :
    s.SatisfiedBy θ ∧ ∀ step ∈ steps, ∀ d, step.contribution = .binds d →
      step.constraint.Holds (Ty.assign θ) := by
  induction h with
  | nil names s => exact ⟨hr, by simp⟩
  | skips _ _ ih =>
    obtain ⟨hs, hsteps⟩ := ih hr
    refine ⟨hs, List.forall_mem_cons.2 ⟨?_, hsteps⟩⟩
    intro d hd
    cases hd
  | @binds _ _ s d s' _ c _ _ hc hadd _ ih =>
    obtain ⟨hs', hsteps⟩ := ih hr
    obtain ⟨hs, hd⟩ : s.SatisfiedBy θ ∧ d.SatisfiedBy θ := hadd.satisfiedBy_iff.1 hs'
    refine ⟨hs, List.forall_mem_cons.2 ⟨?_, hsteps⟩⟩
    intro d' hd'
    exact hc.holds hs hd

/-- In a solution without cycles every constraint that was unified holds, whatever came after it:
the two sides of an equation agree, a joined string is the two strings joined, and a field that was
read has the type of that field in the object. -/
theorem holds_of_unified {depth : Nat} {config : Config} {constraints : List Constraint}
    {s : Subst} {trace : Trace} (h : solveWithTrace depth config constraints = .ok (s, trace))
    (hs : s.Acyclic) :
    ∀ (i : Nat) (c : Constraint), constraints[i]? = some c →
      (∃ step ∈ trace.steps, step.index = i ∧ step.outcome = .unified) → c.Holds s.apply := by
  rintro i c hc ⟨step, hstep, hindex, hunified⟩
  obtain ⟨steps, hpass, htrace⟩ := pass_of_solveWithTrace h
  have hidem : s.Idempotent := (hpass.reachable .empty).idempotent_iff_acyclic.2 hs
  -- the step of the trace is the account of the pass's step at the same place
  rw [htrace, List.mem_mapIdx] at hstep
  obtain ⟨j, hj, rfl⟩ := hstep
  have hij : j = i := by
    rw [← hindex]
    unfold Step.account
    split <;> rfl
  subst hij
  have hcj : steps[j].constraint = c := by
    rw [← hpass.map_constraint, List.getElem?_map, List.getElem?_eq_getElem hj] at hc
    exact Option.some.inj hc
  have hbinds : ∃ d, steps[j].contribution = .binds d := by
    cases hcontr : steps[j].contribution with
    | binds d => exact ⟨d, rfl⟩
    | skips reason => simp [Step.account, hcontr] at hunified
  obtain ⟨d, hd⟩ := hbinds
  have hholds := (hpass.holds hidem.satisfiedBy_self).2 _ (List.getElem_mem hj) d hd
  have happly : s.apply = Ty.assign s.toAssignment := funext s.apply_eq_assign
  rwa [hcj, ← happly] at hholds

/-- The type of the field that is read is found only afterwards. -/
theorem holds_of_unified_of_refined_object :
    ∃ s trace,
      solveWithTrace 9 Preset.standard.config
        [.equals (.var "o") (.object [("f", .var "x")]),
          .index (.var "o") (.stringLit "f") (.var "r"),
          .concat (.stringLit "p") (.stringLit "q") (.var "c"),
          .equals (.var "x") (.func [] (.var "c"))] = .ok (s, trace) ∧
      s.Acyclic ∧
      (∃ step ∈ trace.steps, step.index = 1 ∧ step.outcome = .unified) ∧
      (Constraint.index (.var "o") (.stringLit "f") (.var "r")).Holds s.apply := by
  have hsolved : ∃ s trace,
      solveWithTrace 9 Preset.standard.config
        [.equals (.var "o") (.object [("f", .var "x")]),
          .index (.var "o") (.stringLit "f") (.var "r"),
          .concat (.stringLit "p") (.stringLit "q") (.var "c"),
          .equals (.var "x") (.func [] (.var "c"))] = .ok (s, trace) ∧
      s.Acyclic ∧ ∃ step ∈ trace.steps, step.index = 1 ∧ step.outcome = .unified :=
    ⟨_, _, rfl, by decide, ⟨1, .index, .unified, ["r"]⟩, List.mem_of_getElem? (i := 1) rfl,
      rfl, rfl⟩
  obtain ⟨s, trace, h, hs, hunified⟩ := hsolved
  exact ⟨s, trace, h, hs, hunified, holds_of_unified h hs 1 _ rfl hunified⟩

end Solver

end TypeSolver
