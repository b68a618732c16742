import TypeSolver.Proofs.Solver.Refinement

/-!
# The trace is a faithful account

A trace has one step for each constraint of its batch, in their order, and says what became of it.
This file shows that it says nothing else.

* The names of a step are names of the solution: merging a contribution binds every name of it, and
  a bound name stays bound (`Pass.mem_names`).
* A skipped constraint has left no mark.  It is a join or a field access, which take no fresh names,
  and the solution passes through it unchanged; so the pass over the other constraints alone goes
  through the same states (`runFrom_unskipped`).
-/

namespace TypeSolver

variable {s r : Subst}

/-! ## The names of a contribution -/

lemma Subst.mem_names_of_get? {n : Name} {t : Ty} (h : s.get? n = some t) : n ∈ s.names :=
  List.mem_map.2 ⟨(n, t), get?_eq_some_iff.1 h, rfl⟩

lemma Subst.BindSteps.names_subset (h : BindSteps s r) : s.names ⊆ r.names :=
  h.bindStepsAt.names_isPrefix.subset

/-- A name that a binding is added for is bound afterwards. -/
lemma Yields.mem_names {n : Name} {t : Ty} (h : Yields (.extend s n t) r) : n ∈ r.names := by
  cases h with
  | keep hold _ => exact Subst.mem_names_of_get? hold
  | bind _ _ =>
    have hget : (s.bind n t).get? n = some (s.apply t) := by rw [Subst.get?_bind, if_pos rfl]
    exact Subst.mem_names_of_get? hget
  | reconcile hold _ _ _ hadd => exact hadd.bindSteps.names_subset (Subst.mem_names_of_get? hold)

lemma Yields.forall_mem_names {bindings : List (Name × Ty)} (h : Yields (.extendAll s bindings) r) :
    ∀ b ∈ bindings, b.1 ∈ r.names := by
  induction bindings generalizing s with
  | nil => simp
  | cons b rest ih =>
    cases h with
    | bindingsCons hfirst hrest =>
      exact List.forall_mem_cons.2 ⟨hrest.bindSteps.names_subset hfirst.mem_names, ih hrest⟩

/-! ## Skipped constraints -/

/-- Whether a step made no contribution. -/
def Step.isSkipped (step : Step) : Bool :=
  match step.contribution with
  | .binds _ => false
  | .skips _ => true

/-- The constraints of a batch whose steps in a trace are not skips. -/
def Trace.unskipped (trace : Trace) (constraints : List Constraint) : List Constraint :=
  ((constraints.zip trace.steps).filter fun p => !p.2.isSkipped).map Prod.fst

namespace Step

variable (step : Step) (i : Nat)

@[simp] lemma index_account : (step.account i).index = i := by
  obtain ⟨c, d | reason⟩ := step <;> rfl

@[simp] lemma kind_account : (step.account i).kind = step.constraint.kind := by
  obtain ⟨c, d | reason⟩ := step <;> rfl

@[simp] lemma isSkipped_binds (c : Constraint) (d : Subst) : isSkipped ⟨c, .binds d⟩ = false := rfl

@[simp] lemma isSkipped_skips (c : Constraint) (reason : SkipReason) :
    isSkipped ⟨c, .skips reason⟩ = true := rfl

@[simp] lemma isSkipped_account : (step.account i).isSkipped = step.isSkipped := by
  obtain ⟨c, d | reason⟩ := step <;> rfl

/-- The names of an account are those of a contribution. -/
lemma exists_binds_of_mem_bound {n : Name} (h : n ∈ (step.account i).bound) :
    ∃ d, step.contribution = .binds d ∧ n ∈ d.names := by
  obtain ⟨c, d | reason⟩ := step
  · exact ⟨d, rfl, h⟩
  · cases h

lemma bound_account_of_isSkipped (h : step.isSkipped = true) : (step.account i).bound = [] := by
  obtain ⟨c, d | reason⟩ := step
  · cases h
  · rfl

end Step

namespace Run

variable (run : Run)

lemma map_index_trace : run.trace.steps.map TraceStep.index = List.range run.steps.length := by
  apply List.ext_getElem <;> simp [trace]

lemma map_kind_trace : run.trace.steps.map TraceStep.kind =
    (run.steps.map Step.constraint).map Constraint.kind := by
  apply List.ext_getElem <;> simp [trace]

lemma map_isSkipped_trace :
    run.trace.steps.map TraceStep.isSkipped = run.steps.map Step.isSkipped := by
  apply List.ext_getElem <;> simp [trace]

/-- Every step of a trace is the account of a step of the pass. -/
lemma exists_account_of_mem_trace {step : TraceStep} (h : step ∈ run.trace.steps) :
    ∃ origin ∈ run.steps, ∃ i, step = origin.account i := by
  obtain ⟨i, hi, rfl⟩ := List.mem_mapIdx.1 h
  exact ⟨run.steps[i], List.getElem_mem hi, i, rfl⟩

lemma isSkipped_of_mem_trace (h : ∀ step ∈ run.steps, step.isSkipped = false) :
    ∀ step ∈ run.trace.steps, step.isSkipped = false := by
  intro step hstep
  obtain ⟨origin, horigin, i, rfl⟩ := run.exists_account_of_mem_trace hstep
  rw [Step.isSkipped_account]
  exact h origin horigin

end Run

namespace Solver

variable {depth : Nat} {nested : Bool} {names names' : FreshNames} {cs : List Constraint}
  {steps : List Step} {c : Constraint} {reason : SkipReason}

/-- Only a join or a field access is skipped, and neither takes fresh names. -/
lemma Contributes.of_skips (h : Contributes nested names s c (.skips reason) names') :
    names' = names ∧ (c.kind = .concat ∨ c.kind = .index) := by
  cases h with
  | concatSkip _ => exact ⟨rfl, .inl rfl⟩
  | indexMissing _ _ _ => exact ⟨rfl, .inr rfl⟩
  | indexUnresolved _ _ => exact ⟨rfl, .inr rfl⟩
  | indexNotObject _ => exact ⟨rfl, .inr rfl⟩

/-- What a step of a pass contributes is bound at the end of the pass. -/
lemma Pass.mem_names (h : Pass nested names s cs steps r) :
    ∀ step ∈ steps, ∀ d, step.contribution = .binds d → ∀ n ∈ d.names, n ∈ r.names := by
  induction h with
  | nil names s => simp
  | skips _ _ ih => exact List.forall_mem_cons.2 ⟨by simp, ih⟩
  | @binds _ _ s d s' r c _ _ _ hadd hrest ih =>
    refine List.forall_mem_cons.2 ⟨?_, ih⟩
    intro d' hd n hn
    obtain rfl := Contribution.binds.inj hd
    obtain ⟨b, hb, rfl⟩ := List.mem_map.1 hn
    exact hrest.bindSteps.names_subset (hadd.forall_mem_names b hb)

lemma Pass.kind_of_isSkipped (h : Pass nested names s cs steps r) :
    ∀ step ∈ steps, step.isSkipped = true →
      step.constraint.kind = .concat ∨ step.constraint.kind = .index := by
  induction h with
  | nil names s => simp
  | skips hc _ ih => exact List.forall_mem_cons.2 ⟨fun _ => hc.of_skips.2, ih⟩
  | binds _ _ _ ih => exact List.forall_mem_cons.2 ⟨by simp, ih⟩

/-- A pass over the constraints that were not skipped makes the steps that were not skips. -/
theorem runFrom_unskipped (h : (runFrom depth nested names s cs).result = .ok r) :
    runFrom depth nested names s
        (((runFrom depth nested names s cs).steps.filter fun step => !step.isSkipped).map
          Step.constraint) =
      ⟨(runFrom depth nested names s cs).steps.filter fun step => !step.isSkipped, .ok r⟩ := by
  induction cs generalizing names s with
  | nil =>
    obtain rfl := Except.ok.inj h
    rfl
  | cons c rest ih =>
    rcases hc : contribution depth nested names s c with ⟨failure | d | reason, names'⟩
    · simp [runFrom, hc] at h
    · cases hs : compose depth s d with
      | error failure => simp [runFrom, hc, hs] at h
      | ok s' =>
        simp only [runFrom, hc, hs] at h
        simp [runFrom, hc, hs, ih h]
    · obtain ⟨rfl, -⟩ := (contributes_of_contribution hc).of_skips
      simp only [runFrom, hc] at h
      simp [runFrom, hc, ih h]

lemma run_unskipped {config : Config} (h : solve depth config cs = .ok r) :
    run depth config
        (((run depth config cs).steps.filter fun step => !step.isSkipped).map Step.constraint) =
      ⟨(run depth config cs).steps.filter fun step => !step.isSkipped, .ok r⟩ :=
  runFrom_unskipped h

/-- The constraints that a trace does not report as skipped are those of the steps that are no
skips. -/
lemma unskipped_eq {trace : Trace}
    (h : trace.steps.map TraceStep.isSkipped = steps.map Step.isSkipped) :
    trace.unskipped (steps.map Step.constraint) =
      (steps.filter fun step => !step.isSkipped).map Step.constraint := by
  obtain ⟨accounts⟩ := trace
  unfold Trace.unskipped
  induction steps generalizing accounts with
  | nil => rfl
  | cons step rest ih =>
    cases accounts with
    | nil => cases h
    | cons account accounts =>
      obtain ⟨hfirst, hrest⟩ := List.cons.inj h
      have ih' := ih accounts hrest
      cases hskip : step.isSkipped <;> simp_all

/-- A solve with its trace and a solve without it have the same answer.  The trace has a step for
each constraint, at its index and with its kind; the names of a step are bound in the solution; only
joins and field accesses are skipped, and a skipped step has no names.  Without the constraints that
were skipped the batch has the same solution, and none is skipped. -/
theorem trace_accounts (depth : Nat) (config : Config) (constraints : List Constraint) :
    (solveWithTrace depth config constraints).map Prod.fst = solve depth config constraints ∧
    ∀ (s : Subst) (trace : Trace), solveWithTrace depth config constraints = .ok (s, trace) →
      trace.steps.map TraceStep.index = List.range constraints.length ∧
      trace.steps.map TraceStep.kind = constraints.map Constraint.kind ∧
      (∀ step ∈ trace.steps, ∀ n ∈ step.bound, n ∈ s.names) ∧
      (∀ step ∈ trace.steps, step.isSkipped = true →
        (step.kind = .concat ∨ step.kind = .index) ∧ step.bound = []) ∧
      ∃ rest : Trace, (∀ step ∈ rest.steps, step.isSkipped = false) ∧
        solveWithTrace depth config (trace.unskipped constraints) = .ok (s, rest) := by
  refine ⟨?_, ?_⟩
  · rw [solveWithTrace, solve]
    cases (run depth config constraints).result <;> simp [Except.map]
  intro s trace h
  obtain ⟨s, hresult, heq⟩ := map_eq_ok.1 h
  obtain ⟨rfl, rfl⟩ := Prod.mk.inj heq
  set pass := run depth config constraints with hpass
  have hsteps := pass_of_solve hresult
  have hconstraints : pass.steps.map Step.constraint = constraints := hsteps.map_constraint
  refine ⟨?_, ?_, ?_, ?_, ?_⟩
  · rw [pass.map_index_trace, ← hconstraints, List.length_map]
  · rw [pass.map_kind_trace, hconstraints]
  · intro step hstep n hn
    obtain ⟨origin, horigin, i, rfl⟩ := pass.exists_account_of_mem_trace hstep
    obtain ⟨d, hd, hnd⟩ := origin.exists_binds_of_mem_bound i hn
    exact hsteps.mem_names origin horigin d hd n hnd
  · intro step hstep hskip
    obtain ⟨origin, horigin, i, rfl⟩ := pass.exists_account_of_mem_trace hstep
    rw [Step.isSkipped_account] at hskip
    rw [Step.kind_account]
    exact ⟨hsteps.kind_of_isSkipped origin horigin hskip,
      origin.bound_account_of_isSkipped i hskip⟩
  · have hkept := run_unskipped hresult
    rw [← hpass, ← unskipped_eq pass.map_isSkipped_trace, hconstraints] at hkept
    refine ⟨Run.trace ⟨pass.steps.filter fun step => !step.isSkipped, .ok s⟩, ?_, ?_⟩
    · refine Run.isSkipped_of_mem_trace _ fun step hstep => ?_
      simpa using (List.mem_filter.1 hstep).2
    · rw [solveWithTrace, hkept]
      rfl

/-- A join and a field access that come too early stand between constraints that are unified, one of
them a call, which takes a fresh name. -/
theorem trace_accounts_of_early_constraints :
    solveWithTrace 9 Preset.standard.config
        [.concat (.var "x") (.stringLit "b") (.var "y"),
          .apply (.func [.var "a"] (.var "a")) [.stringLit "a"] (.var "x"),
          .index (.var "o") (.stringLit "f") (.var "z"),
          .concat (.var "x") (.stringLit "b") (.var "w")] =
      .ok (.ofList [("x", .stringLit "a"), ("w", .stringLit "ab")],
        ⟨[⟨0, .concat, .skipped .unresolvedOperand, []⟩, ⟨1, .apply, .unified, ["x"]⟩,
          ⟨2, .index, .skipped .notAnObject, []⟩, ⟨3, .concat, .unified, ["w"]⟩]⟩) ∧
    ∃ rest : Trace, (∀ step ∈ rest.steps, step.isSkipped = false) ∧
      solveWithTrace 9 Preset.standard.config
          [.apply (.func [.var "a"] (.var "a")) [.stringLit "a"] (.var "x"),
            .concat (.var "x") (.stringLit "b") (.var "w")] =
        .ok (.ofList [("x", .stringLit "a"), ("w", .stringLit "ab")], rest) := by
  have h : solveWithTrace 9 Preset.standard.config
        [.concat (.var "x") (.stringLit "b") (.var "y"),
          .apply (.func [.var "a"] (.var "a")) [.stringLit "a"] (.var "x"),
          .index (.var "o") (.stringLit "f") (.var "z"),
          .concat (.var "x") (.stringLit "b") (.var "w")] =
      .ok (.ofList [("x", .stringLit "a"), ("w", .stringLit "ab")],
        ⟨[⟨0, .concat, .skipped .unresolvedOperand, []⟩, ⟨1, .apply, .unified, ["x"]⟩,
          ⟨2, .index, .skipped .notAnObject, []⟩, ⟨3, .concat, .unified, ["w"]⟩]⟩) := rfl
  exact ⟨h, ((trace_accounts 9 _ _).2 _ _ h).2.2.2.2⟩

end Solver

end TypeSolver
