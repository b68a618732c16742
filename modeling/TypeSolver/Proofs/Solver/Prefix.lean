import TypeSolver.Proofs.Solver.Pass

/-!
# Prefixes of a pass

A pass carries two things from one constraint to the next: the solution so far and the supply of
fresh names.  The solution is what the pass over the prefix answers, and `supply` is what that pass
leaves of the names.  `runFrom_append` says that nothing else is carried: a pass over a longer batch
is the pass over a prefix, followed by a pass over the rest from there.  It is one step, said in
`exists_of_result_cons`, again and again.
-/

namespace TypeSolver

namespace Solver

variable {depth depth' : Nat} {nested : Bool} {names : FreshNames} {s r : Subst}
  {cs rest : List Constraint} {config : Config}

/-- The supply of names that a pass over a batch leaves, or had left when it failed. -/
def supplyFrom (depth : Nat) (nested : Bool) (names : FreshNames) (s : Subst) :
    List Constraint → FreshNames
  | [] => names
  | c :: rest =>
    match contribution depth nested names s c with
    | (.error _, names) => names
    | (.ok (.skips _), names) => supplyFrom depth nested names s rest
    | (.ok (.binds delta), names) =>
      match compose depth s delta with
      | .error _ => names
      | .ok s => supplyFrom depth nested names s rest

/-- The supply of names after a batch. -/
def supply (depth : Nat) (config : Config) (constraints : List Constraint) : FreshNames :=
  supplyFrom depth config.freshenNestedFunctions (.start config.syntheticMarker) .empty constraints

/-- After a constraint the supply is what the constraint left, or what is taken from that. -/
lemma supplyFrom_cons (depth : Nat) (nested : Bool) (names : FreshNames) (s : Subst)
    (c : Constraint) (rest : List Constraint) :
    supplyFrom depth nested names s (c :: rest) = (contribution depth nested names s c).2 ∨
      ∃ s', supplyFrom depth nested names s (c :: rest) =
        supplyFrom depth nested (contribution depth nested names s c).2 s' rest := by
  rcases hc : contribution depth nested names s c with ⟨failure | d | reason, names'⟩
  · exact .inl (by simp only [supplyFrom, hc])
  · cases hs : compose depth s d with
    | error failure => exact .inl (by simp only [supplyFrom, hc, hs])
    | ok s' => exact .inr ⟨s', by simp only [supplyFrom, hc, hs]⟩
  · exact .inr ⟨s, by simp only [supplyFrom, hc]⟩

/-- A pass that succeeds makes a step with its first constraint and goes on from where that leads,
whatever the rest is. -/
lemma exists_of_result_cons {c : Constraint}
    (h : (runFrom depth nested names s (c :: cs)).result = .ok r) :
    ∃ x names' s', (runFrom depth nested names' s' cs).result = .ok r ∧
      ∀ rest, runFrom depth nested names s (c :: rest) =
          ⟨⟨c, x⟩ :: (runFrom depth nested names' s' rest).steps,
            (runFrom depth nested names' s' rest).result⟩ ∧
        supplyFrom depth nested names s (c :: rest) = supplyFrom depth nested names' s' rest := by
  rcases hc : contribution depth nested names s c with ⟨failure | d | reason, names'⟩
  · simp [runFrom, hc] at h
  · cases hs : compose depth s d with
    | error failure => simp [runFrom, hc, hs] at h
    | ok s' =>
      simp only [runFrom, hc, hs] at h
      refine ⟨.binds d, names', s', h, fun rest => ?_⟩
      simp only [runFrom, supplyFrom, hc, hs, and_self]
  · simp only [runFrom, hc] at h
    refine ⟨.skips reason, names', s, h, fun rest => ?_⟩
    simp only [runFrom, supplyFrom, hc, and_self]

/-- After a prefix that is solved, a pass goes on from the solution and the supply reached. -/
theorem runFrom_append (h : (runFrom depth nested names s cs).result = .ok r)
    (rest : List Constraint) :
    runFrom depth nested names s (cs ++ rest) =
      ⟨(runFrom depth nested names s cs).steps ++
          (runFrom depth nested (supplyFrom depth nested names s cs) r rest).steps,
        (runFrom depth nested (supplyFrom depth nested names s cs) r rest).result⟩ := by
  induction cs generalizing names s with
  | nil =>
    obtain rfl := Except.ok.inj h
    rfl
  | cons c cs ih =>
    obtain ⟨x, names', s', hrest, hstep⟩ := exists_of_result_cons h
    rw [List.cons_append, (hstep (cs ++ rest)).1, (hstep cs).1, (hstep cs).2, ih hrest,
      List.cons_append]

/-- After a prefix that is solved, names are taken from the supply reached. -/
lemma supplyFrom_append (h : (runFrom depth nested names s cs).result = .ok r)
    (rest : List Constraint) : supplyFrom depth nested names s (cs ++ rest) =
      supplyFrom depth nested (supplyFrom depth nested names s cs) r rest := by
  induction cs generalizing names s with
  | nil =>
    obtain rfl := Except.ok.inj h
    rfl
  | cons c cs ih =>
    obtain ⟨x, names', s', hrest, hstep⟩ := exists_of_result_cons h
    rw [List.cons_append, (hstep (cs ++ rest)).2, (hstep cs).2, ih hrest]

lemma run_append (h : solve depth config cs = .ok s) (rest : List Constraint) :
    run depth config (cs ++ rest) =
      ⟨(run depth config cs).steps ++ (runFrom depth config.freshenNestedFunctions
          (supply depth config cs) s rest).steps,
        (runFrom depth config.freshenNestedFunctions (supply depth config cs) s rest).result⟩ :=
  runFrom_append h rest

lemma head?_steps_runFrom {c : Constraint} {step : Step} :
    (runFrom depth nested names s (c :: cs)).steps.head? = some step ↔
      c = step.constraint ∧
        (contribution depth nested names s c).1 = .ok step.contribution := by
  obtain ⟨c', x⟩ := step
  rcases hc : contribution depth nested names s c with ⟨failure | d | reason, names'⟩
  · simp [runFrom, hc]
  · cases hs : compose depth s d <;> simp [runFrom, hc, hs]
  · simp [runFrom, hc]

/-- A pass has a step at a position if the prefix up to there is solved and the constraint there
contributes, and the step is what it contributes to that solution. -/
theorem getElem?_steps_runFrom {k : Nat} {step : Step} :
    (runFrom depth nested names s cs).steps[k]? = some step ↔
      ∃ r, cs[k]? = some step.constraint ∧
        (runFrom depth nested names s (cs.take k)).result = .ok r ∧
        (contribution depth nested (supplyFrom depth nested names s (cs.take k)) r
          step.constraint).1 = .ok step.contribution := by
  induction cs generalizing names s k with
  | nil => simp [runFrom]
  | cons c cs ih =>
    cases k with
    | zero =>
      rw [← List.head?_eq_getElem?, head?_steps_runFrom, List.getElem?_cons_zero, List.take_zero]
      constructor
      · rintro ⟨rfl, hx⟩
        exact ⟨s, rfl, rfl, hx⟩
      · rintro ⟨r, hconstraint, hr, hx⟩
        obtain rfl := Option.some.inj hconstraint
        obtain rfl := Except.ok.inj hr
        exact ⟨rfl, hx⟩
    | succ k =>
      rw [List.take_succ_cons, List.getElem?_cons_succ]
      rcases hc : contribution depth nested names s c with ⟨failure | d | reason, names'⟩
      · simp [runFrom, hc]
      · cases hs : compose depth s d with
        | error failure => simp [runFrom, hc, hs]
        | ok s' =>
          simp only [runFrom, supplyFrom, hc, hs, List.getElem?_cons_succ]
          exact ih
      · simp only [runFrom, supplyFrom, hc, List.getElem?_cons_succ]
        exact ih

/-- A solution is found at all depths from some depth on. -/
lemma solve_eventually (h : solve depth config cs = .ok s) :
    Eventually fun depth => solve depth config cs = .ok s :=
  (pass_of_solve h).runFrom_eventually.mono fun depth hrun => by rw [solve, run, hrun]

/-- Two solutions of which one is of a longer batch are joined by a pass over the rest. -/
theorem exists_pass_of_append (h : solve depth config cs = .ok s)
    (h' : solve depth' config (cs ++ rest) = .ok r) :
    ∃ names steps, Pass config.freshenNestedFunctions names s rest steps r := by
  -- at a depth that is enough for both the two are one run
  obtain ⟨enough, hboth⟩ := (solve_eventually h).and (solve_eventually h')
  obtain ⟨hshort, hlong⟩ := hboth enough le_rfl
  rw [solve, run_append hshort] at hlong
  exact ⟨_, _, pass_of_runFrom hlong⟩

end Solver

end TypeSolver
