import TypeSolver.Solver.Run
import TypeSolver.Proofs.Unify.Task

/-!
# Passes over a batch

`Solver.runFrom` takes the depth of the unifier along and gives its answers as values.  This file
states what a pass does with the depth left out, as `Yields` does for the unifier.

`Contributes` lists the ways in which a constraint contributes: for each of the four kinds the
equation that it makes, given what the operands are so far, and for each reason to skip the
condition under which it is the reason.  `Pass` is a whole pass that ends without a failure: it
records the steps, and every step sees the solution that the steps before it have reached.

Both are exact.  `pass_of_runFrom` derives a pass from a run at any depth, and
`Pass.runFrom_eventually` gives the same run back at every depth that is large enough.
-/

namespace TypeSolver

namespace Solver

/-! ## One constraint -/

section

variable (nested : Bool) (names : FreshNames) (s : Subst)

/-- What a constraint can contribute to a solution, and the supply of names that is left. -/
inductive Contributes : Constraint → Contribution → FreshNames → Prop where
  | equals {l r : Ty} {d : Subst} (hd : Yields (.unify l r) d) :
    Contributes (.equals l r) (.binds d) names
  /-- the callee is instantiated, and the names of the instance are dropped -/
  | apply {f r : Ty} {args : List Ty} {callee : Instance} {rest : FreshNames} {d : Subst}
    (hcallee : (s.apply f).instantiate nested names = (callee, rest))
    (hd : Yields (.unify callee.type (.func args r)) d) :
    Contributes (.apply f args r) (.binds (callee.strip d)) rest
  | concat {a b r : Ty} {x y : String} {d : Subst} (ha : s.apply a = .stringLit x)
    (hb : s.apply b = .stringLit y) (hd : Yields (.unify r (.stringLit (x ++ y))) d) :
    Contributes (.concat a b r) (.binds d) names
  | concatSkip {a b r : Ty}
    (h : (s.apply a).stringLit? = none ∨ (s.apply b).stringLit? = none) :
    Contributes (.concat a b r) (.skips .unresolvedOperand) names
  | index {o f r type : Ty} {fields : List (String × Ty)} {name : String} {d : Subst}
    (ho : s.apply o = .object fields) (hf : s.apply f = .stringLit name)
    (htype : fields.lookup name = some type) (hd : Yields (.unify r type) d) :
    Contributes (.index o f r) (.binds d) names
  | indexMissing {o f r : Ty} {fields : List (String × Ty)} {name : String}
    (ho : s.apply o = .object fields) (hf : s.apply f = .stringLit name)
    (hmissing : fields.lookup name = none) :
    Contributes (.index o f r) (.skips .missingField) names
  | indexUnresolved {o f r : Ty} {fields : List (String × Ty)}
    (ho : s.apply o = .object fields) (hf : (s.apply f).stringLit? = none) :
    Contributes (.index o f r) (.skips .unresolvedOperand) names
  | indexNotObject {o f r : Ty} (ho : ∀ fields, s.apply o ≠ .object fields) :
    Contributes (.index o f r) (.skips .notAnObject) names

end

lemma stringLit?_eq_some {t : Ty} {x : String} : t.stringLit? = some x ↔ t = .stringLit x := by
  cases t <;> simp [Ty.stringLit?]

variable {depth : Nat} {nested : Bool} {names names' : FreshNames} {s : Subst} {c : Constraint}
  {k : Contribution}

lemma contributes_of_contribution (h : contribution depth nested names s c = (.ok k, names')) :
    Contributes nested names s c k names' := by
  cases c with
  | equals l r =>
    obtain ⟨hk, rfl⟩ := Prod.mk.inj h
    obtain ⟨d, hd, rfl⟩ := map_eq_ok.1 hk
    exact .equals (yields_of_unify hd)
  | apply f args r =>
    obtain ⟨hk, rfl⟩ := Prod.mk.inj h
    obtain ⟨d, hd, rfl⟩ := map_eq_ok.1 hk
    exact .apply rfl (yields_of_unify hd)
  | concat a b r =>
    obtain ⟨hk, rfl⟩ := Prod.mk.inj h
    unfold joinContribution at hk
    split at hk
    · rename_i x y hx hy
      obtain ⟨d, hd, rfl⟩ := map_eq_ok.1 hk
      exact .concat (stringLit?_eq_some.1 hx) (stringLit?_eq_some.1 hy) (yields_of_unify hd)
    · rename_i hnone
      obtain rfl := Except.ok.inj hk
      refine .concatSkip ?_
      by_contra hsome
      rw [not_or, ← ne_eq, ← ne_eq, Option.ne_none_iff_exists', Option.ne_none_iff_exists'] at hsome
      obtain ⟨⟨x, hx⟩, y, hy⟩ := hsome
      exact hnone x y hx hy
  | index o f r =>
    obtain ⟨hk, rfl⟩ := Prod.mk.inj h
    unfold accessContribution at hk
    split at hk
    · rename_i fields name ho hf
      rw [stringLit?_eq_some] at hf
      split at hk
      · rename_i type htype
        obtain ⟨d, hd, rfl⟩ := map_eq_ok.1 hk
        exact .index ho hf htype (yields_of_unify hd)
      · rename_i hmissing
        obtain rfl := Except.ok.inj hk
        exact .indexMissing ho hf hmissing
    · rename_i fields ho hf
      obtain rfl := Except.ok.inj hk
      exact .indexUnresolved ho hf
    · rename_i hlit hnone
      obtain rfl := Except.ok.inj hk
      refine .indexNotObject fun fields ho => ?_
      cases hf : (s.apply f).stringLit? with
      | none => exact hnone fields ho hf
      | some name => exact hlit fields name ho hf

/-- A contribution is the program's at all depths from some depth on. -/
lemma Contributes.contribution_eventually (h : Contributes nested names s c k names') :
    Eventually fun depth => contribution depth nested names s c = (.ok k, names') := by
  cases h with
  | equals hd =>
    refine hd.unify_eventually.mono fun depth hunify => ?_
    rw [contribution, hunify]
    rfl
  | apply hcallee hd =>
    refine hd.unify_eventually.mono fun depth hunify => ?_
    rw [contribution, callContribution, hcallee]
    simp only [hunify]
    rfl
  | concat ha hb hd =>
    refine hd.unify_eventually.mono fun depth hunify => ?_
    simp only [contribution, joinContribution, ha, hb, Ty.stringLit?, hunify]
    rfl
  | concatSkip hnone =>
    refine .of_forall fun depth => ?_
    rcases hnone with ha | hb
    · simp [contribution, joinContribution, ha]
    · simp [contribution, joinContribution, hb]
  | index ho hf htype hd =>
    refine hd.unify_eventually.mono fun depth hunify => ?_
    simp only [contribution, accessContribution, ho, hf, Ty.stringLit?, htype, hunify]
    rfl
  | indexMissing ho hf hmissing =>
    refine .of_forall fun depth => ?_
    simp [contribution, accessContribution, ho, hf, Ty.stringLit?, hmissing]
  | indexUnresolved ho hf =>
    refine .of_forall fun depth => ?_
    simp [contribution, accessContribution, ho, hf]
  | indexNotObject ho =>
    refine .of_forall fun depth => ?_
    simp only [contribution, accessContribution]
    split
    · exact absurd ‹_› (ho _)
    · exact absurd ‹_› (ho _)
    · rfl

/-! ## A batch -/

/-- A pass over a batch that ends without a failure: from a supply of names and a solution, the
steps made and the solution reached. -/
inductive Pass (nested : Bool) :
    FreshNames → Subst → List Constraint → List Step → Subst → Prop where
  | nil (names : FreshNames) (s : Subst) : Pass nested names s [] [] s
  | skips {names names' : FreshNames} {s r : Subst} {c : Constraint} {rest : List Constraint}
    {steps : List Step} {reason : SkipReason}
    (hc : Contributes nested names s c (.skips reason) names')
    (hrest : Pass nested names' s rest steps r) :
    Pass nested names s (c :: rest) (⟨c, .skips reason⟩ :: steps) r
  | binds {names names' : FreshNames} {s d s' r : Subst} {c : Constraint}
    {rest : List Constraint} {steps : List Step}
    (hc : Contributes nested names s c (.binds d) names')
    (hs : Yields (.extendAll s d.bindings) s') (hrest : Pass nested names' s' rest steps r) :
    Pass nested names s (c :: rest) (⟨c, .binds d⟩ :: steps) r

variable {r : Subst} {cs cs' : List Constraint} {steps steps' : List Step}

/-- Every run that ends in a solution is a pass. -/
theorem pass_of_runFrom (h : (runFrom depth nested names s cs).result = .ok r) :
    Pass nested names s cs (runFrom depth nested names s cs).steps r := by
  induction cs generalizing names s with
  | nil =>
    obtain rfl := Except.ok.inj h
    exact .nil names s
  | cons c rest ih =>
    unfold runFrom at h ⊢
    split at h
    · cases h
    · rename_i reason names' hc
      exact .skips (contributes_of_contribution hc) (ih h)
    · rename_i d names' hc
      split at h
      · cases h
      · rename_i s' hs
        exact .binds (contributes_of_contribution hc) (yields_of_compose hs) (ih h)

/-- A pass is the program's run at all depths from some depth on. -/
theorem Pass.runFrom_eventually (h : Pass nested names s cs steps r) :
    Eventually fun depth => runFrom depth nested names s cs = ⟨steps, .ok r⟩ := by
  induction h with
  | nil names s => exact .of_forall fun _ => rfl
  | skips hc _ ih =>
    refine (hc.contribution_eventually.and ih).mono ?_
    rintro depth ⟨hcontribution, hrest⟩
    rw [runFrom, hcontribution]
    simp only [hrest]
  | binds hc hs _ ih =>
    refine (hc.contribution_eventually.and (hs.compose_eventually.and ih)).mono ?_
    rintro depth ⟨hcontribution, hcompose, hrest⟩
    rw [runFrom, hcontribution]
    simp only [hcompose, hrest]

lemma pass_of_solve {config : Config} (h : solve depth config cs = .ok r) :
    Pass config.freshenNestedFunctions (.start config.syntheticMarker) .empty cs
      (run depth config cs).steps r :=
  pass_of_runFrom h

lemma pass_of_solveWithTrace {config : Config} {trace : Trace}
    (h : solveWithTrace depth config cs = .ok (r, trace)) :
    ∃ steps, Pass config.freshenNestedFunctions (.start config.syntheticMarker) .empty cs steps r ∧
      trace.steps = steps.mapIdx fun i step => step.account i := by
  obtain ⟨s, hs, heq⟩ := map_eq_ok.1 h
  obtain ⟨rfl, rfl⟩ := Prod.mk.inj heq
  exact ⟨_, pass_of_solve hs, rfl⟩

/-- The steps of a pass are those of its constraints, one each and in their order. -/
lemma Pass.map_constraint (h : Pass nested names s cs steps r) :
    steps.map Step.constraint = cs := by
  induction h with
  | nil names s => rfl
  | skips _ _ ih => rw [List.map_cons, ih]
  | binds _ _ _ ih => rw [List.map_cons, ih]

end Solver

end TypeSolver
