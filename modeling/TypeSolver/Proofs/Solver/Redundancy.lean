import TypeSolver.Proofs.Solver.Mismatch
import TypeSolver.Proofs.Solver.Order
import TypeSolver.Proofs.Solver.Prefix

/-!
# Equations that hold already

An equation that a solution satisfies already adds nothing to it.  That is not obvious from how it
is added: the two sides are unified as they are written, without a look at the solution, and what
comes of that is merged binding by binding, which unifies again.

All of these steps are consequences of what was asked, so the solution satisfies each of them.  A
step that binds a name binds an unresolved one, and to a type that the solution does not tell from
the name; so it binds the name to itself.  `Subst.Pads` is what can come of that: self-bindings are
put after the bindings that are there.  Such a substitution makes of every type what the old one
made of it (`Subst.Pads.apply_eq`), so the next step is in the same position, and
`Yields.pads` follows by induction.
-/

namespace TypeSolver

variable {s r : Subst} {n : Name} {t : Ty}

namespace Subst

/-! ## Self-bindings put at the end -/

/-- The second substitution has the bindings of the first in their places, and after them only names
that are bound to themselves. -/
def Pads (s r : Subst) : Prop :=
  ∃ extra : List Name, r.bindings = s.bindings ++ extra.map fun n => (n, .var n)

lemma Pads.refl (s : Subst) : s.Pads s := ⟨[], by simp⟩

lemma Pads.trans {u : Subst} (h : s.Pads r) (h' : r.Pads u) : s.Pads u := by
  obtain ⟨extra, hr⟩ := h
  obtain ⟨extra', hu⟩ := h'
  exact ⟨extra ++ extra', by rw [hu, hr, List.map_append, List.append_assoc]⟩

lemma lookup_self_bindings (extra : List Name) (n : Name) :
    (extra.map fun n => (n, Ty.var n)).lookup n = if n ∈ extra then some (.var n) else none := by
  induction extra with
  | nil => rfl
  | cons k extra ih =>
    rw [List.map_cons, lookup_cons_eq_ite, ih]
    by_cases hk : n = k
    · simp [hk]
    · simp [hk]

/-- A name that is bound to itself counts for nothing. -/
lemma Pads.toAssignment_eq (h : s.Pads r) : r.toAssignment = s.toAssignment := by
  obtain ⟨extra, hr⟩ := h
  funext n
  have hget : r.get? n = (s.get? n).or (if n ∈ extra then some (.var n) else none) := by
    rw [get?, hr, List.lookup_append, lookup_self_bindings]
    rfl
  rw [toAssignment, toAssignment, hget]
  cases s.get? n with
  | some t => rfl
  | none => by_cases hn : n ∈ extra <;> simp [hn]

lemma Pads.apply_eq (h : s.Pads r) (t : Ty) : r.apply t = s.apply t := by
  rw [apply_eq_assign, apply_eq_assign, h.toAssignment_eq]

/-- An unresolved name that is bound to a type which stands for the name itself. -/
lemma pads_bind (hn : s.Unresolved n) (ht : s.apply t = .var n) : s.Pads (s.bind n t) := by
  have hreplace : s.replaceIn n (.var n) = s := replaceIn_eq_self fun b _ =>
    Ty.substitute_self b.2 n
  rw [bind, ht, hreplace]
  rcases unresolved_iff.1 hn with hnone | hself
  · exact ⟨[n], bindings_put_of_new hnone⟩
  · rw [put_of_get?_eq_some hself]
    exact .refl s

end Subst

/-! ## Adding what holds already -/

lemma Subst.Pads.solvedBy {task : Task} (h : s.Pads r) (hs : task.SolvedBy s.toAssignment) :
    task.SolvedBy r.toAssignment := by
  rwa [h.toAssignment_eq]

/-- A task that its start solves comes to nothing but self-bindings. -/
theorem Yields.pads {task : Task} (h : Yields task r)
    (hsolved : task.SolvedBy task.start.toAssignment) : task.start.Pads r := by
  induction h with
  | varLeft n t =>
    rw [Task.SolvedBy, Task.start, Subst.toAssignment_empty, Ty.assign_id, Ty.assign_id] at hsolved
    rw [Ty.eq_var_of_alike hsolved]
    exact ⟨[n], rfl⟩
  | @varRight t n ht =>
    rw [Task.SolvedBy, Task.start, Subst.toAssignment_empty, Ty.assign_id, Ty.assign_id] at hsolved
    rw [Ty.eq_var_of_alike (Setoid.symm hsolved)]
    exact ⟨[n], rfl⟩
  | constant _ _ => exact .refl _
  | func hlen hr _ ihr ihps =>
    obtain ⟨hrq, hpairs⟩ := (assign_func_alike_iff hlen).1 hsolved
    have hresult := ihr hrq
    exact hresult.trans (ihps (hresult.solvedBy ⟨hr.satisfiedBy_iff.2 hrq, hpairs⟩))
  | pairsNil s => exact .refl s
  | pairsCons hd hadd _ _ ihs ihrest =>
    obtain ⟨hs, hpairs⟩ := hsolved
    rw [List.forall_mem_cons] at hpairs
    have hdelta := hd.satisfiedBy_iff.2 hpairs.1
    have hfirst := ihs ⟨hs, hdelta⟩
    have hafter := hadd.satisfiedBy_iff.2 ⟨hs, hdelta⟩
    exact hfirst.trans (ihrest (hfirst.solvedBy ⟨hafter, hpairs.2⟩))
  | keep _ _ => exact .refl _
  | @bind s n t hn _ =>
    refine Subst.pads_bind hn ?_
    have hname : s.toAssignment n ≈ t.assign s.toAssignment := hsolved.2
    rw [hn] at hname
    rw [Subst.apply_eq_assign]
    exact Ty.eq_var_of_alike hname
  | @reconcile s n t old d s' hold _ _ hd _ _ ihs =>
    obtain ⟨hs, hnt⟩ := hsolved
    have hname := hs (n, old) (Subst.get?_eq_some_iff.1 hold)
    exact ihs ⟨hs, hd.satisfiedBy_iff.2 (Setoid.trans (Setoid.symm hnt) hname)⟩
  | bindingsNil s => exact .refl s
  | bindingsCons hadd _ ihs ihrest =>
    obtain ⟨hs, hbs⟩ := hsolved
    rw [List.forall_mem_cons] at hbs
    have hfirst := ihs ⟨hs, hbs.1⟩
    have hafter := hadd.satisfiedBy_iff.2 ⟨hs, hbs.1⟩
    exact hfirst.trans (ihrest (hfirst.solvedBy ⟨hafter, hbs.2⟩))

/-- A substitution in resolved form, without objects and NaN literals, is a solution of itself that
equations can be added to. -/
lemma Subst.Idempotent.admits_self (hs : s.Idempotent) (hplain : s.All Ty.Plain) :
    s.Admits s.toAssignment :=
  ⟨hs, hs.satisfiedBy_self, hplain⟩

namespace Solver

variable {equations more : List (Ty × Ty)} {config : Config} {depth : Nat}

/-- A batch of equations with more equations after it is solved by going on from its solution. -/
lemma solve_append_equalities (h : solve depth config (equalities equations) = .ok s) :
    solve depth config (equalities (equations ++ more)) = (Task.unifyAll s more).run depth := by
  have happend : equalities (equations ++ more) = equalities equations ++ equalities more :=
    List.map_append
  rw [solve, happend, run_append h, result_runFrom_equalities]

lemma yields_of_solve (h : solve depth config (equalities equations) = .ok s) :
    Yields (.unifyAll .empty equations) s :=
  yields_of_run _ (result_runFrom_equalities.symm.trans h)

/-- Equations that a substitution solves already are added to it, and what comes of them are
self-bindings. -/
lemma exists_pads_of_holding (hs : s.Idempotent) (hplain : s.All Ty.Plain)
    (hmore : ∀ e ∈ more, e.1.Plain ∧ e.2.Plain) (hholds : ∀ e ∈ more, s.apply e.1 ≈ s.apply e.2) :
    ∃ r, Yields (.unifyAll s more) r ∧ s.Pads r := by
  simp only [Subst.apply_eq_assign] at hholds
  obtain ⟨steps, r, hpass, -⟩ :=
    exists_pass_of_solvable false default (hs.admits_self hplain) hmore hholds
  obtain ⟨enough, hrun⟩ := hpass.runFrom_eventually
  have hresult : (Task.unifyAll s more).run enough = .ok r := by
    rw [← result_runFrom_equalities, hrun enough le_rfl]
  have hyields := yields_of_run _ hresult
  exact ⟨r, hyields, hyields.pads ⟨hs.satisfiedBy_self, hholds⟩⟩

/-- An equation whose sides a substitution in resolved form makes equal is solved, and merging the
answer leaves every binding in its place and adds self-bindings only, so that no type is made into
anything else than before.  So equations that follow from those of a batch can be put after them:
the batch is still solved, and every type has the same solution. -/
theorem redundant_equations :
    (∀ (s : Subst) (l r : Ty), (∀ b ∈ s.bindings, s.apply b.2 = b.2) →
      (∀ b ∈ s.bindings, b.2.objectFree = true ∧ b.2.nanFree = true) →
      (l.objectFree = true ∧ l.nanFree = true) → (r.objectFree = true ∧ r.nanFree = true) →
      (s.apply l == s.apply r) = true →
      ∃ (d s' : Subst) (enough : Nat),
        (∀ depth, enough ≤ depth → unify depth l r = .ok d ∧ compose depth s d = .ok s') ∧
        s.Pads s' ∧ ∀ t : Ty, s'.apply t = s.apply t) ∧
    ∀ (depth : Nat) (config : Config) (equations more : List (Ty × Ty)) (s : Subst),
      (∀ e ∈ equations ++ more, (e.1.objectFree = true ∧ e.1.nanFree = true) ∧
        e.2.objectFree = true ∧ e.2.nanFree = true) →
      solve depth config (equalities equations) = .ok s →
      (∀ b ∈ s.bindings, s.apply b.2 = b.2) →
      (∀ e ∈ more, ∀ θ : Assignment, (∀ e' ∈ equations, e'.1.assign θ ≈ e'.2.assign θ) →
        e.1.assign θ ≈ e.2.assign θ) →
      ∃ (s' : Subst) (enough : Nat),
        (∀ depth', enough ≤ depth' →
          solve depth' config (equalities (equations ++ more)) = .ok s') ∧
        s.Pads s' ∧ ∀ t : Ty, s'.apply t = s.apply t := by
  refine ⟨?_, ?_⟩
  · intro s l r hfixes hplain hl hr h
    have hs : s.Idempotent := Subst.idempotent_iff_fixes.2 hfixes
    have hall : s.All Ty.Plain := fun b hb => ⟨Ty.plain_var b.1, hplain b hb⟩
    have hlr : l.assign s.toAssignment ≈ r.assign s.toAssignment := by
      rw [← Subst.apply_eq_assign, ← Subst.apply_eq_assign]
      exact Ty.alike_of_beq h
    obtain ⟨d, s', hd, hs', -⟩ := (hs.admits_self hall).exists_merge hl hr hlr
    have hpads : s.Pads s' := hs'.pads ⟨hs.satisfiedBy_self, hd.satisfiedBy_iff.2 hlr⟩
    obtain ⟨enough, hrun⟩ := hd.unify_eventually.and hs'.compose_eventually
    exact ⟨d, s', enough, hrun, hpads, hpads.apply_eq⟩
  · intro depth config equations more s hplain h hfixes hfollows
    have hs : s.Idempotent := Subst.idempotent_iff_fixes.2 hfixes
    obtain ⟨hequations, hmore⟩ := List.forall_mem_append.1 hplain
    have hall : s.All Ty.Plain := (yields_of_solve h).all Ty.hereditary_plain
      ⟨by simp [Subst.All, Subst.empty], hequations⟩
    have hholds : ∀ e ∈ more, s.apply e.1 ≈ s.apply e.2 := fun e he =>
      hs.apply_alike_iff.2 fun θ hθ => hfollows e he θ ((satisfiedBy_iff_of_solve h).1 hθ)
    obtain ⟨s', hyields, hpads⟩ := exists_pads_of_holding hs hall hmore hholds
    obtain ⟨enough, hrun⟩ := (solve_eventually h).and hyields.run_eventually
    refine ⟨s', enough, fun depth' hdepth => ?_, hpads, hpads.apply_eq⟩
    obtain ⟨hsolve, hadd⟩ := hrun depth' hdepth
    rw [solve_append_equalities hsolve, hadd]

/-- One name is bound to another, and two functions with the two names exchanged are equated; then
the equation of the names is repeated the other way round.  Each leaves a self-binding. -/
theorem redundant_equations_of_exchanged_names :
    ((unify 9 (.func [.var "x"] (.var "y")) (.func [.var "y"] (.var "x")) =
        .ok (.ofList [("y", .var "x"), ("x", .var "x")]) ∧
      compose 9 (.single "x" (.var "y")) (.ofList [("y", .var "x"), ("x", .var "x")]) =
        .ok (.ofList [("x", .var "y"), ("y", .var "y")])) ∧
    ∃ (d s' : Subst) (enough : Nat),
      (∀ depth, enough ≤ depth →
        unify depth (.func [.var "x"] (.var "y")) (.func [.var "y"] (.var "x")) = .ok d ∧
          compose depth (.single "x" (.var "y")) d = .ok s') ∧
      (Subst.single "x" (.var "y")).Pads s' ∧
      ∀ t : Ty, s'.apply t = (Subst.single "x" (.var "y")).apply t) ∧
    ∃ (s' : Subst) (enough : Nat),
      (∀ depth, enough ≤ depth → solve depth Preset.standard.config
        (equalities ([(.var "x", .var "y")] ++ [(.var "y", .var "x")])) = .ok s') ∧
      (Subst.single "x" (.var "y")).Pads s' ∧
      ∀ t : Ty, s'.apply t = (Subst.single "x" (.var "y")).apply t := by
  refine ⟨⟨⟨rfl, rfl⟩, ?_⟩, ?_⟩
  · exact redundant_equations.1 (.single "x" (.var "y")) _ _ (List.forall_mem_singleton.2 rfl)
      (by decide) ⟨rfl, rfl⟩ ⟨rfl, rfl⟩ (by decide)
  · refine redundant_equations.2 9 Preset.standard.config [(.var "x", .var "y")]
      [(.var "y", .var "x")] _ (by decide) rfl (List.forall_mem_singleton.2 rfl) ?_
    rw [List.forall_mem_singleton]
    intro θ hθ
    exact Setoid.symm (hθ _ (List.mem_singleton_self _))

end Solver

end TypeSolver
