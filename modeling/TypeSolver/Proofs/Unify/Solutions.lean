import TypeSolver.Proofs.Unify.Task

/-!
# The solutions of what the unifier returns

A binding `n := t` is an equation, and an assignment satisfies a substitution when it makes both
sides of every binding alike.  A task is a set of equations in the same way: the two types that are
to agree, the bindings that are there already, the bindings that are to be added.

The main statement is that the two sets of equations have the same solutions
(`Yields.satisfiedBy_iff`).  So an answer loses no equation of its task and adds none: it is sound
and it is most general, and there is no condition on the types, which may be objects, repeat a
variable, or mention the variable that they are to be equal to.

The single step behind it is `Subst.satisfiedBy_bind`.  A binding is put in resolved, and the other
bindings have the name replaced in them, so none of the new bindings need be one of the old
equations; they are equivalent to them together.
-/

namespace TypeSolver

variable {θ : Assignment} {s : Subst} {n : Name} {t : Ty}

/-! ## Substitutions as equations -/

namespace Subst

/-- Whether an assignment makes both sides of every binding alike. -/
def SatisfiedBy (s : Subst) (θ : Assignment) : Prop :=
  ∀ b ∈ s.bindings, θ b.1 ≈ b.2.assign θ

/-- An assignment satisfies a substitution when applying the substitution first changes nothing. -/
lemma satisfiedBy_iff : s.SatisfiedBy θ ↔ ∀ n, (s.toAssignment n).assign θ ≈ θ n := by
  have hall : (∀ n, θ n ≈ (s.toAssignment n).assign θ) ↔ s.SatisfiedBy θ :=
    forall_toAssignment_iff (P := fun n t => θ n ≈ t.assign θ) fun n _ => Setoid.refl (θ n)
  rw [← hall]
  exact forall_congr' fun n => ⟨Setoid.symm, Setoid.symm⟩

/-- A solution of a substitution does not tell a type from what the substitution makes of it. -/
lemma SatisfiedBy.assign_apply (h : s.SatisfiedBy θ) (t : Ty) :
    (s.apply t).assign θ ≈ t.assign θ := by
  rw [apply_eq_assign, Ty.assign_assign]
  exact Ty.assign_alike t (satisfiedBy_iff.1 h)

lemma satisfiedBy_empty : empty.SatisfiedBy θ := by
  simp [SatisfiedBy, empty]

lemma satisfiedBy_single : (single n t).SatisfiedBy θ ↔ θ n ≈ t.assign θ := by
  simp [SatisfiedBy, single]

end Subst

/-- A solution of `n := u` does not see the replacement of `n` by `u`. -/
lemma Ty.assign_substitute {u : Ty} (h : θ n ≈ u.assign θ) (t : Ty) :
    (t.substitute n u).assign θ ≈ t.assign θ := by
  rw [substitute_eq_assign, assign_assign]
  refine assign_alike t fun m => ?_
  by_cases hm : m = n
  · subst hm
    rw [Function.update_self]
    exact Setoid.symm h
  · exact alike_of_eq (by rw [Function.update_of_ne hm, assign_var])

/-- Binding an unresolved name adds one equation to those that are there. -/
lemma Subst.satisfiedBy_bind (hn : s.Unresolved n) :
    (s.bind n t).SatisfiedBy θ ↔ s.SatisfiedBy θ ∧ θ n ≈ t.assign θ := by
  have hmaps : (s.bind n t).SatisfiedBy θ ↔
      ∀ m, ((s.toAssignment m).substitute n (s.apply t)).assign θ ≈ θ m := by
    simp only [satisfiedBy_iff, toAssignment_bind hn]
  rw [hmaps]
  constructor
  · intro h
    -- the name itself first: from there on replacing it can be undone under `θ`
    have hres : θ n ≈ (s.apply t).assign θ := by
      have hself := h n
      rw [hn, Ty.substitute, if_pos rfl] at hself
      exact Setoid.symm hself
    have hs : s.SatisfiedBy θ := satisfiedBy_iff.2 fun m =>
      Setoid.trans (Setoid.symm (Ty.assign_substitute hres _)) (h m)
    exact ⟨hs, Setoid.trans hres (hs.assign_apply t)⟩
  · rintro ⟨hs, ht⟩ m
    have hres : θ n ≈ (s.apply t).assign θ := Setoid.trans ht (Setoid.symm (hs.assign_apply t))
    exact Setoid.trans (Ty.assign_substitute hres _) (satisfiedBy_iff.1 hs m)

/-! ## Tasks as equations -/

/-- Whether an assignment solves the equations that a task stands for. -/
def Task.SolvedBy (θ : Assignment) : Task → Prop
  | .unify a b => a.assign θ ≈ b.assign θ
  | .unifyAll s pairs => s.SatisfiedBy θ ∧ ∀ pq ∈ pairs, pq.1.assign θ ≈ pq.2.assign θ
  | .extend s n t => s.SatisfiedBy θ ∧ θ n ≈ t.assign θ
  | .extendAll s bindings => s.SatisfiedBy θ ∧ ∀ b ∈ bindings, θ b.1 ≈ b.2.assign θ

/-- The equation of two functions with equally many parameters is that of their parts. -/
lemma assign_func_alike_iff {ps qs : List Ty} {r q : Ty} (hlen : ps.length = qs.length) :
    (Ty.func ps r).assign θ ≈ (Ty.func qs q).assign θ ↔
      r.assign θ ≈ q.assign θ ∧ ∀ pq ∈ ps.zip qs, pq.1.assign θ ≈ pq.2.assign θ := by
  rw [Ty.assign_func, Ty.assign_func, Ty.alike_func, List.forall₂_map_left_iff,
    List.forall₂_map_right_iff, List.forall₂_iff_zip, and_iff_right hlen, and_comm]
  exact and_congr_right fun _ => ⟨fun h _ hpq => h hpq, fun h _ _ hpq => h _ hpq⟩

/-- An answer has the solutions of its task, no more and no fewer. -/
theorem Yields.satisfiedBy_iff {task : Task} {r : Subst} (h : Yields task r) :
    r.SatisfiedBy θ ↔ task.SolvedBy θ := by
  induction h with
  | varLeft n t => exact Subst.satisfiedBy_single
  | varRight n _ =>
    rw [Subst.satisfiedBy_single]
    exact ⟨Setoid.symm, Setoid.symm⟩
  | constant _ hab =>
    exact iff_of_true Subst.satisfiedBy_empty (Ty.alike_assign (Ty.alike_of_beq hab))
  | func hlen _ _ ihr ihps =>
    rw [ihps]
    show Subst.SatisfiedBy _ θ ∧ _ ↔ _
    rw [ihr]
    exact (assign_func_alike_iff hlen).symm
  | pairsNil s => simp [Task.SolvedBy]
  | pairsCons _ _ _ ihd ihs ihrest =>
    simp only [Task.SolvedBy, List.forall_mem_cons] at ihd ihs ihrest ⊢
    rw [ihrest, ihs, ← ihd, and_assoc]
    rfl
  | @keep s n t old hold heq =>
    -- the equation to be added follows from the one for the name that is there
    refine ⟨fun hs => ⟨hs, ?_⟩, And.left⟩
    exact Setoid.trans (hs (n, old) (Subst.get?_eq_some_iff.1 hold))
      (Ty.alike_assign (Ty.alike_of_beq heq))
  | bind hn _ => exact Subst.satisfiedBy_bind hn
  | @reconcile s n t old d s' hold _ _ _ _ ihd ihs =>
    rw [ihs]
    refine and_congr_right fun hs => ?_
    have hname : θ n ≈ old.assign θ := hs (n, old) (Subst.get?_eq_some_iff.1 hold)
    refine Iff.trans ihd ⟨fun h => ?_, fun h => ?_⟩
    · exact Setoid.trans hname (Setoid.symm h)
    · exact Setoid.trans (Setoid.symm h) hname
  | bindingsNil s => simp [Task.SolvedBy]
  | bindingsCons _ _ ihs ihrest =>
    simp only [Task.SolvedBy, List.forall_mem_cons] at ihs ihrest ⊢
    rw [ihrest, ihs, and_assoc]

/-- Whatever the unifier returns is satisfied by exactly the assignments that solve what it was
asked: the equation of two types, a substitution with one more equation, or two substitutions
together. -/
theorem satisfiedBy_answer_iff (θ : Assignment) :
    (∀ (depth : Nat) (a b : Ty) (r : Subst), unify depth a b = .ok r →
      (r.SatisfiedBy θ ↔ a.assign θ ≈ b.assign θ)) ∧
    (∀ (depth : Nat) (s : Subst) (n : Name) (t : Ty) (r : Subst), extend depth s n t = .ok r →
      (r.SatisfiedBy θ ↔ s.SatisfiedBy θ ∧ θ n ≈ t.assign θ)) ∧
    (∀ (depth : Nat) (s₁ s₂ r : Subst), compose depth s₁ s₂ = .ok r →
      (r.SatisfiedBy θ ↔ s₁.SatisfiedBy θ ∧ s₂.SatisfiedBy θ)) := by
  refine ⟨?_, ?_, ?_⟩
  · intro depth a b r h
    exact (yields_of_unify h).satisfiedBy_iff
  · intro depth s n t r h
    exact (yields_of_extend h).satisfiedBy_iff
  · intro depth s₁ s₂ r h
    exact (yields_of_compose h).satisfiedBy_iff

/-- A name that stands in two places, one that is bound already, and two bound to each other. -/
theorem satisfiedBy_answer_iff_of_shared_names :
    (unify 5 (.func [.var "x"] (.var "x")) (.func [.number] (.var "y")) =
        .ok (.ofList [("x", .number), ("y", .number)]) ∧
      ((Subst.ofList [("x", .number), ("y", .number)]).SatisfiedBy (fun _ => .number) ↔
        (Ty.func [.var "x"] (.var "x")).assign (fun _ => .number) ≈
          (Ty.func [.number] (.var "y")).assign (fun _ => .number))) ∧
    (extend 5 (.single "x" (.var "y")) "x" .number =
        .ok (.ofList [("x", .number), ("y", .number)]) ∧
      ((Subst.ofList [("x", .number), ("y", .number)]).SatisfiedBy (fun _ => .number) ↔
        (Subst.single "x" (.var "y")).SatisfiedBy (fun _ => .number) ∧
          Ty.number ≈ Ty.number.assign (fun _ => .number))) ∧
    compose 5 (.single "x" (.var "y")) (.single "y" (.var "x")) =
        .ok (.ofList [("x", .var "y"), ("y", .var "y")]) ∧
      ((Subst.ofList [("x", .var "y"), ("y", .var "y")]).SatisfiedBy (fun _ => .number) ↔
        (Subst.single "x" (.var "y")).SatisfiedBy (fun _ => .number) ∧
          (Subst.single "y" (.var "x")).SatisfiedBy (fun _ => .number)) := by
  refine ⟨⟨rfl, ?_⟩, ⟨rfl, ?_⟩, rfl, ?_⟩
  · exact (satisfiedBy_answer_iff _).1 5 _ _ _ rfl
  · exact (satisfiedBy_answer_iff fun _ => .number).2.1 5 _ "x" _ _ rfl
  · exact (satisfiedBy_answer_iff _).2.2 5 _ _ _ rfl

end TypeSolver
