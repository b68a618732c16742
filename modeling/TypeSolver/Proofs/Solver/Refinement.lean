import TypeSolver.Proofs.Solver.Call
import TypeSolver.Proofs.Solver.Prefix
import TypeSolver.Proofs.Solver.Soundness
import TypeSolver.Proofs.Unify.Refinement

/-!
# A pass only refines its solution

Two statements about what later constraints can do to what earlier ones have settled.

## Every pass

A pass binds unresolved names and does nothing else, so its solution at any time refines what it was
at any earlier time: names keep their places, and types change by single replacements only
(`solve_refines`).  A type without variables has nothing to replace.

## A call and its callee

What a call adds is merged into the whole solution, and merging can bind names that occur neither in
the call nor in the callee.  It can reach a name only along the bindings from the names of the call,
however, and if nothing reached that way is a variable of the callee, the callee stays what it was
(`apply_callee_eq`).  The callee's own variables do not count as reached, for the instance has
renamed them; that is why they must fill slots.
-/

namespace TypeSolver

variable {s r : Subst}

/-! ## Every pass -/

/-- What becomes of a substitution to which bindings are added.  The names that it binds keep their
places, and new ones come after them.  What it makes of a type is changed by single replacements
only, the same for all types.  So a name that is bound to a type without variables stays bound to
that type. -/
structure Subst.Refines (s r : Subst) : Prop where
  names : s.names <+: r.names
  apply : ∃ replacements : List (Name × Ty), ∀ t, r.apply t = (s.apply t).replaceAll replacements
  ground : ∀ n t, s.get? n = some t → t.Ground → r.get? n = some t

lemma Subst.BindSteps.refines (h : BindSteps s r) : s.Refines r := by
  obtain ⟨replacements, -, happly⟩ := h.bindStepsAt.exists_replaceAll
  refine ⟨h.bindStepsAt.names_isPrefix, ⟨replacements, happly⟩, fun n t hn ht => ?_⟩
  have hvalue : r.apply (.var n) = t := by
    rw [happly, Subst.apply, hn]
    exact Ty.replaceAll_of_not_mentions fun p _ => ht p.1
  cases hr : r.get? n with
  | none =>
    -- an unbound name would stand for itself, which is a type with a variable
    rw [Subst.apply, hr, Option.getD_none] at hvalue
    have hself := ht n
    simp [← hvalue, Ty.mentions] at hself
  | some u =>
    rw [Subst.apply, hr, Option.getD_some] at hvalue
    rw [hvalue]

namespace Solver

variable {nested : Bool} {names : FreshNames} {cs : List Constraint} {steps : List Step}

/-- A pass binds unresolved names, one after another. -/
lemma Pass.bindSteps (h : Pass nested names s cs steps r) : Subst.BindSteps s r := by
  induction h with
  | nil names s => exact .refl
  | skips _ _ ih => exact ih
  | binds _ hd _ ih => exact hd.bindSteps.trans ih

/-- The solution after a prefix of a batch is refined by the solution after every longer prefix, and
so is any substitution by what it is extended or composed to.  It need be neither resolved nor
acyclic. -/
theorem solve_refines :
    (∀ (depth depth' : Nat) (config : Config) (constraints : List Constraint) (k k' : Nat)
      (s s' : Subst), k ≤ k' → solve depth config (constraints.take k) = .ok s →
        solve depth' config (constraints.take k') = .ok s' → s.Refines s') ∧
    (∀ (depth : Nat) (s : Subst) (n : Name) (t : Ty) (r : Subst), extend depth s n t = .ok r →
      s.Refines r) ∧
    (∀ (depth : Nat) (s added r : Subst), compose depth s added = .ok r → s.Refines r) := by
  refine ⟨?_, ?_, ?_⟩
  · intro depth depth' config constraints k k' s s' hk hs hs'
    have hsplit : constraints.take k' =
        constraints.take k ++ (constraints.drop k).take (k' - k) := by
      rw [← List.take_add, Nat.add_sub_cancel' hk]
    rw [hsplit] at hs'
    obtain ⟨names, steps, hpass⟩ := exists_pass_of_append hs hs'
    exact hpass.bindSteps.refines
  · intro depth s n t r h
    exact (yields_of_extend h).bindSteps.refines
  · intro depth s added r h
    exact (yields_of_compose h).bindSteps.refines

/-- The first two equations leave a name that occurs in its own type, and the third goes on from
there; a self-binding is overwritten in its place. -/
theorem solve_refines_of_cycle :
    (solve 9 Preset.standard.config
        ([.equals (.var "x") (.func [.var "y"] (.var "x")), .equals (.var "z") (.var "x"),
          .equals (.var "y") .number].take 2) =
      .ok (.ofList [("x", .func [.var "y"] (.var "x")), ("z", .func [.var "y"] (.var "x"))]) ∧
    solve 9 Preset.standard.config
        ([.equals (.var "x") (.func [.var "y"] (.var "x")), .equals (.var "z") (.var "x"),
          .equals (.var "y") .number].take 3) =
      .ok (.ofList [("x", .func [.number] (.var "x")), ("z", .func [.number] (.var "x")),
        ("y", .number)]) ∧
    (Subst.ofList [("x", .func [.var "y"] (.var "x")),
      ("z", .func [.var "y"] (.var "x"))]).Refines
      (.ofList [("x", .func [.number] (.var "x")), ("z", .func [.number] (.var "x")),
        ("y", .number)])) ∧
    (extend 5 (.ofList [("y", .var "y"), ("x", .var "y")]) "y" .number =
        .ok (.ofList [("y", .number), ("x", .number)]) ∧
      (Subst.ofList [("y", .var "y"), ("x", .var "y")]).Refines
        (.ofList [("y", .number), ("x", .number)])) ∧
    (compose 5 (.single "x" (.var "y")) (.single "x" .number) =
        .ok (.ofList [("x", .number), ("y", .number)]) ∧
      (Subst.single "x" (.var "y")).Refines (.ofList [("x", .number), ("y", .number)])) := by
  refine ⟨⟨rfl, rfl, ?_⟩, ⟨rfl, ?_⟩, rfl, ?_⟩
  · exact solve_refines.1 9 9 Preset.standard.config
      [.equals (.var "x") (.func [.var "y"] (.var "x")), .equals (.var "z") (.var "x"),
        .equals (.var "y") .number] 2 3 _ _ (by decide) rfl rfl
  · exact solve_refines.2.1 5 _ "y" .number _ rfl
  · exact solve_refines.2.2 5 _ (.single "x" .number) _ rfl

/-! ## A call and its callee -/

/-- The names from which a solution does not lead to a variable of the given type. -/
def Aside (s : Subst) (t : Ty) (n : Name) : Prop :=
  (s.toAssignment n).Over fun m => t.mentions m = false

/-- In a resolved solution the names that lie aside lead to names that do. -/
lemma closedOn_aside (hs : s.Idempotent) (t : Ty) : s.ClosedOn (Aside s t) := by
  rintro ⟨n, u⟩ hb hn m hm k hk
  rw [Aside, Subst.toAssignment_of_mem hb] at hn
  have hunresolved : s.toAssignment m = .var m :=
    Subst.idempotent_iff_unresolved.1 hs (n, u) hb m hm
  rw [hunresolved, Ty.mentions_var] at hk
  exact hk ▸ hn m hm

/-- A variable that a resolved solution leaves in a type does not lie aside from that type. -/
lemma not_aside_of_mentions (hs : s.Idempotent) {f : Ty} {n : Name}
    (hn : (s.apply f).mentions n = true) : ¬ Aside s (s.apply f) n := by
  intro haside
  have hfix : (s.apply f).assign s.toAssignment = s.apply f := by
    rw [← Subst.apply_eq_assign]
    exact hs f
  have hself : s.toAssignment n = .var n := Ty.assign_eq_self_iff.1 hfix n hn
  have hfree := haside n (by simp [hself])
  simp [hn] at hfree

lemma over_aside {t u : Ty} (h : ∀ n, t.mentions n = true → (s.apply u).mentions n = false) :
    u.Over (Aside s t) := by
  intro n hn k hk
  rw [← Bool.not_eq_true]
  intro hkt
  have hmentions : (s.apply u).mentions k = true := by
    rw [Subst.apply_eq_assign]
    exact Ty.mentions_assign.2 ⟨n, hn, hk⟩
  simp [h k hkt] at hmentions

/-- Without nested renaming, a call leaves the type of its callee as it was: every variable of the
callee fills a slot, and none of them occurs in what the solution makes of the arguments and of the
result.  What the arguments are, what came before, and how the names of the instance are spelled
does not matter. -/
theorem apply_callee_eq {depth depth' : Nat} {config : Config} {before : List Constraint}
    {f q r : Ty} {args ps : List Ty} {s s' : Subst}
    (hshallow : config.freshenNestedFunctions = false)
    (hs : solve depth config before = .ok s) (hidem : s.Idempotent)
    (hcallee : s.apply f = .func ps r)
    (hslots : ∀ slot ∈ r :: ps, (∃ n, slot = .var n) ∨ slot.Ground)
    (hcall : ∀ n, (s.apply f).mentions n = true → ∀ t ∈ q :: args, (s.apply t).mentions n = false)
    (hs' : solve depth' config (before ++ [.apply f args q]) = .ok s') :
    s'.apply f = s.apply f := by
  obtain ⟨names, steps, hpass⟩ := exists_pass_of_append hs hs'
  rw [hshallow] at hpass
  cases hpass with
  | skips hc _ => cases hc
  | binds hc hadd hrest =>
    cases hrest
    cases hc with
    | @apply _ _ _ callee _ e hinstance he =>
      rw [hcallee] at hinstance
      obtain rfl : ((Ty.func ps r).instantiate false names).1 = callee := by rw [hinstance]
      have hguarded : ((Ty.func ps r).instantiate false names).1.Guarded
          (Aside s (s.apply f)) := by
        refine Ty.guarded_of_slots names fun slot hslot hvar =>
          ⟨Ty.slotNames_of_shallow hvar, fun n hn => ?_⟩
        rcases hslots slot hslot with ⟨m, rfl⟩ | hground
        · simp [Ty.varName?] at hvar
        · simp [hground n] at hn
      have hcallOver : (Ty.func args q).Over (Aside s (s.apply f)) :=
        Ty.over_func_iff.2 fun slot hslot => over_aside fun k hk => hcall k hk slot hslot
      have hsteps := (hadd.confined
        ⟨closedOn_aside hidem (s.apply f), hguarded.over_strip hcallOver he⟩).1
      exact hsteps.apply_eq fun n hn => not_aside_of_mentions hidem hn

/-- The second call of a function, with a name that the first call has bound. -/
theorem apply_callee_eq_of_second_call :
    ∃ s s' : Subst,
      solve 9 Preset.standard.config
        [.equals (.var "f") (.func [.var "x", .func [.number] .string] (.var "x")),
          .apply (.var "f") [.number, .var "g"] (.var "p")] = .ok s ∧
      s.Idempotent ∧
      solve 9 Preset.standard.config
        ([.equals (.var "f") (.func [.var "x", .func [.number] .string] (.var "x")),
          .apply (.var "f") [.number, .var "g"] (.var "p")] ++
          [.apply (.var "f") [.func [.var "p"] (.var "y"), .var "g"] (.var "q")]) = .ok s' ∧
      s'.get? "q" = some (.func [.number] (.var "y")) ∧
      s.apply (.var "f") = .func [.var "x", .func [.number] .string] (.var "x") ∧
      s'.apply (.var "f") = s.apply (.var "f") := by
  have hsolved : ∃ s s' : Subst,
      solve 9 Preset.standard.config
        [.equals (.var "f") (.func [.var "x", .func [.number] .string] (.var "x")),
          .apply (.var "f") [.number, .var "g"] (.var "p")] = .ok s ∧
      solve 9 Preset.standard.config
        ([.equals (.var "f") (.func [.var "x", .func [.number] .string] (.var "x")),
          .apply (.var "f") [.number, .var "g"] (.var "p")] ++
          [.apply (.var "f") [.func [.var "p"] (.var "y"), .var "g"] (.var "q")]) = .ok s' ∧
      s.Acyclic ∧
      s'.get? "q" = some (.func [.number] (.var "y")) ∧
      s.apply (.var "f") = .func [.var "x", .func [.number] .string] (.var "x") ∧
      ∀ t ∈ [Ty.var "q", .func [.var "p"] (.var "y"), .var "g"],
        (s.apply t).mentions "x" = false :=
    ⟨_, _, rfl, rfl, by decide, rfl, rfl, by decide⟩
  obtain ⟨s, s', hs, hs', hacyclic, hq, hcallee, hcall⟩ := hsolved
  have hidem : s.Idempotent := (reachable_of_solve hs).idempotent_iff_acyclic.2 hacyclic
  refine ⟨s, s', hs, hidem, hs', hq, hcallee, apply_callee_eq rfl hs hidem hcallee ?_ ?_ hs'⟩
  · have hground : (Ty.func [.number] .string).Ground := fun _ => rfl
    simp [hground]
  · intro n hn
    rw [hcallee] at hn
    obtain rfl : "x" = n := by simpa [Ty.mentions, Ty.mentionsList] using hn
    exact hcall

end Solver

end TypeSolver
